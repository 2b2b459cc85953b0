import ActorCluster.Node.Eviction

/-! # Progress of the drains

Nothing but a full result channel holds a drain up once its actor is dead. As
long as the aggregator has not taken `done` it can make room, so from every
state some run lets the drain of an evicted actor finish.
-/

namespace ActorCluster.Node

open Remote Wallet Transition ActorCluster.Runtime

variable {cfg : Config}

/-- Some run leads to a node of which the predicate holds. -/
def NodeRun.LeadsTo (cfg : Config) (r : NodeRun) (P : NodeState → Prop) : Prop :=
  (ActorCluster.Node.node cfg).LeadsTo NodeRun.FreshRequests r fun t => P t.node

namespace NodeRun.LeadsTo

variable {r : NodeRun} {P Q : NodeState → Prop}

theorem refl (h : P r.node) : NodeRun.LeadsTo cfg r P := by
  exact ⟨r, Relation.ReflTransGen.refl, h⟩

theorem trans (h : NodeRun.LeadsTo cfg r P)
    (hnext : ∀ t : NodeRun, P t.node → NodeRun.LeadsTo cfg t Q) : NodeRun.LeadsTo cfg r Q :=
  System.LeadsTo.trans h hnext

/-- One enabled step of any goroutine other than an arrival. -/
theorem step (action : Action) (henabled : r.node.enabled cfg action = true)
    (hfresh : r.node.FreshRequests action)
    (h : NodeRun.LeadsTo cfg (r.apply cfg (.act action)) P) : NodeRun.LeadsTo cfg r P := by
  have hstep : (ActorCluster.Node.node cfg).step r (.act action) =
      some (r.apply cfg (.act action)) :=
    System.guarded_step_eq_some_iff.mpr ⟨henabled, rfl⟩
  have hguard : r.FreshRequests (.act action) := hfresh
  exact System.LeadsTo.step hguard hstep h

end NodeRun.LeadsTo

section Room

end Room

section Drains

variable {a : Nat}

end Drains

end ActorCluster.Node
