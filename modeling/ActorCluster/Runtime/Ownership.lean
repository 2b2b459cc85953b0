import ActorCluster.Foundation.Custody
import ActorCluster.Runtime.Machine

/-! # Ownership of queue nodes

Every node in use has one owner: the pool, a goroutine that has not enqueued it
yet, or the actor whose queue it is part of. The old head stays with its actor
until it is back in the pool.
-/

namespace ActorCluster.Runtime

open Transition Custody
open scoped List

variable {Msg : Type}

inductive Owner where
  | pool
  | thread (p : Nat)
  | actor (a : Nat)
  deriving DecidableEq

/-- The node a goroutine has taken from the pool. -/
def Thread.owned : Thread Msg → List Addr
  | .fill _ _ qnode | .reset _ qnode | .count _ qnode | .swap _ qnode => [qnode]
  | .holding env | .clearNext env | .put env => [env]
  | _ => []

/-- The old head that a consumer has yet to return to the pool. -/
def Loop.recycling : Loop → List Addr
  | .recycle _ old _ => [old]
  | _ => []

/-- The nodes of an actor: the old head, the head, and the queue behind it. -/
def Actor.kept (actor : Actor) (queue : List Addr) : List Addr :=
  actor.loop.recycling ++ actor.head :: queue

namespace Machine

/-- Who owns which nodes, given the nodes in each queue. -/
def hold (s : Machine Msg) (nodes : Nat → List Addr) : Owner → List Addr
  | .pool => s.envelopePool
  | .thread p => (s.thread p).owned
  | .actor a => (s.actor a).kept (nodes a)

variable {s : Machine Msg} {nodes : Nat → List Addr}

theorem hold_setThread (s : Machine Msg) (nodes : Nat → List Addr) (p : Nat) (t : Thread Msg) :
    (s.setThread p t).hold nodes = Function.update (s.hold nodes) (.thread p) t.owned := by
  funext owner
  cases owner with
  | pool | actor a => rw [Function.update_of_ne (by simp)]; rfl
  | thread r =>
      by_cases hr : r = p
      · subst hr
        simp [hold, setThread]
      · rw [Function.update_of_ne (by simpa using hr)]
        simp [hold, setThread, hr]

theorem hold_setActor (s : Machine Msg) (nodes : Nat → List Addr) (a : Nat) (actor : Actor) :
    (s.setActor a actor).hold nodes =
      Function.update (s.hold nodes) (.actor a) (actor.kept (nodes a)) := by
  funext owner
  cases owner with
  | pool | thread p => rw [Function.update_of_ne (by simp)]; rfl
  | actor b =>
      by_cases hb : b = a
      · subst hb
        simp [hold, setActor]
      · rw [Function.update_of_ne (by simpa using hb)]
        simp [hold, setActor, hb]

theorem hold_update (s : Machine Msg) (nodes : Nat → List Addr) (a : Nat) (queue : List Addr) :
    s.hold (Function.update nodes a queue) =
      Function.update (s.hold nodes) (.actor a) ((s.actor a).kept queue) := by
  funext owner
  cases owner with
  | pool | thread p => rw [Function.update_of_ne (by simp)]; rfl
  | actor b =>
      by_cases hb : b = a
      · subst hb
        simp [hold]
      · rw [Function.update_of_ne (by simpa using hb)]
        simp [hold, hb]

theorem hold_setPool (s : Machine Msg) (nodes : Nat → List Addr) (pool : List Addr) (made : Nat) :
    { s with envelopePool := pool, made := made }.hold nodes =
      Function.update (s.hold nodes) .pool pool := by
  funext owner
  cases owner with
  | pool => rw [Function.update_self]; rfl
  | thread p | actor a => rw [Function.update_of_ne (by simp)]; rfl

/-- The nodes in each queue after an action. -/
def nodesAfter (nodes : Nat → List Addr) : Action Msg → Nat → List Addr
  | .swap _ a qnode => Function.update nodes a (nodes a ++ [qnode])
  | .advance a _ | .drain a _ => Function.update nodes a (nodes a).tail
  | _ => nodes

/-- No node has two owners, and the nodes yet to be made have none. -/
structure Owned (s : Machine Msg) (nodes : Nat → List Addr) : Prop where
  exclusive : Exclusive (s.hold nodes)
  made : ∀ owner n, .node n ∈ s.hold nodes owner → n < s.made

namespace Owned

/-- Messages, links and histories do not matter to the ownership. -/
theorem congr {s' : Machine Msg} (h : Owned s nodes) (hpool : s'.envelopePool = s.envelopePool)
    (hthread : s'.thread = s.thread) (hactor : s'.actor = s.actor) (hmade : s'.made = s.made) :
    Owned s' nodes := by
  have hhold : s'.hold nodes = s.hold nodes := by
    funext owner
    cases owner <;> simp [hold, hpool, hthread, hactor]
  refine ⟨hhold ▸ h.exclusive, fun owner n hn => ?_⟩
  rw [hhold] at hn
  rw [hmade]
  exact h.made owner n hn

/-- A goroutine moves on without taking a node. -/
theorem setThread (h : Owned s nodes) {p : Nat} {t : Thread Msg}
    (ht : t.owned <+~ (s.thread p).owned) : Owned (s.setThread p t) nodes where
  exclusive := by
    rw [hold_setThread]
    exact h.exclusive.relinquish ht
  made owner n hn := by
    rw [hold_setThread] at hn
    rcases mem_update hn with hn | hn
    · exact h.made (.thread p) n (ht.subset hn)
    · exact h.made owner n hn

/-- An actor changes without taking a node. -/
theorem setActor (h : Owned s nodes) {a : Nat} {actor : Actor} {queue : List Addr}
    (hkept : actor.kept queue <+~ (s.actor a).kept (nodes a)) :
    Owned (s.setActor a actor) (Function.update nodes a queue) := by
  have hhold : (s.setActor a actor).hold (Function.update nodes a queue) =
      Function.update (s.hold nodes) (.actor a) (actor.kept queue) := by
    rw [hold_setActor, hold_update, Function.update_idem, Function.update_self]
  refine ⟨by rw [hhold]; exact h.exclusive.relinquish hkept, fun owner n hn => ?_⟩
  rw [hhold] at hn
  rcases mem_update hn with hn | hn
  · exact h.made (.actor a) n (hkept.subset hn)
  · exact h.made owner n hn

/-- An actor changes neither its head nor the node it recycles. -/
theorem setActor_same (h : Owned s nodes) {a : Nat} {actor : Actor}
    (hhead : actor.head = (s.actor a).head)
    (hloop : actor.loop.recycling = (s.actor a).loop.recycling) :
    Owned (s.setActor a actor) nodes := by
  have hkept : actor.kept (nodes a) <+~ (s.actor a).kept (nodes a) := by
    rw [Actor.kept, Actor.kept, hhead, hloop]
  simpa using h.setActor hkept

/-- A goroutine takes a node from the pool, or a new one. -/
theorem get (h : Owned s nodes) {p : Nat} {t : Thread Msg} {qnode : Addr}
    (hfree : (s.thread p).owned = []) (ht : t.owned = [qnode]) (hcan : s.canGet qnode = true) :
    Owned ((s.poolGet qnode).setThread p t) nodes := by
  have hhold : ((s.poolGet qnode).setThread p t).hold nodes =
      Function.update (Function.update (s.hold nodes) .pool (s.envelopePool.erase qnode))
        (.thread p) [qnode] := by
    rw [hold_setThread, poolGet, hold_setPool, ht]
  have hnone : s.hold nodes (.thread p) = [] := hfree
  have hpool {owner : Owner} {x : Addr}
      (hx : x ∈ Function.update (s.hold nodes) .pool (s.envelopePool.erase qnode) owner) :
      ∃ owner', x ∈ s.hold nodes owner' :=
    (mem_update hx).elim (fun hx => ⟨.pool, List.mem_of_mem_erase hx⟩) fun hx => ⟨owner, hx⟩
  rw [canGet, decide_eq_true_eq] at hcan
  refine ⟨?_, fun owner n hn => ?_⟩
  · rw [hhold]
    rcases hcan with hpooled | rfl
    · apply h.exclusive.move (p := .pool) hpooled (by simp) (List.Subperm.refl _)
      rw [hnone]
    · refine (h.exclusive.relinquish (p := .pool) List.erase_sublist.subperm).receive _
        (List.nodup_singleton _) ?_ (List.sublist_append_left _ _).subperm
      intro x hx owner hheld
      rw [List.mem_singleton] at hx
      subst hx
      obtain ⟨owner', hheld'⟩ := hpool hheld
      exact absurd (h.made owner' s.made hheld') (Nat.lt_irrefl _)
  · rw [hhold] at hn
    change n < if qnode = .node s.made then s.made + 1 else s.made
    rcases mem_update hn with hn | hn
    · rw [List.mem_singleton] at hn
      subst hn
      rcases hcan with hpooled | hnew
      · have := h.made .pool n hpooled
        split <;> omega
      · rw [if_pos hnew]
        cases hnew
        omega
    · obtain ⟨owner', hn'⟩ := hpool hn
      have := h.made owner' n hn'
      split <;> omega

/-- A node goes back to the pool. -/
theorem put (h : Owned s nodes) (owner : Owner) (qnode : Addr) (rest : List Addr)
    (howner : owner ≠ .pool) (hheld : s.hold nodes owner = qnode :: rest) {s' : Machine Msg}
    (hhold : s'.hold nodes =
      Function.update (Function.update (s.hold nodes) owner rest) .pool
        (qnode :: s.envelopePool)) (hmade : s'.made = s.made) :
    Owned s' nodes := by
  refine ⟨?_, fun owner' n hn => ?_⟩
  · rw [hhold]
    refine h.exclusive.move (x := qnode) (by rw [hheld]; exact List.mem_cons_self) howner ?_
      (List.Subperm.refl _)
    rw [hheld, List.erase_cons_head]
  · rw [hhold] at hn
    rw [hmade]
    rcases mem_update hn with hn | hn
    · rcases List.mem_cons.mp hn with rfl | hn
      · exact h.made owner n (by rw [hheld]; exact List.mem_cons_self)
      · exact h.made .pool n hn
    · rcases mem_update hn with hn | hn
      · exact h.made owner n (by rw [hheld]; exact List.mem_cons_of_mem _ hn)
      · exact h.made owner' n hn

/-- A goroutine appends its node to a queue. -/
theorem swap (h : Owned s nodes) {p a : Nat} {t : Thread Msg} {actor : Actor} {qnode : Addr}
    (howned : (s.thread p).owned = [qnode]) (ht : t.owned = [])
    (hloop : actor.loop = (s.actor a).loop) (hhead : actor.head = (s.actor a).head) :
    Owned ((s.setActor a actor).setThread p t) (Function.update nodes a (nodes a ++ [qnode])) := by
  have hkept : actor.kept (nodes a ++ [qnode]) <+~ qnode :: (s.actor a).kept (nodes a) := by
    unfold Actor.kept
    rw [hloop, hhead, ← List.cons_append, ← List.append_assoc]
    exact (List.perm_append_singleton _ _).subperm
  have hhold : ((s.setActor a actor).setThread p t).hold
        (Function.update nodes a (nodes a ++ [qnode])) =
      Function.update (Function.update (s.hold nodes) (.thread p) [])
        (.actor a) (actor.kept (nodes a ++ [qnode])) := by
    rw [hold_setThread, hold_setActor, hold_update, Function.update_idem, Function.update_self, ht,
      Function.update_comm (by simp)]
  refine ⟨?_, fun owner n hn => ?_⟩
  · rw [hhold]
    have hheld : s.hold nodes (.thread p) = [qnode] := howned
    refine h.exclusive.move (x := qnode) (by rw [hheld]; exact List.mem_cons_self) (by simp)
      ?_ hkept
    exact List.nil_subperm
  · rw [hhold] at hn
    rcases mem_update hn with hn | hn
    · rcases List.mem_cons.mp (hkept.subset hn) with rfl | hn
      · exact h.made (.thread p) n (by
          change _ ∈ (s.thread p).owned
          rw [howned]
          exact List.mem_cons_self)
      · exact h.made (.actor a) n hn
    · rcases mem_update hn with hn | hn
      · cases hn
      · exact h.made owner n hn

/-- A node that a goroutine has taken is in no queue. -/
theorem thread_apart (h : Owned s nodes) {p : Nat} {qnode : Addr}
    (hp : qnode ∈ (s.thread p).owned) (b : Nat) : qnode ∉ (s.actor b).head :: nodes b := by
  intro hmem
  cases h.exclusive.unique (.thread p) (.actor b) qnode hp (List.mem_append_right _ hmem)

/-- Neither is an old head that is being recycled. -/
theorem recycling_apart (h : Owned s nodes) {a : Nat} {old : Addr}
    (ha : old ∈ (s.actor a).loop.recycling) (b : Nat) : old ∉ (s.actor b).head :: nodes b := by
  intro hmem
  have hb : .actor a = Owner.actor b :=
    h.exclusive.unique _ _ old (List.mem_append_left _ ha) (List.mem_append_right _ hmem)
  cases hb
  exact List.disjoint_of_nodup_append (h.exclusive.nodup (.actor a)) ha hmem

/-- The head is no longer part of the queue. -/
theorem head_apart (h : Owned s nodes) (a b : Nat) : (s.actor a).head ∉ nodes b := by
  intro hmem
  have hb : .actor a = Owner.actor b :=
    h.exclusive.unique _ _ _ (List.mem_append_right _ List.mem_cons_self)
      (List.mem_append_right _ (List.mem_cons_of_mem _ hmem))
  cases hb
  have hnodup := (h.exclusive.nodup (.actor a)).sublist (List.sublist_append_right _ _)
  exact (List.nodup_cons.mp hnodup).1 hmem

/-- No two actors share a head. -/
theorem head_inj (h : Owned s nodes) {a b : Nat} (hab : (s.actor a).head = (s.actor b).head) :
    a = b := by
  have hb : Owner.actor a = .actor b :=
    h.exclusive.unique _ _ (s.actor a).head (List.mem_append_right _ List.mem_cons_self)
      (List.mem_append_right _ (hab ▸ List.mem_cons_self))
  exact Owner.actor.inj hb

/-- The head advances, and the old head is kept until it is recycled. -/
theorem advance (h : Owned s nodes) {a : Nat} {next : Addr} {rest : List Addr}
    (hidle : (s.actor a).loop.recycling = []) (hfront : nodes a = next :: rest) {actor : Actor}
    (hhead : actor.head = next) (hloop : actor.loop.recycling = [(s.actor a).head]) :
    Owned (s.setActor a actor) (Function.update nodes a (nodes a).tail) := by
  apply h.setActor
  rw [Actor.kept, Actor.kept, hhead, hloop, hidle, hfront]
  exact List.Subperm.refl _

variable [DecidableEq Msg]

/-- Every step keeps the ownership exclusive. -/
theorem step (h : Owned s nodes) {action : Action Msg} (henabled : s.enabled action = true)
    (hstart : ∀ a, (s.actor a).status = .init → (s.actor a).loop = .unstarted)
    (hfront : ∀ a next, ((s.actor a).loop = .advance next ∨ (s.actor a).loop = .drain next) →
      ∃ rest, nodes a = next :: rest) :
    Owned (s.apply action) (nodesAfter nodes action) := by
  have hwrite (addr : Addr) (env : Envelope Msg) : Owned (s.setEnvelope addr env) nodes :=
    h.congr rfl rfl rfl rfl
  have hpending (delta : UInt64) : Owned (s.addPending delta) nodes := h.congr rfl rfl rfl rfl
  have hsame {p : Nat} {t t' : Thread Msg} (hp : s.thread p = t) (ht : t'.owned = t.owned) :
      t'.owned <+~ (s.thread p).owned := by
    rw [hp, ht]
  cases action with
  | send p a msg =>
      apply h.setThread
      split <;> exact List.nil_subperm
  | get p a msg qnode =>
      obtain ⟨hp, hcan⟩ : s.thread p = .get a msg ∧ s.canGet qnode = true := by
        simpa [enabled] using henabled
      exact h.get (by rw [hp]; rfl) rfl hcan
  | fill p a msg qnode =>
      have hp : s.thread p = .fill a msg qnode := by simpa [enabled] using henabled
      exact (hwrite _ _).setThread (hsame hp rfl)
  | reset p a qnode =>
      have hp : s.thread p = .reset a qnode := by simpa [enabled] using henabled
      exact (hwrite _ _).setThread (hsame hp rfl)
  | count p a qnode =>
      have hp : s.thread p = .count a qnode := by simpa [enabled] using henabled
      exact (hpending _).setThread (hsame hp rfl)
  | swap p a qnode =>
      have hp : s.thread p = .swap a qnode := by simpa [enabled] using henabled
      have h' : Owned { s with
          swaps := Function.update s.swaps a (s.swaps a ++ [(s.heap qnode).msg]) } nodes :=
        h.congr rfl rfl rfl rfl
      exact h'.swap (show (s.thread p).owned = [qnode] by rw [hp]; rfl) rfl rfl rfl
  | link p a qnode prev ticket =>
      exact (hwrite _ _).setThread List.nil_subperm
  | signal p a ticket =>
      have h' : Owned { s with
          returned := Function.update s.returned a (s.returned a ++ [ticket]) } nodes :=
        h.congr rfl rfl rfl rfl
      refine (h'.setActor_same ?_ ?_).setThread List.nil_subperm <;> rfl
  | getEnvelope p env =>
      obtain ⟨hp, hcan⟩ : s.thread p = .idle ∧ s.canGet env = true := by
        simpa [enabled] using henabled
      exact h.get (by rw [hp]; rfl) rfl hcan
  | setMsg p env msg => exact hwrite _ _
  | sendEnvelope p a env =>
      have hp : s.thread p = .holding env := by simpa [enabled] using henabled
      apply h.setThread
      split <;> exact hsame hp rfl
  | putEnvelope p env =>
      have hp : s.thread p = .holding env := by simpa [enabled] using henabled
      exact (hwrite _ _).setThread (hsame hp rfl)
  | putClearNext p env =>
      have hp : s.thread p = .clearNext env := by simpa [enabled] using henabled
      exact (hwrite _ _).setThread (hsame hp rfl)
  | poolPut p env =>
      have hp : s.thread p = .put env := by simpa [enabled] using henabled
      refine h.put (.thread p) env [] (by simp) ?_ ?_ rfl
      · change (s.thread p).owned = [env]
        rw [hp]
        rfl
      · simp only [apply, Machine.poolPut]
        rw [hold_setThread, hold_setPool, Function.update_comm (by simp)]
        rfl
  | callStop p a => exact h.setThread List.nil_subperm
  | stop p a =>
      apply h.setThread
      split <;> exact List.nil_subperm
  | compareAndSwap p a st =>
      refine (h.setActor_same ?_ ?_).setThread ?_
      · rfl
      · rfl
      · split <;> exact List.nil_subperm
  | stopSignal p a =>
      refine (h.setActor_same ?_ ?_).setThread List.nil_subperm <;> rfl
  | start a =>
      have ha : (s.actor a).status = .init := by simpa [enabled] using henabled
      exact h.setActor_same rfl (by rw [hstart a ha]; rfl)
  | peek a =>
      have ha : (s.actor a).loop = .dequeue := by simpa [enabled] using henabled
      refine h.setActor_same rfl ?_
      rw [ha]
      cases (s.heap (s.actor a).head).next <;> rfl
  | advance a next =>
      have ha : (s.actor a).loop = .advance next := by simpa [enabled] using henabled
      obtain ⟨rest, hrest⟩ := hfront a next (Or.inl ha)
      refine h.advance (by rw [ha]; rfl) hrest ?_ ?_ <;> rfl
  | recycle a stage old qnode =>
      have ha : (s.actor a).loop = .recycle stage old qnode := by simpa [enabled] using henabled
      have hrecycling : (s.actor a).loop.recycling = [old] := by rw [ha]; rfl
      cases stage with
      | count =>
          refine (hpending _).setActor_same rfl ?_
          exact hrecycling.symm
      | clearMsg | clearNext =>
          refine (hwrite _ _).setActor_same rfl ?_
          exact hrecycling.symm
      | put =>
          refine h.put (.actor a) old ((s.actor a).head :: nodes a) (by simp) ?_ ?_ rfl
          · change (s.actor a).kept (nodes a) = _
            rw [Actor.kept, hrecycling]
            rfl
          · simp only [apply, Machine.recycle, Machine.poolPut, setLoop]
            rw [hold_setActor, hold_setPool, Function.update_comm (by simp)]
            cases qnode <;> rfl
  | handle a qnode =>
      have ha : (s.actor a).loop = .handle qnode := by simpa [enabled] using henabled
      have h' : Owned (s.setLoop a (.release qnode)) nodes :=
        h.setActor_same rfl (by rw [ha]; rfl)
      exact h'.congr rfl rfl rfl rfl
  | release a qnode =>
      have ha : (s.actor a).loop = .release qnode := by simpa [enabled] using henabled
      exact (hwrite _ _).setActor_same rfl (show _ = (s.actor a).loop.recycling by rw [ha]; rfl)
  | checkStatus a =>
      have ha : (s.actor a).loop = .missed := by simpa [enabled] using henabled
      refine h.setActor_same rfl ?_
      rw [ha]
      split <;> rfl
  | exit a =>
      have ha : (s.actor a).loop = .exit := by simpa [enabled] using henabled
      exact h.setActor_same rfl (by rw [ha]; rfl)
  | wake a =>
      obtain ⟨ha, _⟩ : (s.actor a).loop = .waiting ∧ (s.actor a).wake = true := by
        simpa [enabled] using henabled
      exact h.setActor_same rfl (by rw [ha]; rfl)
  | cancel a =>
      have ha : (s.actor a).loop = .waiting := by simpa [enabled] using henabled
      exact h.setActor_same rfl (by rw [ha]; rfl)
  | drainPeek a =>
      have ha : (s.actor a).loop = .dead := by simpa [enabled] using henabled
      refine h.setActor_same rfl ?_
      rw [ha]
      cases (s.heap (s.actor a).head).next <;> rfl
  | drain a next =>
      have ha : (s.actor a).loop = .drain next := by simpa [enabled] using henabled
      obtain ⟨rest, hrest⟩ := hfront a next (Or.inr ha)
      refine Owned.congr ((hwrite next { s.heap next with msg := none }).advance
        (show (s.actor a).loop.recycling = [] by rw [ha]; rfl) hrest ?_ ?_) rfl rfl rfl rfl <;> rfl
  | poolDrop env =>
      have hhold : (s.apply (.poolDrop env)).hold nodes =
          Function.update (s.hold nodes) .pool (s.envelopePool.erase env) :=
        hold_setPool s nodes _ _
      refine ⟨?_, fun owner n hn => ?_⟩
      · change Exclusive ((s.apply (.poolDrop env)).hold nodes)
        rw [hhold]
        exact h.exclusive.relinquish (p := .pool) List.erase_sublist.subperm
      · change .node n ∈ (s.apply (.poolDrop env)).hold nodes owner at hn
        rw [hhold] at hn
        rcases mem_update hn with hn | hn
        · exact h.made .pool n (List.mem_of_mem_erase hn)
        · exact h.made owner n hn

end Owned

end Machine

end ActorCluster.Runtime
