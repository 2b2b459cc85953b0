import ActorCluster.Node.DrainProgress
import ActorCluster.Node.SoleWriter

/-! # What an eviction stops

`forceKillLocalActor` relies on `Stop` to leave all but the current envelope to
the drain. That is so only if the loop has just found the mailbox empty, or if
there is nothing queued and at most one envelope under way; otherwise the
evicted actor executes its whole backlog first.
-/

namespace ActorCluster.Node

open Remote Wallet Transition Custody ActorCluster.Runtime

namespace NodeState

/-- What holds in every state of a run whose requests are unique. -/
structure Sound (n : NodeState) : Prop where
  served : n.Served
  registered : n.Registered
  kept : n.Kept

theorem Sound.step {cfg : Config} {n : NodeState} {db : Database} {action : Action} (h : n.Sound)
    (henabled : n.enabled cfg action = true) (hfresh : n.FreshRequests action) :
    (n.apply cfg db action).Sound where
  served := h.served.step henabled hfresh
  registered := h.registered.step h.served.accounted h.served.wellformed henabled hfresh
  kept := h.kept.step h.served.wellformed henabled

end NodeState

theorem sound_of_reachable {cfg : Config} {r : NodeRun}
    (hr : (node cfg).ReachableIf NodeRun.FreshRequests r) : r.node.Sound := by
  refine System.ReachableIf.invariant (P := fun r => r.node.Sound) ?_ ?_ hr
  · exact ⟨NodeState.served_newNode, NodeState.registered_newNode, NodeState.kept_newNode⟩
  · rintro r event t h hguard hstep
    obtain ⟨henabled, rfl⟩ := System.guarded_step_eq_some_iff.mp hstep
    cases event with
    | act action => exact h.step henabled hguard
    | land => exact h

namespace LocalActor.Since

variable {first second third : LocalActor} {envs envs' : List RemoteEnvelope}
  {rows rows' : List EventRow}

theorem trans (h : first.Since second envs rows) (h' : second.Since third envs' rows') :
    first.Since third (envs ++ envs') (rows ++ rows') where
  executed := by rw [h'.executed, h.executed, List.append_assoc]
  written := by rw [h'.written, h.written, List.append_assoc]
  le := by
    rw [List.length_append, List.length_append]
    exact Nat.add_le_add h.le h'.le

end LocalActor.Since

/-- An actor that was told to stop when it was in some earlier state. -/
structure NodeState.Stopped (before : LocalActor) (a : Nat) (n : NodeState) : Prop where
  sound : n.Sound
  started : a < n.started
  refuses : (n.actor a).Refuses
  since : ∃ envs rows, before.Since (n.actor a) envs rows

/-- An actor that executes nothing more, and the envelopes it left behind. -/
structure NodeState.Left (before : LocalActor) (a : Nat) (envs : List RemoteEnvelope)
    (n : NodeState) : Prop where
  stopped : n.Stopped before a
  leaving : (n.actor a).loop.leaving = true
  executed : (n.actor a).executed = before.executed
  evictees : ∀ env ∈ envs, n.Evictee a env

namespace NodeState

variable {cfg : Config} {n : NodeState} {db : Database} {action : Action} {before : LocalActor}
  {a : Nat}

theorem Stopped.step (h : n.Stopped before a) (henabled : n.enabled cfg action = true)
    (hfresh : n.FreshRequests action) : (n.apply cfg db action).Stopped before a := by
  have hmove : ActorMove n db action a ((n.apply cfg db action).actor a) :=
    actorMove_apply henabled a
  obtain ⟨envs, rows, hsince⟩ := h.since
  obtain ⟨envs', rows', hsince'⟩ := hmove.since h.started
  exact ⟨h.sound.step henabled hfresh,
    Nat.lt_of_lt_of_le h.started (started_le_apply cfg n db action),
    hmove.refuses h.started h.refuses, envs ++ envs', rows ++ rows', hsince.trans hsince'⟩

theorem Left.step {envs : List RemoteEnvelope} (h : n.Left before a envs)
    (henabled : n.enabled cfg action = true) (hfresh : n.FreshRequests action) :
    (n.apply cfg db action).Left before a envs := by
  have hmove : ActorMove n db action a ((n.apply cfg db action).actor a) :=
    actorMove_apply henabled a
  have hsound := h.stopped.sound
  obtain ⟨hleaving, hexecuted⟩ := hmove.leaving h.stopped.started
    (hsound.served.wellformed.lawful a) h.stopped.refuses h.leaving
  refine ⟨h.stopped.step henabled hfresh, hleaving, hexecuted.trans h.executed,
    fun env henv => ?_⟩
  exact (h.evictees env henv).step hsound.kept hsound.registered hsound.served.routed
    h.stopped.started h.leaving henabled

section Close

variable {p : Nat} {call : Call}

theorem close_actor (cfg : Config) (n : NodeState) (db : Database) (p : Nat) (call : Call)
    (a : Nat) : (n.apply cfg db (.close p call a)).actor a = (n.actor a).stop :=
  setActor_actor_self _ _ _

theorem Sound.close (h : n.Sound) (henabled : n.enabled cfg (.close p call a) = true) :
    (n.apply cfg db (.close p call a)).Stopped (n.actor a) a := by
  have hp : n.thread p = .serving call (.close a) := by simpa [enabled] using henabled
  obtain ⟨_, _, hexecuted, hwritten⟩ := (n.actor a).stop_frame
  refine ⟨h.step henabled trivial, (h.served.wellformed.targets p call _ a hp rfl).1, ?_,
    [], [], ?_, ?_, Nat.le_refl _⟩
  · rw [close_actor]
    exact (n.actor a).refuses_stop
  · rw [close_actor, hexecuted, List.append_nil]
  · rw [close_actor, hwritten, List.append_nil]

end Close

end NodeState

section Run

variable {cfg : Config} {s t : NodeRun} {before : LocalActor} {a : Nat}

end Run

/-- Two deposits are queued while the first one is in `Handle`, and a call for
another node has taken the actor out of the map. -/
def backlog : List Event :=
  firstArrival ++ [Event.act (.create 0 ⟨0, deposit "1" 1, []⟩ 0)] ++ firstDispatch ++
    arrival 1 (deposit "2" 2) "node-a" ++ [Event.act (.lookup 1 ⟨1, deposit "2" 2, []⟩)] ++
    dispatch 1 (deposit "2" 2) 0 ++
    arrival 2 (deposit "3" 3) "node-a" ++ [Event.act (.lookup 2 ⟨2, deposit "3" 3, []⟩)] ++
    dispatch 2 (deposit "3" 3) 0 ++
    arrival 3 (deposit "4" 4) "node-b" ++ [Event.act (.kill 3 ⟨3, deposit "4" 4, []⟩)]

end ActorCluster.Node
