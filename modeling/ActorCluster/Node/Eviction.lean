import ActorCluster.Node.Keepers
import ActorCluster.Node.Registration
import Mathlib.Data.Finset.Card

/-! # Evicted actors

`Stop` does not interrupt the loop of an actor: an actor that is told to stop
executes whatever it can dequeue before it finds its mailbox empty. How much it
may still execute is bounded by what is queued, in its hands, or admitted when
it is told to stop. If its loop has found the mailbox empty before that, it
executes nothing more, and what is queued is left to the drain.
-/

namespace ActorCluster.Node

open Remote Wallet Transition Custody ActorCluster.Runtime
open scoped List

/-- The loop leaves without another `dequeue` if it is told to stop. -/
def Loop.leaving : Loop → Bool
  | .missed | .exit | .dead => true
  | _ => false

/-- The actor that `Send` has found accepting, before the tail swap. -/
def Thread.admitted : Thread → Option Nat
  | .serving _ (.count a) | .serving _ (.swap a) => some a
  | _ => none

/-- The envelopes that the actor has, executed or not. -/
def LocalActor.load (actor : LocalActor) : Nat :=
  actor.mailbox.queue.length + actor.loop.request.toList.length + actor.executed.length

/-- The actor has been told to stop. -/
def LocalActor.Refuses (actor : LocalActor) : Prop := actor.mailbox.status.accepts = false

/-- What an actor executed and wrote since an earlier state. -/
structure LocalActor.Since (before after : LocalActor) (envs : List RemoteEnvelope)
    (rows : List EventRow) : Prop where
  executed : after.executed = before.executed ++ envs
  written : after.written = before.written ++ rows
  le : rows.length ≤ envs.length

theorem LocalActor.refuses_stop (actor : LocalActor) : actor.stop.Refuses := by
  unfold LocalActor.stop
  split
  next => rfl
  next h => exact Bool.eq_false_iff.mpr h

/-- `Stop` changes nothing but the status. -/
theorem LocalActor.stop_frame (actor : LocalActor) :
    actor.stop.loop = actor.loop ∧ actor.stop.mailbox.queue = actor.mailbox.queue ∧
      actor.stop.executed = actor.executed ∧ actor.stop.written = actor.written := by
  unfold LocalActor.stop
  split <;> exact ⟨rfl, rfl, rfl, rfl⟩

/-- An actor that was told to stop and has not ended is stopping. -/
theorem LocalActor.Lawful.stopping {actor : LocalActor} (h : actor.Lawful)
    (hrefuses : actor.Refuses) (hloop : actor.loop ≠ .dead) :
    actor.mailbox.status = .stopping := by
  by_contra hne
  have haccepts := Status.accepts_iff.mpr ⟨hne, fun hdead => hloop (h.ended.mp hdead)⟩
  rw [show actor.mailbox.status.accepts = false from hrefuses] at haccepts
  cases haccepts

namespace ActorMove

variable {n : NodeState} {db : Database} {action : Action} {a : Nat} {actor : LocalActor}

/-- An actor that was told to stop stays so. -/
theorem refuses (h : ActorMove n db action a actor) (ha : a < n.started)
    (hrefuses : (n.actor a).Refuses) : actor.Refuses := by
  cases h with
  | install => omega
  | stop => exact LocalActor.refuses_stop _
  | dequeue =>
      unfold LocalActor.dequeue
      split <;> exact hrefuses
  | execute =>
      rw [NodeState.execute, NodeState.setActor_actor_self]
      exact hrefuses
  | exit => rfl
  | stay | signal | swap | link | collect | uncount | handle | emit | deliver | checkStatus
  | wakeUp => exact hrefuses

/-- Only a tail swap gives an actor more to execute. -/
theorem load_le (h : ActorMove n db action a actor) (ha : a < n.started)
    (hswap : ∀ p call, action ≠ .swap p call a) : actor.load ≤ (n.actor a).load := by
  cases h with
  | install => omega
  | stay => exact Nat.le_refl _
  | stop =>
      unfold LocalActor.stop
      split <;> exact Nat.le_refl _
  | signal => exact Nat.le_refl _
  | swap p call haction => exact absurd haction (hswap p call)
  | link p => exact Nat.le_of_eq (by simp [LocalActor.load, Mailbox.link, linkEntry])
  | collect =>
      simp only [LocalActor.load, Mailbox.pop, List.length_tail]
      omega
  | dequeue hloop =>
      unfold LocalActor.dequeue
      split
      next env hfront =>
        obtain ⟨rest, hqueue⟩ := Mailbox.front_eq_some_iff.mp hfront
        simp [LocalActor.load, Mailbox.pop, hqueue, hloop, Loop.request]
      next => simp [LocalActor.load, hloop, Loop.request]
  | uncount env hloop | handle env now hloop => simp [LocalActor.load, hloop, Loop.request]
  | execute env now outcome _ hloop =>
      rw [NodeState.execute, NodeState.setActor_actor_self]
      simp [LocalActor.load, hloop, Loop.request]
      omega
  | emit res hloop =>
      cases n.replyRoutes (resultKey res) <;> simp [LocalActor.load, hloop, Loop.request]
  | checkStatus hloop =>
      dsimp only [LocalActor.load]
      split <;> simp [hloop, Loop.request]
  | deliver queued hloop | wakeUp hloop | exit hloop => simp [LocalActor.load, hloop, Loop.request]

/-- One move executes at most one envelope, and writes only then. -/
theorem since (h : ActorMove n db action a actor) (ha : a < n.started) :
    ∃ envs rows, (n.actor a).Since actor envs rows := by
  have hsame {actor' : LocalActor} (hexecuted : actor'.executed = (n.actor a).executed)
      (hwritten : actor'.written = (n.actor a).written) :
      ∃ envs rows, (n.actor a).Since actor' envs rows :=
    ⟨[], [], by rw [hexecuted, List.append_nil], by rw [hwritten, List.append_nil], Nat.le_refl _⟩
  cases h with
  | install => omega
  | stop =>
      unfold LocalActor.stop
      split <;> exact hsame rfl rfl
  | dequeue =>
      unfold LocalActor.dequeue
      split <;> exact hsame rfl rfl
  | execute env now outcome =>
      rw [NodeState.execute, NodeState.setActor_actor_self]
      refine ⟨[env], _, rfl, rfl, ?_⟩
      split <;> simp
  | stay | signal | swap | link | collect | uncount | handle | emit | deliver | checkStatus
  | wakeUp | exit => exact hsame rfl rfl

/-- An actor that leaves executes nothing more. -/
theorem leaving (h : ActorMove n db action a actor) (ha : a < n.started)
    (hlawful : (n.actor a).Lawful) (hrefuses : (n.actor a).Refuses)
    (hleaving : (n.actor a).loop.leaving = true) :
    actor.loop.leaving = true ∧ actor.executed = (n.actor a).executed := by
  have hbusy {loop : Loop} (hloop : (n.actor a).loop = loop) (hne : loop.leaving = false) :
      actor.loop.leaving = true ∧ actor.executed = (n.actor a).executed := by
    rw [hloop, hne] at hleaving
    cases hleaving
  cases h with
  | install => omega
  | stop =>
      unfold LocalActor.stop
      split <;> exact ⟨hleaving, rfl⟩
  | stay | signal | swap | link | collect => exact ⟨hleaving, rfl⟩
  | dequeue hloop => exact hbusy hloop rfl
  | uncount env hloop | handle env now hloop | emit res hloop | deliver queued hloop =>
      exact hbusy hloop rfl
  | execute env now outcome _ hloop => exact hbusy hloop rfl
  | wakeUp hloop => exact hbusy hloop rfl
  | checkStatus hloop =>
      have hstopping := hlawful.stopping hrefuses (by rw [hloop]; nofun)
      refine ⟨?_, rfl⟩
      simp only [hstopping, if_true]
      rfl
  | exit => exact ⟨rfl, rfl⟩

/-- What is ready in the mailbox of an actor that leaves is taken by a drain. -/
theorem ready (h : ActorMove n db action a actor) (ha : a < n.started)
    (hleaving : (n.actor a).loop.leaving = true) {env : RemoteEnvelope}
    (henv : env ∈ (n.actor a).mailbox.ready) :
    env ∈ actor.mailbox.ready ∨
      ∃ d envs, action = .collect d a envs ∧ (n.actor a).mailbox.front = some env := by
  cases h with
  | install => omega
  | stop =>
      unfold LocalActor.stop
      split <;> exact Or.inl henv
  | swap p call => exact Or.inl (Mailbox.ready_subset_swap _ p call.env henv)
  | link p => exact Or.inl (Mailbox.ready_subset_link _ p henv)
  | collect d envs env' haction hfront =>
      rw [Mailbox.ready_of_front hfront] at henv
      rcases List.mem_cons.mp henv with rfl | henv
      · exact Or.inr ⟨d, envs, haction, hfront⟩
      · exact Or.inl henv
  | dequeue hloop =>
      rw [hloop] at hleaving
      cases hleaving
  | execute env now outcome _ hloop =>
      rw [hloop] at hleaving
      cases hleaving
  | stay | signal | uncount | handle | emit | deliver | checkStatus | wakeUp | exit =>
      exact Or.inl henv

end ActorMove

/-- An actor that was told to stop admits no more calls. -/
theorem ThreadMove.admitted_back {n : NodeState} {db : Database} {action : Action} {p : Nat}
    {t : Thread} (h : ThreadMove n db action p t) {a : Nat} (hrefuses : (n.actor a).Refuses)
    (ha : t.admitted = some a) : (n.thread p).admitted = some a := by
  cases h with
  | stay => exact ha
  | go call pc pc' hp hmove =>
      cases hmove with
      | accept b haccepts =>
          cases ha
          rw [show (n.actor a).mailbox.status.accepts = false from hrefuses] at haccepts
          cases haccepts
      | count =>
          rw [hp]
          exact ha
      | _ => cases ha
  | _ => cases ha

namespace NodeState

section Budget

variable {cfg : Config} {n : NodeState} {db : Database} {action : Action}

/-- The envelopes of an actor and the calls that it has admitted. -/
def Budget (n : NodeState) (a bound : Nat) : Prop :=
  ∃ callers : Finset Nat, (∀ p, (n.thread p).admitted = some a → p ∈ callers) ∧
    callers.card + (n.actor a).load ≤ bound

/-- The budget of an actor that was told to stop does not grow. -/
theorem Budget.step {a bound : Nat} (h : n.Budget a bound) (ha : a < n.started)
    (hrefuses : (n.actor a).Refuses) (henabled : n.enabled cfg action = true) :
    (n.apply cfg db action).Budget a bound := by
  obtain ⟨callers, hcallers, hbound⟩ := h
  by_cases hswap : ∃ p call, action = .swap p call a
  · obtain ⟨p, call, rfl⟩ := hswap
    have hp : n.thread p = .serving call (.swap a) := by simpa [enabled] using henabled
    have hmem : p ∈ callers := hcallers p (by rw [hp]; rfl)
    refine ⟨callers.erase p, fun r hr => ?_, ?_⟩
    · refine Finset.mem_erase.mpr
        ⟨?_, hcallers r ((threadMove_apply henabled r).admitted_back hrefuses hr)⟩
      rintro rfl
      rw [show (n.apply cfg db (.swap r call a)).thread r = _ from
        setThread_thread_self _ _ _] at hr
      cases hr
    · have hload : ((n.apply cfg db (.swap p call a)).actor a).load = (n.actor a).load + 1 := by
        rw [show (n.apply cfg db (.swap p call a)).actor a = _ from setActor_actor_self n a _]
        simp only [LocalActor.load, Mailbox.swap, List.length_append, List.length_singleton]
        omega
      have hcard := Finset.card_erase_add_one hmem
      omega
  · have hmove : ActorMove n db action a ((n.apply cfg db action).actor a) :=
      actorMove_apply henabled a
    have hload := hmove.load_le ha fun p call haction => hswap ⟨p, call, haction⟩
    refine ⟨callers, fun r hr => hcallers r ?_, (Nat.add_le_add_left hload _).trans hbound⟩
    exact (threadMove_apply henabled r).admitted_back hrefuses hr

end Budget

end NodeState

/-- The drain may still take envelopes from the mailbox. -/
def Drain.collecting : Drain → Bool
  | .await _ | .collect _ _ | .uncount _ _ => true
  | _ => false

namespace NodeState

/-- Somebody has yet to empty the mailbox of the actor. -/
def Emptied (n : NodeState) (a : Nat) : Prop :=
  (∃ p, (n.thread p).evicts = some a) ∨
    ∃ d, (n.drain d).target = some a ∧ (n.drain d).collecting = true

/-- Where an envelope is that an evicted actor did not execute. -/
inductive Evictee (n : NodeState) (a : Nat) (env : RemoteEnvelope) : Prop
  | queued (hready : env ∈ (n.actor a).mailbox.ready) (hemptied : n.Emptied a)
  | held (d : Nat) (hd : (n.drain d).target = some a) (henv : env ∈ (n.drain d).held)
  | pushing (d : Nat) (reply : BatchSender) (envs : List RemoteEnvelope)
      (hd : n.drain d = .push a env reply envs)
  | answered (reply : BatchSender) (hmatches : n.Matches (routeKey env) reply)
      (hput : ⟨evictedResult env, reply⟩ ∈ n.put)

end NodeState

namespace DrainMove

variable {n : NodeState} {action : Action} {d : Nat} {drain : Drain}

/-- A drain collects until it finds the mailbox empty. -/
theorem collecting (h : DrainMove n action d drain) (hn : n.Kept) {a : Nat}
    (ha : (n.drain d).target = some a) (hcollecting : (n.drain d).collecting = true) :
    (drain.target = some a ∧ drain.collecting = true) ∨ (n.actor a).mailbox.front = none := by
  cases h with
  | stay => exact Or.inl ⟨ha, hcollecting⟩
  | spawn p call b _ _ hfresh =>
      rw [hn.unused d (Nat.le_of_eq hfresh.symm)] at ha
      cases ha
  | await b hd | uncount b envs hd =>
      rw [hd] at ha
      exact Or.inl ⟨ha, rfl⟩
  | collect b envs env _ hd =>
      rw [hd] at ha
      exact Or.inl ⟨ha, rfl⟩
  | collected b envs hd hfront =>
      rw [hd] at ha
      cases ha
      exact Or.inr hfront
  | answer b env envs hd | finish b hd =>
      rw [hd] at hcollecting
      cases hcollecting
  | push b env reply envs _ hd =>
      rw [hd] at hcollecting
      cases hcollecting

/-- A drain looks up every envelope that it holds. -/
theorem held (h : DrainMove n action d drain) (hn : n.Kept) {a : Nat}
    (ha : (n.drain d).target = some a) {env : RemoteEnvelope} (henv : env ∈ (n.drain d).held)
    (hroute : (n.replyRoutes (routeKey env)).isSome) :
    (drain.target = some a ∧ env ∈ drain.held) ∨ ∃ reply envs, drain = .push a env reply envs := by
  cases h with
  | stay => exact Or.inl ⟨ha, henv⟩
  | spawn p call b _ _ hfresh =>
      rw [hn.unused d (Nat.le_of_eq hfresh.symm)] at ha
      cases ha
  | await b hd | finish b hd =>
      rw [hd] at henv
      cases henv
  | collect b envs env' _ hd =>
      rw [hd] at ha henv
      exact Or.inl ⟨ha, List.mem_append_left _ henv⟩
  | collected b envs hd | uncount b envs hd | push b env' reply envs _ hd =>
      rw [hd] at ha henv
      exact Or.inl ⟨ha, henv⟩
  | answer b env' envs hd =>
      rw [hd] at ha henv
      cases ha
      rcases List.mem_cons.mp henv with rfl | henv
      · obtain ⟨reply, hreply⟩ := Option.isSome_iff_exists.mp hroute
        rw [hreply]
        exact Or.inr ⟨reply, envs, rfl⟩
      · cases n.replyRoutes (routeKey env') <;> exact Or.inl ⟨rfl, henv⟩

end DrainMove

namespace NodeState

section Evictee

variable {cfg : Config} {n : NodeState} {db : Database} {action : Action} {a : Nat}

/-- The mailbox of an evicted actor stays in somebody's care until it is empty. -/
theorem Emptied.step (h : n.Emptied a) (hn : n.Kept) (henabled : n.enabled cfg action = true) :
    (n.apply cfg db action).Emptied a ∨ (n.actor a).mailbox.front = none := by
  rcases h with ⟨p, hp⟩ | ⟨d, hd, hcollecting⟩
  · have hmove : ThreadMove n db action p ((n.apply cfg db action).thread p) :=
      threadMove_apply henabled p
    rcases hmove.evicts hp with hp | ⟨call, rfl⟩
    · exact Or.inl (Or.inl ⟨p, hp⟩)
    · have hawait : (n.apply cfg db (.spawn p call a)).drain n.drains = .await a :=
        Function.update_self _ _ _
      exact Or.inl (Or.inr ⟨n.drains, by rw [hawait]; rfl, by rw [hawait]; rfl⟩)
  · have hmove : DrainMove n action d ((n.apply cfg db action).drain d) :=
      drainMove_apply henabled d
    exact (hmove.collecting hn hd hcollecting).imp_left fun hd => Or.inr ⟨d, hd⟩

theorem put_mono (cfg : Config) (n : NodeState) (db : Database) (action : Action) :
    n.put ⊆ (n.apply cfg db action).put := by
  cases action with
  | loadSnapshot | loadEvents =>
      simp only [apply]
      split <;> exact List.Subset.refl _
  | reject | push | drainPush | deliver => exact List.subset_append_left _ _
  | _ => exact List.Subset.refl _

/-- The routes that the drains need are there. -/
theorem Registered.held (h : n.Registered) {d : Nat} {env : RemoteEnvelope}
    (henv : env ∈ (n.drain d).held) : (n.replyRoutes (routeKey env)).isSome := by
  refine h _ (.drain d ?_)
  cases hd : n.drain d with
  | collect | uncount | answer | push =>
      rw [hd] at henv
      exact List.mem_map_of_mem henv
  | unused | await | finished =>
      rw [hd] at henv
      cases henv

/-- An envelope that an evicted actor did not execute is not lost. -/
theorem Evictee.step {env : RemoteEnvelope} (h : n.Evictee a env) (hn : n.Kept)
    (hregistered : n.Registered) (hrouted : n.Routed) (ha : a < n.started)
    (hleaving : (n.actor a).loop.leaving = true) (henabled : n.enabled cfg action = true) :
    (n.apply cfg db action).Evictee a env := by
  cases h with
  | queued hready hemptied =>
      have hfront : (n.actor a).mailbox.front ≠ none := by
        intro hfront
        rw [Mailbox.ready_of_front_none hfront] at hready
        cases hready
      have hmove : ActorMove n db action a ((n.apply cfg db action).actor a) :=
        actorMove_apply henabled a
      rcases hmove.ready ha hleaving hready with hready | ⟨d, envs, rfl, hfront⟩
      · exact .queued hready ((hemptied.step hn henabled).resolve_right hfront)
      · have hd : (n.apply cfg db (.collect d a envs)).drain d = .uncount a (envs ++ [env]) := by
          simp only [apply, hfront]
          exact Function.update_self _ _ _
        refine .held d (by rw [hd]; rfl) ?_
        rw [hd]
        exact List.mem_append_right _ List.mem_cons_self
  | held d hd henv =>
      have hmove : DrainMove n action d ((n.apply cfg db action).drain d) :=
        drainMove_apply henabled d
      rcases hmove.held hn hd henv (hregistered.held henv) with ⟨hd, henv⟩ | ⟨reply, envs, hd⟩
      · exact .held d hd henv
      · exact .pushing d reply envs hd
  | pushing d reply envs hd =>
      have hmatches : n.Matches (routeKey env) reply := hrouted _ _ (.drain d a env envs hd rfl)
      have hmove : DrainMove n action d ((n.apply cfg db action).drain d) :=
        drainMove_apply henabled d
      by_cases hpush : action = .drainPush d a env reply envs
      · subst hpush
        exact .answered reply hmatches.apply (List.mem_append_right _ List.mem_cons_self)
      · refine .pushing d reply envs ?_
        generalize (n.apply cfg db action).drain d = drain at hmove ⊢
        cases hmove with
        | stay => exact hd
        | spawn p call b _ _ hfresh =>
            rw [hn.unused d (Nat.le_of_eq hfresh.symm)] at hd
            cases hd
        | push b env' reply' envs' haction hd' =>
            cases hd'.symm.trans hd
            exact absurd haction hpush
        | collect b envs' env' _ hd' => cases hd'.symm.trans hd
        | await b hd' | collected b envs' hd' | uncount b envs' hd' | answer b env' envs' hd'
        | finish b hd' => cases hd'.symm.trans hd
  | answered reply hmatches hput =>
      exact .answered reply hmatches.apply (put_mono cfg n db action hput)

end Evictee

end NodeState

end ActorCluster.Node
