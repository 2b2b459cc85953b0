import ActorCluster.Foundation.Tally
import ActorCluster.Runtime.Fifo

/-! # The mailbox gauge

`processMailboxPending` counts the envelopes of all mailboxes. A producer adds one
before it swaps its envelope in; `dequeue` and `Drain` subtract one after they have
moved the head. The gauge therefore has one for each producer between its count and
its swap, and one for each envelope that was swapped in and whose removal has not
been subtracted. In particular there is something to subtract wherever one is
subtracted.
-/

namespace ActorCluster.Runtime

open Transition Tally Function

variable {Msg : Type}

/-- The producer has counted its envelope and not swapped it in yet. -/
def Thread.counted : Thread Msg → Nat
  | .swap _ _ => 1
  | _ => 0

/-- The consumer has moved its head and not subtracted the envelope yet. -/
def Loop.uncounted : Loop → Nat
  | .recycle .count _ _ => 1
  | _ => 0

/-- The producer that counts its envelope. -/
def Action.counting : Action Msg → Option Nat
  | .count p _ _ => some p
  | _ => none

/-- The producer that swaps its envelope in. -/
def Action.swapping : Action Msg → Option Nat
  | .swap p _ _ => some p
  | _ => none

/-- The actor whose mailbox gets an envelope. -/
def Action.filling : Action Msg → Option Nat
  | .swap _ a _ => some a
  | _ => none

/-- The actor from whose mailbox an envelope has been removed, where it is subtracted. -/
def Action.subtracting : Action Msg → Option Nat
  | .recycle a .count _ _ => some a
  | _ => none

namespace Machine

/-- The envelopes that were swapped into a mailbox and not yet dequeued or drained: those
that are neither handled, drained nor in the hands of the loop, and the one that the
consumer has still to subtract. -/
def waiting (s : Machine Msg) (a : Nat) : Nat :=
  (s.swaps a).length -
      ((s.handled a).length + (s.drained a).length + (s.inHand a).length) +
    (s.actor a).loop.uncounted

/-- What the gauge should show: the envelopes of all mailboxes, and the producers
between their count and their swap. -/
noncomputable def outstanding (s : Machine Msg) : Nat :=
  ∑ᶠ a, s.waiting a + ∑ᶠ p, (s.thread p).counted

/-- The envelopes of a mailbox that the gauge still counts, given the queue. -/
def depth (s : Machine Msg) (queue : Nat → List (Entry (Option Msg))) (a : Nat) : Nat :=
  (queue a).length + (s.actor a).loop.uncounted

theorem Recorded.waiting_eq_depth {s : Machine Msg} {queue : Nat → List (Entry (Option Msg))}
    (h : Recorded s queue) : s.waiting = s.depth queue := by
  funext a
  have hlength := congrArg List.length (h.history a)
  simp only [List.length_append, List.length_map] at hlength
  unfold waiting depth
  omega

theorem counted_setThread {s : Machine Msg} {p : Nat} {t : Thread Msg} (t' : Thread Msg)
    (hp : s.thread p = t) {k k' : Nat} (hk : t.counted = k) (hk' : t'.counted = k') (r : Nat) :
    ((s.setThread p t').thread r).counted + k * mark (some p) r =
      (s.thread r).counted + k' * mark (some p) r := by
  by_cases hr : r = p
  · subst hr
    rw [setThread_thread_self, hp, hk, hk', mark_some_self]
    omega
  · rw [s.setThread_thread_of_ne t' hr, mark_some_of_ne hr]
    omega

theorem depth_addPending (s : Machine Msg) (delta : UInt64)
    (queue : Nat → List (Entry (Option Msg))) : (s.addPending delta).depth queue = s.depth queue :=
  rfl

theorem depth_setActor (s : Machine Msg) (queue : Nat → List (Entry (Option Msg))) {a : Nat}
    {actor : Actor} (entries : List (Entry (Option Msg))) {k k' : Nat}
    (h : entries.length + actor.loop.uncounted + k = s.depth queue a + k') (b : Nat) :
    (s.setActor a actor).depth (update queue a entries) b + k * mark (some a) b =
      s.depth queue b + k' * mark (some a) b := by
  by_cases hb : b = a
  · subst hb
    rw [depth, setActor_actor_self, update_self, mark_some_self]
    omega
  · rw [depth, s.setActor_actor_of_ne actor hb, update_of_ne hb, mark_some_of_ne hb]
    rfl

section Step

variable [DecidableEq Msg] {s : Machine Msg} {action : Action Msg}

omit [DecidableEq Msg] in
/-- What a step does to the gauge. -/
theorem pending_apply (s : Machine Msg) (action : Action Msg) :
    (s.apply action).processMailboxPending +
        UInt64.ofNat (action.subtracting.elim 0 fun _ => 1) =
      s.processMailboxPending + UInt64.ofNat (action.counting.elim 0 fun _ => 1) := by
  cases action with
  | count p a qnode => exact UInt64.add_zero _
  | recycle a stage old qnode =>
      cases stage with
      | count =>
          change s.processMailboxPending + -1 + 1 = s.processMailboxPending + 0
          rw [UInt64.add_assoc]
          rfl
      | clearMsg | clearNext | put => rfl
  | _ => rfl

/-- A producer is between its count and its swap from the one to the other. -/
theorem counted_apply (henabled : s.enabled action = true) (r : Nat) :
    ((s.apply action).thread r).counted + mark action.swapping r =
      (s.thread r).counted + mark action.counting r := by
  -- a goroutine that moves between two other positions
  have hmove {p : Nat} {t t' : Thread Msg} (hp : s.thread p = t) (ht : t.counted = 0)
      (ht' : t'.counted = 0) : ((s.setThread p t').thread r).counted = (s.thread r).counted := by
    simpa using counted_setThread t' hp ht ht' r
  cases action with
  | count p a qnode =>
      have hp : s.thread p = .count a qnode := by simpa [enabled] using henabled
      have hcounted := counted_setThread (.swap a qnode) hp (show _ = 0 from rfl)
        (show _ = 1 from rfl) r
      rw [Nat.zero_mul, Nat.one_mul] at hcounted
      exact hcounted
  | swap p a qnode =>
      have hp : s.thread p = .swap a qnode := by simpa [enabled] using henabled
      have hcounted := counted_setThread
        (.link a qnode (s.actor a).tail (s.swaps a).length) hp (show _ = 1 from rfl)
        (show _ = 0 from rfl) r
      rw [Nat.zero_mul, Nat.one_mul] at hcounted
      exact hcounted
  | get | getEnvelope =>
      have hp := of_decide_eq_true (Bool.and_eq_true_iff.mp henabled).1
      exact hmove hp rfl rfl
  | fill | reset | link | signal | putEnvelope | putClearNext | poolPut | callStop
  | stopSignal =>
      have hp := of_decide_eq_true henabled
      exact hmove hp rfl rfl
  -- what the goroutine reads decides where it goes on
  | send | sendEnvelope | stop | compareAndSwap =>
      have hp := of_decide_eq_true henabled
      refine hmove hp rfl ?_
      split <;> rfl
  | recycle a stage old qnode => cases stage <;> rfl
  | setMsg | start | peek | advance | handle | release | checkStatus | exit | wake | cancel
  | drainPeek | drain | poolDrop => rfl

/-- An envelope is in a mailbox from its swap to the subtraction of its removal. -/
theorem depth_apply {nodes : Nat → List Addr} {queue : Nat → List (Entry (Option Msg))}
    (hqueued : Queued s nodes queue) (henabled : s.enabled action = true) (b : Nat) :
    (s.apply action).depth (s.queueAfter queue action) b + mark action.subtracting b =
      s.depth queue b + mark action.filling b := by
  -- an actor whose loop has as much to subtract as before
  have hsame (a : Nat) (actor : Actor)
      (hloop : actor.loop.uncounted = (s.actor a).loop.uncounted) :
      (s.setActor a actor).depth queue b = s.depth queue b := by
    have hlength : (queue a).length + actor.loop.uncounted + 0 = s.depth queue a + 0 := by
      rw [hloop, depth]
    simpa using depth_setActor s queue (queue a) hlength b
  -- the consumer removes the envelope it has seen, and owes the subtraction
  have hremove {a : Nat} {actor : Actor} {next : Addr}
      (hseen : (s.actor a).loop.seen = some next) (hnone : (s.actor a).loop.uncounted = 0)
      (hloop : actor.loop.uncounted = 1) :
      (s.setActor a actor).depth (update queue a (queue a).tail) b = s.depth queue b := by
    obtain ⟨_, entry, entries, _, hqueue, _⟩ := hqueued.front (hqueued.ahead a next hseen)
    have hlength : (queue a).tail.length + actor.loop.uncounted + 0 = s.depth queue a + 0 := by
      rw [hloop, depth, hnone, hqueue]
      rfl
    simpa using depth_setActor s queue (queue a).tail hlength b
  cases action with
  | swap p a qnode =>
      let actor : Actor := { s.actor a with tail := qnode }
      let entries := queue a ++ [⟨(s.heap qnode).msg, some p⟩]
      have hlength : entries.length + actor.loop.uncounted + 0 = s.depth queue a + 1 := by
        rw [List.length_append, depth]
        exact Nat.add_right_comm _ 1 _
      have hdepth := depth_setActor s queue entries hlength b
      rw [Nat.zero_mul, Nat.one_mul] at hdepth
      exact hdepth
  | link p a qnode prev ticket =>
      have hlength : (linkEntry p (queue a)).length + (s.actor a).loop.uncounted + 0 =
          s.depth queue a + 0 := by
        rw [linkEntry, List.length_map, depth]
      have hdepth := depth_setActor s queue (linkEntry p (queue a)) hlength b
      rw [setActor, update_eq_self, Nat.zero_mul] at hdepth
      exact hdepth
  | advance a next =>
      have ha : (s.actor a).loop = .advance next := by simpa [enabled] using henabled
      exact hremove (by rw [ha]; rfl) (by rw [ha]; rfl) rfl
  | drain a next =>
      have ha : (s.actor a).loop = .drain next := by simpa [enabled] using henabled
      exact hremove (by rw [ha]; rfl) (by rw [ha]; rfl) rfl
  | recycle a stage old qnode =>
      have ha : (s.actor a).loop = .recycle stage old qnode := by simpa [enabled] using henabled
      cases stage with
      | count =>
          let actor : Actor := { s.actor a with loop := .recycle .clearMsg old qnode }
          have hlength : (queue a).length + actor.loop.uncounted + 1 =
              (s.addPending (-1)).depth queue a + 0 := by
            rw [depth_addPending, depth, ha]
            rfl
          have hdepth := depth_setActor (s.addPending (-1)) queue (queue a) hlength b
          rw [update_eq_self, Nat.zero_mul, Nat.one_mul, depth_addPending] at hdepth
          exact hdepth
      | clearMsg => exact hsame a _ (by rw [ha]; rfl)
      | clearNext => exact hsame a _ (by rw [ha]; rfl)
      | put =>
          refine hsame a _ ?_
          rw [ha]
          cases qnode <;> rfl
  | start a =>
      have ha : (s.actor a).status = .init := by simpa [enabled] using henabled
      refine hsame a _ ?_
      rw [(hqueued.sound a).unstarted ha]
      rfl
  | peek a =>
      have ha : (s.actor a).loop = .dequeue := by simpa [enabled] using henabled
      refine hsame a _ ?_
      rw [ha]
      cases (s.heap (s.actor a).head).next <;> rfl
  | drainPeek a =>
      have ha : (s.actor a).loop = .dead := by simpa [enabled] using henabled
      refine hsame a _ ?_
      rw [ha]
      cases (s.heap (s.actor a).head).next <;> rfl
  | checkStatus a =>
      have ha : (s.actor a).loop = .missed := by simpa [enabled] using henabled
      refine hsame a _ ?_
      rw [ha]
      split <;> rfl
  | wake a =>
      have ha := of_decide_eq_true (Bool.and_eq_true_iff.mp henabled).1
      exact hsame a _ (by rw [ha]; rfl)
  | handle a | release a | exit a | cancel a =>
      have ha := of_decide_eq_true henabled
      exact hsame a _ (by rw [ha]; rfl)
  | signal p a ticket | compareAndSwap p a st | stopSignal p a => exact hsame a _ rfl
  | send | get | fill | reset | count | getEnvelope | setMsg | sendEnvelope | putEnvelope
  | putClearNext | poolPut | callStop | stop | poolDrop => rfl

/-- The gauge, and what there is to count. -/
structure Gauged (s : Machine Msg) : Prop where
  waiting : (support s.waiting).Finite
  counted : (support fun p => (s.thread p).counted).Finite
  exact : s.processMailboxPending = UInt64.ofNat s.outstanding

omit [DecidableEq Msg] in
theorem gauged_initial (Msg : Type) : Gauged (initial Msg) := by
  have hwaiting : (initial Msg).waiting = 0 := rfl
  have hcounted : (fun p => ((initial Msg).thread p).counted) = 0 := rfl
  refine ⟨by simp [hwaiting], by simp [hcounted], ?_⟩
  rw [outstanding, hwaiting, hcounted, Pi.zero_def, finsum_zero]
  rfl

/-- A count adds one envelope to be counted, a subtraction takes one away, and every other
step leaves their number. -/
theorem outstanding_apply {nodes : Nat → List Addr} {queue : Nat → List (Entry (Option Msg))}
    (hshape : Shape s nodes queue) (h : Gauged s) (henabled : s.enabled action = true) :
    (support (s.apply action).waiting).Finite ∧
      (support fun p => ((s.apply action).thread p).counted).Finite ∧
      (s.apply action).outstanding + action.subtracting.elim 0 (fun _ => 1) =
        s.outstanding + action.counting.elim 0 fun _ => 1 := by
  have hrecorded := hshape.recorded.step hshape.queued hshape.owned henabled
  have hmailbox (b : Nat) : (s.apply action).waiting b + mark action.subtracting b =
      s.waiting b + mark action.filling b := by
    rw [hrecorded.waiting_eq_depth, hshape.recorded.waiting_eq_depth]
    exact depth_apply hshape.queued henabled b
  obtain ⟨hwaiting, hdepth⟩ :=
    finsum_exchange h.waiting (finite_support_mark action.filling) hmailbox
  obtain ⟨hthreads, hcounted⟩ :=
    finsum_exchange h.counted (finite_support_mark action.counting) (counted_apply henabled)
  -- the producer that swaps stops being counted where the mailbox gets its envelope
  have hswap : action.filling.elim 0 (fun _ => 1) = action.swapping.elim 0 fun _ => 1 := by
    cases action <;> rfl
  refine ⟨hwaiting, hthreads, ?_⟩
  rw [finsum_mark, finsum_mark] at hdepth hcounted
  unfold outstanding
  omega

theorem Gauged.apply {nodes : Nat → List Addr} {queue : Nat → List (Entry (Option Msg))}
    (h : Gauged s) (hshape : Shape s nodes queue) (henabled : s.enabled action = true) :
    Gauged (s.apply action) := by
  obtain ⟨hwaiting, hcounted, hout⟩ := outstanding_apply hshape h henabled
  exact ⟨hwaiting, hcounted, eq_ofNat_of_exchange h.exact (s.pending_apply action) hout⟩

end Step

end Machine

open Machine

variable [DecidableEq Msg] {s : Machine Msg}

theorem gauged_of_reachable (hs : (runtime Msg).Reachable s) : Gauged s := by
  have h := System.Reachable.invariant
    (P := fun s => (∃ nodes queue, Shape s nodes queue) ∧ Gauged s)
    ⟨⟨_, _, shape_initial Msg⟩, gauged_initial Msg⟩ ?_ hs
  · exact h.2
  · rintro s action t ⟨⟨_, _, hshape⟩, h⟩ hstep
    have ⟨henabled, ht⟩ := System.guarded_step_eq_some_iff.mp hstep
    exact ⟨⟨_, _, hshape.step hstep⟩, ht ▸ h.apply hshape henabled⟩

/-- The gauge shows the envelopes swapped into some mailbox and not yet dequeued or drained,
and the producers between their count and their swap. There is one to subtract wherever one
is subtracted, so the gauge does not run below zero. -/
theorem gauge_exact (hs : (runtime Msg).Reachable s) :
    (support s.waiting).Finite ∧ (support fun p => (s.thread p).counted).Finite ∧
      s.processMailboxPending = UInt64.ofNat s.outstanding ∧
      (s.outstanding < UInt64.size → s.processMailboxPending.toNat = s.outstanding) ∧
      ∀ a old qnode t, (runtime Msg).step s (.recycle a .count old qnode) = some t →
        0 < s.outstanding ∧ t.outstanding + 1 = s.outstanding ∧
        (s.outstanding < UInt64.size →
          0 < s.processMailboxPending ∧
          t.processMailboxPending.toNat + 1 = s.processMailboxPending.toNat) := by
  have h := gauged_of_reachable hs
  obtain ⟨nodes, queue, hshape⟩ := shape_of_reachable hs
  have hshown (hlt : s.outstanding < UInt64.size) :
      s.processMailboxPending.toNat = s.outstanding := by
    rw [h.exact]
    exact UInt64.toNat_ofNat_of_lt hlt
  refine ⟨h.waiting, h.counted, h.exact, hshown, ?_⟩
  intro a old qnode t hstep
  obtain ⟨henabled, rfl⟩ := System.guarded_step_eq_some_iff.mp hstep
  have hout : _ + 1 = s.outstanding + 0 := (outstanding_apply hshape h henabled).2.2
  refine ⟨by omega, hout, fun hlt => ?_⟩
  exact pos_and_toNat_add_one h.exact (h.apply hshape henabled).exact hout hlt

/-- Two messages are swapped in, and the consumer has moved its head past the dummy. -/
def headMoved : Machine Nat := (runtime Nat).after (twoMessages.take 19)

theorem gauge_exact_headMoved :
    headMoved.processMailboxPending = 2 ∧ headMoved.processMailboxPending =
        UInt64.ofNat headMoved.outstanding ∧ 0 < headMoved.outstanding := by
  have h := gauge_exact (System.reachable_after (twoMessages.take 19))
  refine ⟨by decide, h.2.2.1, ?_⟩
  exact (h.2.2.2.2 0 (.dummy 0) (some (.node 1)) _ rfl).1

end ActorCluster.Runtime
