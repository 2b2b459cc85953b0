import ActorCluster.Runtime.Fifo

/-! # No lost wake-up

The loop parks after one empty `dequeue` and one load of the status, and its wake
channel has a single slot. Whoever enqueues a message or changes the status fills
the slot afterwards, so a loop that parks with something left to do finds the slot
filled, or somebody on the way to fill it.
-/

namespace ActorCluster.Runtime

open Transition

variable {Msg : Type}

/-- The loop has found the mailbox empty and has not dequeued again. -/
def Loop.parking : Loop → Bool
  | .missed | .waiting => true
  | _ => false

/-- The actor whose wake channel the goroutine has yet to fill: it stands between its
tail swap, or its change of the status, and its wake attempt. -/
def Thread.rouses : Thread Msg → Option Nat
  | .link a _ _ _ | .signal a _ | .stopSignal a => some a
  | _ => none

namespace Machine

/-- The wake channel is filled, or about to be. -/
def Roused (s : Machine Msg) (a : Nat) : Prop :=
  (s.actor a).wake = true ∨ ∃ p, (s.thread p).rouses = some a

/-- A loop that parks although there is something to do is roused. -/
structure Alert (s : Machine Msg) (queue : Nat → List (Entry (Option Msg))) : Prop where
  backlog : ∀ a, (s.actor a).loop.parking = true → queue a ≠ [] → s.Roused a
  stopping : ∀ a, (s.actor a).loop = .waiting → (s.actor a).status = .stopping → s.Roused a

theorem alert_initial (Msg : Type) : Alert (initial Msg) fun _ => [] :=
  ⟨fun _ h => (by cases h), fun _ h => (by cases h)⟩

namespace Alert

variable {s s' : Machine Msg} {queue : Nat → List (Entry (Option Msg))} {a p : Nat}

theorem congr (h : Alert s queue) (hactor : s'.actor = s.actor) (hthread : s'.thread = s.thread) :
    Alert s' queue where
  backlog b hloop hqueue := by
    rw [hactor] at hloop
    rw [Roused, hactor, hthread]
    exact h.backlog b hloop hqueue
  stopping b hloop hstatus := by
    rw [hactor] at hloop hstatus
    rw [Roused, hactor, hthread]
    exact h.stopping b hloop hstatus

/-- A goroutine moves on that owes no wake attempt. -/
theorem setThread (h : Alert s queue) {t u : Thread Msg} (hp : s.thread p = t)
    (hrouses : t.rouses = none) : Alert (s.setThread p u) queue := by
  have hkept : ∀ b, s.Roused b → (s.setThread p u).Roused b := by
    rintro b (hwake | ⟨r, hr⟩)
    · exact Or.inl hwake
    · have hne : r ≠ p := by
        rintro rfl
        rw [hp, hrouses] at hr
        cases hr
      exact Or.inr ⟨r, by rwa [s.setThread_thread_of_ne u hne]⟩
  exact ⟨fun b hloop hqueue => hkept b (h.backlog b hloop hqueue),
    fun b hloop hstatus => hkept b (h.stopping b hloop hstatus)⟩

/-- One actor has to meet its obligations anew; the others keep theirs. -/
theorem local_change (h : Alert s queue) {entries : List (Entry (Option Msg))}
    (hothers : ∀ b, b ≠ a → s'.actor b = s.actor b)
    (hkept : ∀ b, b ≠ a → s.Roused b → s'.Roused b)
    (hbacklog : (s'.actor a).loop.parking = true → entries ≠ [] → s'.Roused a)
    (hstopping : (s'.actor a).loop = .waiting → (s'.actor a).status = .stopping → s'.Roused a) :
    Alert s' (Function.update queue a entries) := by
  refine ⟨fun b hloop hqueue => ?_, fun b hloop hstatus => ?_⟩ <;> by_cases hb : b = a
  · subst hb
    rw [Function.update_self] at hqueue
    exact hbacklog hloop hqueue
  · rw [hothers b hb] at hloop
    rw [Function.update_of_ne hb] at hqueue
    exact hkept b hb (h.backlog b hloop hqueue)
  · subst hb
    exact hstopping hloop hstatus
  · rw [hothers b hb] at hloop hstatus
    exact hkept b hb (h.stopping b hloop hstatus)

/-- Nothing is asked of an actor that is roused. -/
theorem rouse (h : Alert s queue) {actor : Actor} {u : Thread Msg}
    (hp : ∀ b, (s.thread p).rouses = some b → b = a)
    (hroused : actor.wake = true ∨ u.rouses = some a) (entries : List (Entry (Option Msg))) :
    Alert ((s.setActor a actor).setThread p u) (Function.update queue a entries) := by
  have hself : ((s.setActor a actor).setThread p u).Roused a := by
    rcases hroused with hwake | hu
    · exact Or.inl ((congrArg Actor.wake (s.setActor_actor_self a actor)).trans hwake)
    · exact Or.inr ⟨p, by rwa [setThread_thread_self]⟩
  refine h.local_change (fun b => s.setActor_actor_of_ne actor) ?_ (fun _ _ => hself)
    fun _ _ => hself
  rintro b hb (hwake | ⟨r, hr⟩)
  · exact Or.inl ((congrArg Actor.wake (s.setActor_actor_of_ne actor hb)).trans hwake)
  · have hne : r ≠ p := by
      rintro rfl
      exact hb (hp b hr)
    exact Or.inr ⟨r, by rw [setThread_thread_of_ne _ u hne]; exact hr⟩

theorem rouse_same (h : Alert s queue) {actor : Actor} {u : Thread Msg}
    (hp : ∀ b, (s.thread p).rouses = some b → b = a)
    (hroused : actor.wake = true ∨ u.rouses = some a) :
    Alert ((s.setActor a actor).setThread p u) queue := by
  have h' := h.rouse hp hroused (queue a)
  rwa [Function.update_eq_self] at h'

/-- An actor moves on to where its obligations are met. -/
theorem setActor (h : Alert s queue) {actor : Actor} {entries : List (Entry (Option Msg))}
    (hbacklog : actor.loop.parking = true → entries ≠ [] → (s.setActor a actor).Roused a)
    (hstopping : actor.loop = .waiting → actor.status = .stopping → (s.setActor a actor).Roused a) :
    Alert (s.setActor a actor) (Function.update queue a entries) := by
  refine h.local_change (fun b => s.setActor_actor_of_ne actor) ?_ ?_ ?_
  · intro b hb hroused
    rwa [Roused, s.setActor_actor_of_ne actor hb]
  · rwa [setActor_actor_self]
  · rwa [setActor_actor_self]

/-- A loop that does not park has no obligations. -/
theorem busy (h : Alert s queue) {actor : Actor} (hloop : actor.loop.parking = false)
    (entries : List (Entry (Option Msg))) :
    Alert (s.setActor a actor) (Function.update queue a entries) := by
  refine h.setActor (fun hparking => ?_) fun hwaiting => ?_
  · rw [hloop] at hparking
    cases hparking
  · rw [hwaiting] at hloop
    cases hloop

theorem busy_same (h : Alert s queue) {actor : Actor} (hloop : actor.loop.parking = false) :
    Alert (s.setActor a actor) queue := by
  have h' := h.busy (a := a) hloop (queue a)
  rwa [Function.update_eq_self] at h'

/-- A `dequeue` that finds nothing behind the head of a mailbox that is not empty has
met a producer between its tail swap and its link. -/
theorem roused_of_unlinked {nodes : Nat → List Addr} (h : Queued s nodes queue)
    (hnone : (s.heap (s.actor a).head).next = none) (hqueue : queue a ≠ []) : s.Roused a := by
  have hchain := h.chained a
  generalize (s.actor a).head = head at hchain hnone
  generalize nodes a = ys at hchain
  generalize queue a = entries at hchain hqueue
  cases hchain with
  | last => exact absurd rfl hqueue
  | @link _ y _ entry _ hlinked =>
      obtain ⟨msg, producer⟩ := entry
      cases producer with
      | none =>
          rw [show (s.heap head).next = some y from hlinked] at hnone
          cases hnone
      | some p =>
          obtain ⟨_, ticket, hp⟩ := hlinked
          exact Or.inr ⟨p, by rw [hp]; rfl⟩

variable [DecidableEq Msg] {nodes : Nat → List Addr}

/-- Every step keeps the loops alert. -/
theorem step (h : Alert s queue) (hqueued : Queued s nodes queue) {action : Action Msg}
    (henabled : s.enabled action = true) :
    Alert (s.apply action) (s.queueAfter queue action) := by
  -- a goroutine that owes no wake attempt takes a step of its own
  have hmove {p : Nat} {t u : Thread Msg} {s' : Machine Msg} (hp : s.thread p = t)
      (hrouses : t.rouses = none) (hactor : s'.actor = s.actor)
      (hthread : s'.thread = Function.update s.thread p u) : Alert s' queue :=
    (h.setThread hp hrouses).congr hactor hthread
  -- a loop moves on without parking
  have hbusy {b : Nat} {actor : Actor} {s' : Machine Msg} (hloop : actor.loop.parking = false)
      (hactor : s'.actor = Function.update s.actor b actor) (hthread : s'.thread = s.thread) :
      Alert s' queue :=
    (h.busy_same hloop).congr hactor hthread
  cases action with
  | send p b msg =>
      have hp : s.thread p = .idle := by simpa [enabled] using henabled
      exact hmove hp rfl rfl rfl
  | get p b msg qnode =>
      have hp : s.thread p = .get b msg ∧ s.canGet qnode = true := by
        simpa [enabled] using henabled
      exact hmove hp.1 rfl rfl rfl
  | fill p b msg qnode =>
      have hp : s.thread p = .fill b msg qnode := by simpa [enabled] using henabled
      exact hmove hp rfl rfl rfl
  | reset p b qnode =>
      have hp : s.thread p = .reset b qnode := by simpa [enabled] using henabled
      exact hmove hp rfl rfl rfl
  | count p b qnode =>
      have hp : s.thread p = .count b qnode := by simpa [enabled] using henabled
      exact hmove hp rfl rfl rfl
  | swap p b qnode =>
      have hp : s.thread p = .swap b qnode := by simpa [enabled] using henabled
      have hother : ∀ c, (s.thread p).rouses = some c → c = b := by
        rw [hp]
        rintro c ⟨⟩
      exact (h.rouse hother (.inr rfl) _).congr rfl rfl
  | link p b qnode prev ticket =>
      have hp : s.thread p = .link b qnode prev ticket := by simpa [enabled] using henabled
      have h' : Alert ((s.setActor b (s.actor b)).setThread p (.signal b ticket))
          (Function.update queue b (linkEntry p (queue b))) :=
        h.rouse (by rw [hp]; rintro _ ⟨⟩; rfl) (.inr rfl) _
      exact h'.congr (Function.update_eq_self b s.actor).symm rfl
  | signal p b ticket =>
      have hp : s.thread p = .signal b ticket := by simpa [enabled] using henabled
      have hown : ∀ c, (s.thread p).rouses = some c → c = b := by
        rw [hp]
        rintro _ ⟨⟩
        rfl
      exact (h.rouse_same hown (.inl rfl)).congr rfl rfl
  | stopSignal p b =>
      have hp : s.thread p = .stopSignal b := by simpa [enabled] using henabled
      have hown : ∀ c, (s.thread p).rouses = some c → c = b := by
        rw [hp]
        rintro _ ⟨⟩
        rfl
      exact (h.rouse_same hown (.inl rfl)).congr rfl rfl
  | getEnvelope p env =>
      have hp : s.thread p = .idle ∧ s.canGet env = true := by simpa [enabled] using henabled
      exact hmove hp.1 rfl rfl rfl
  | sendEnvelope p b env | putEnvelope p env =>
      have hp : s.thread p = .holding env := by simpa [enabled] using henabled
      exact hmove hp rfl rfl rfl
  | putClearNext p env =>
      have hp : s.thread p = .clearNext env := by simpa [enabled] using henabled
      exact hmove hp rfl rfl rfl
  | poolPut p env =>
      have hp : s.thread p = .put env := by simpa [enabled] using henabled
      exact hmove hp rfl rfl rfl
  | callStop p b =>
      have hp : s.thread p = .idle := by simpa [enabled] using henabled
      exact hmove hp rfl rfl rfl
  | stop p b =>
      have hp : s.thread p = .stop b := by simpa [enabled] using henabled
      exact hmove hp rfl rfl rfl
  | compareAndSwap p b st =>
      have hp : s.thread p = .compareAndSwap b st := by simpa [enabled] using henabled
      have hother : ∀ c, (s.thread p).rouses = some c → c = b := by
        rw [hp]
        rintro c ⟨⟩
      by_cases hstatus : (s.actor b).status = st
      · have h' : Alert ((s.setActor b { s.actor b with status := .stopping }).setThread p
            (.stopSignal b)) queue := h.rouse_same hother (.inr rfl)
        simpa [apply, hstatus, queueAfter] using h'
      · have h' : Alert ((s.setActor b (s.actor b)).setThread p (.stop b)) queue :=
          hmove hp rfl (Function.update_eq_self b s.actor) rfl
        simpa [apply, hstatus, queueAfter] using h'
  | peek b =>
      cases hnext : (s.heap (s.actor b).head).next with
      | some next => exact hbusy (by rw [hnext]; rfl) rfl rfl
      | none =>
          have h' : Alert (s.setLoop b .missed) (Function.update queue b (queue b)) :=
            h.setActor (fun _ hqueue => by
              rw [Roused, setActor_actor_self]
              exact roused_of_unlinked hqueued hnext hqueue) (by simp)
          rw [Function.update_eq_self] at h'
          simpa [apply, hnext, queueAfter] using h'
  | checkStatus b =>
      have hloop : (s.actor b).loop = .missed := by simpa [enabled] using henabled
      by_cases hstatus : (s.actor b).status = .stopping
      · exact hbusy (by rw [if_pos hstatus]; rfl) rfl rfl
      · have h' : Alert (s.setLoop b .waiting) (Function.update queue b (queue b)) :=
          h.setActor (fun _ hqueue => by
            rw [Roused, setActor_actor_self]
            exact h.backlog b (by rw [hloop]; rfl) hqueue) fun _ h' => absurd h' hstatus
        rw [Function.update_eq_self] at h'
        simpa [apply, hstatus, queueAfter] using h'
  | advance b next => exact (h.busy rfl _).congr rfl rfl
  | drain b next => exact (h.busy rfl _).congr rfl rfl
  | recycle b stage old qnode =>
      have hcount (delta : UInt64) (loop : Loop) (hloop : loop.parking = false) :
          Alert ((s.addPending delta).setLoop b loop) queue := hbusy hloop rfl rfl
      cases stage with
      | count => exact hcount _ _ rfl
      | clearMsg | clearNext => exact hbusy rfl rfl rfl
      | put => exact hbusy (by cases qnode <;> rfl) rfl rfl
  | start b | handle b qnode | release b qnode | exit b | wake b | cancel b =>
      exact hbusy rfl rfl rfl
  | drainPeek b =>
      exact hbusy (by cases (s.heap (s.actor b).head).next <;> rfl) rfl rfl
  | setMsg p env msg | poolDrop env => exact h.congr rfl rfl

end Alert

variable [DecidableEq Msg] {s : Machine Msg} {a : Nat}

/-- A loop that is parked with an empty wake channel, while nobody stands between a
tail swap or a change of the status and the wake attempt that follows, has handled
every message swapped into its mailbox, and has not been told to stop. -/
theorem no_lost_wakeup (hs : (runtime Msg).Reachable s) (hparked : (s.actor a).loop = .waiting)
    (hempty : (s.actor a).wake = false) (hnobody : ∀ p, (s.thread p).rouses ≠ some a) :
    s.handled a = s.swaps a ∧ (s.actor a).status ≠ .stopping := by
  obtain ⟨nodes, queue, h, halert⟩ := System.Reachable.invariant
    (P := fun s => ∃ nodes queue, Shape s nodes queue ∧ Alert s queue)
    ⟨_, _, shape_initial Msg, alert_initial Msg⟩
    (fun _ _ _ ⟨_, _, h, halert⟩ hstep =>
      ⟨_, _, h.step hstep, by
        obtain ⟨henabled, rfl⟩ := System.guarded_step_eq_some_iff.mp hstep
        exact halert.step h.queued henabled⟩) hs
  have hunroused : ¬ s.Roused a := by
    rintro (hwake | ⟨p, hp⟩)
    · rw [hempty] at hwake
      cases hwake
    · exact hnobody p hp
  have hqueue : queue a = [] := by
    by_contra hqueue
    exact hunroused (halert.backlog a (by rw [hparked]; rfl) hqueue)
  refine ⟨?_, fun hstopping => hunroused (halert.stopping a hparked hstopping)⟩
  rw [h.recorded.history a, h.recorded.undrained a (by rw [hparked]; rfl), hqueue, inHand, hparked]
  simp [Loop.delivering]

/-- The loop has handled both messages, and parks after it has used up the token. -/
def parked : Machine Nat :=
  (runtime Nat).after (twoMessages ++ [Action.peek 0, .checkStatus 0, .wake 0, .peek 0,
    .checkStatus 0])

theorem no_lost_wakeup_parked :
    (parked.actor 0).loop = .waiting ∧ parked.swaps 0 = [some 8, some 7] ∧
      parked.handled 0 = parked.swaps 0 := by
  have hloop : (parked.actor 0).loop = .waiting := by decide
  have hnobody : ∀ p, (parked.thread p).rouses ≠ some 0 := by
    rintro (_ | _ | p) <;> exact nofun
  exact ⟨hloop, by decide,
    (no_lost_wakeup (System.reachable_after _) hloop (by decide) hnobody).1⟩

end Machine

end ActorCluster.Runtime
