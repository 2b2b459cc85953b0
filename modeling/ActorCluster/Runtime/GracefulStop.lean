import ActorCluster.Runtime.Fifo

/-! # Graceful stop

`Send` loads the status and swaps the tail in separate steps, and the loop
exits on one empty `dequeue` and one load of the status. A message is therefore
lost when the loop loads `Status.stopping` while an entry behind the head is not
linked yet, or while a producer stands between its status load and its tail
swap. If neither is the case at that moment, every message that `Send` accepted
has been handled once the actor is dead.
-/

namespace ActorCluster.Runtime

open Transition

variable {Msg : Type}

/-- The loop has decided to end, or has ended. -/
def Loop.ending (loop : Loop) : Bool := loop = .exit || loop.draining

theorem Loop.delivering_of_draining {loop : Loop} (h : loop.draining = true) :
    loop.delivering = false := by
  match loop, h with
  | .dead, _ | .drain _, _ | .recycle _ _ none, _ => rfl

/-- The actor whose status the goroutine has found to accept messages, until it
swaps the tail. -/
def Thread.admitted : Thread Msg → Option Nat
  | .get a _ | .fill a _ _ | .reset a _ | .count a _ | .swap a _ => some a
  | _ => none

/-- The actor and the number of the tail swap that the goroutine has made. -/
def Thread.swapped : Thread Msg → Option (Nat × Nat)
  | .link a _ _ ticket | .signal a ticket => some (a, ticket)
  | _ => none

namespace Machine

/-- The mailbox is empty and no producer is about to enqueue. -/
def Quiet (s : Machine Msg) (a : Nat) : Prop :=
  (s.actor a).head = (s.actor a).tail ∧ ∀ p, (s.thread p).admitted ≠ some a

/-- The context is never cancelled, and the loop finds the mailbox quiet when
it loads `Status.stopping` after an empty `dequeue`. -/
def QuietExit (a : Nat) (s : Machine Msg) : Action Msg → Prop
  | .cancel b => b ≠ a
  | .checkStatus b => b = a → (s.actor a).status = .stopping → s.Quiet a
  | _ => True

section

variable {s : Machine Msg} {a : Nat}

theorem admitted_setThread {p r : Nat} {u : Thread Msg}
    (h : ((s.setThread p u).thread r).admitted = some a) :
    u.admitted = some a ∨ (s.thread r).admitted = some a := by
  by_cases hr : r = p
  · subst hr
    rw [setThread_thread_self] at h
    exact Or.inl h
  · rw [s.setThread_thread_of_ne u hr] at h
    exact Or.inr h

variable [DecidableEq Msg]

/-- A producer is admitted only by a status that accepts messages. -/
theorem admitted_apply {action : Action Msg} (henabled : s.enabled action = true) {r : Nat}
    (h : ((s.apply action).thread r).admitted = some a) :
    (∃ p, (s.thread p).admitted = some a) ∨ (s.actor a).status.accepts = true := by
  have hset {p : Nat} {u : Thread Msg} (hp : u.admitted = some a → (s.thread p).admitted = some a)
      (hthread : ((s.setThread p u).thread r).admitted = some a) :
      (∃ p, (s.thread p).admitted = some a) ∨ (s.actor a).status.accepts = true := by
    rcases admitted_setThread hthread with hu | hr
    · exact Or.inl ⟨p, hp hu⟩
    · exact Or.inl ⟨r, hr⟩
  cases action with
  | send p b msg | sendEnvelope p b env =>
      rcases admitted_setThread h with hu | hr
      · by_cases haccepts : (s.actor b).status.accepts = true
        · rw [if_pos haccepts] at hu
          cases hu
          exact Or.inr haccepts
        · rw [if_neg haccepts] at hu
          cases hu
      · exact Or.inl ⟨r, hr⟩
  | get p b msg qnode =>
      have hp : s.thread p = .get b msg ∧ s.canGet qnode = true := by
        simpa [enabled] using henabled
      exact hset (by rw [hp.1]; exact id) h
  | fill p b msg qnode =>
      have hp : s.thread p = .fill b msg qnode := by simpa [enabled] using henabled
      exact hset (by rw [hp]; exact id) h
  | reset p b qnode =>
      have hp : s.thread p = .reset b qnode := by simpa [enabled] using henabled
      exact hset (by rw [hp]; exact id) h
  | count p b qnode =>
      have hp : s.thread p = .count b qnode := by simpa [enabled] using henabled
      exact hset (by rw [hp]; exact id) h
  | swap p b qnode | link p b qnode prev ticket | signal p b ticket | getEnvelope p env
  | putEnvelope p env | putClearNext p env | poolPut p env | callStop p b | stopSignal p b =>
      refine hset ?_ h
      intro hu
      cases hu
  | stop p b | compareAndSwap p b st =>
      refine hset ?_ h
      split <;>
        intro hu <;>
        cases hu
  | recycle b stage old qnode => cases stage <;> exact Or.inl ⟨r, h⟩
  | setMsg p env msg | start b | peek b | advance b next | handle b qnode | release b qnode
  | checkStatus b | exit b | wake b | cancel b | drainPeek b | drain b next | poolDrop env =>
      exact Or.inl ⟨r, h⟩

/-- The loop ends only where it loads `Status.stopping`, or by its context. -/
theorem ending_apply {action : Action Msg} (henabled : s.enabled action = true)
    (h : ((s.apply action).actor a).loop.ending = true) :
    (s.actor a).loop.ending = true ∨
      (action = .checkStatus a ∧ (s.actor a).status = .stopping) ∨ action = .cancel a := by
  have hset {b : Nat} (actor : Actor)
      (hloop : b = a → actor.loop.ending = true → (s.actor a).loop.ending = true ∨
        (action = .checkStatus a ∧ (s.actor a).status = .stopping) ∨ action = .cancel a)
      (hactor : ((s.setActor b actor).actor a).loop.ending = true) :
      (s.actor a).loop.ending = true ∨
        (action = .checkStatus a ∧ (s.actor a).status = .stopping) ∨ action = .cancel a := by
    by_cases hb : a = b
    · subst hb
      rw [setActor_actor_self] at hactor
      exact hloop rfl hactor
    · rw [s.setActor_actor_of_ne actor hb] at hactor
      exact Or.inl hactor
  cases action with
  | swap p b qnode | signal p b ticket | stopSignal p b | compareAndSwap p b st =>
      refine hset _ ?_ h
      rintro rfl hloop
      exact Or.inl hloop
  | start b | advance b next | handle b qnode | release b qnode | wake b =>
      refine hset _ ?_ h
      rintro rfl hloop
      cases hloop
  | peek b =>
      refine hset _ ?_ h
      rintro rfl hloop
      cases hnext : (s.heap (s.actor b).head).next <;> rw [hnext] at hloop <;> cases hloop
  | recycle b stage old qnode =>
      have hb : (s.actor b).loop = .recycle stage old qnode := by simpa [enabled] using henabled
      have hcount (delta : UInt64) (loop : Loop)
          (hloop : loop.ending = true → (s.actor b).loop.ending = true)
          (hactor : (((s.addPending delta).setLoop b loop).actor a).loop.ending = true) :
          (s.actor a).loop.ending = true := by
        by_cases hba : a = b
        · subst hba
          rw [setLoop, setActor_actor_self] at hactor
          exact hloop hactor
        · rwa [setLoop, setActor_actor_of_ne _ _ hba] at hactor
      -- recycling for `Drain` leads back to the dead loop, recycling for the loop to its handler
      have hending (stage' : Recycle) :
          (Loop.recycle stage' old qnode).ending = (s.actor b).loop.ending := by
        rw [hb]
        cases qnode <;> rfl
      refine Or.inl ?_
      cases stage with
      | count => exact hcount _ _ (fun hloop => (hending .clearMsg) ▸ hloop) h
      | clearMsg => exact hcount 0 _ (fun hloop => (hending .clearNext) ▸ hloop) h
      | clearNext => exact hcount 0 _ (fun hloop => (hending .put) ▸ hloop) h
      | put =>
          refine hcount 0 (qnode.elim .dead .handle) ?_ h
          rw [← hending .put]
          cases qnode <;> exact id
  | checkStatus b =>
      refine hset _ ?_ h
      rintro rfl hloop
      by_cases hstopping : (s.actor b).status = .stopping
      · exact Or.inr (Or.inl ⟨rfl, hstopping⟩)
      · rw [if_neg hstopping] at hloop
        cases hloop
  | exit b =>
      have hb : (s.actor b).loop = .exit := by simpa [enabled] using henabled
      refine hset _ ?_ h
      rintro rfl _
      exact Or.inl (by rw [hb]; rfl)
  | cancel b =>
      refine hset _ ?_ h
      rintro rfl _
      exact Or.inr (Or.inr rfl)
  | drainPeek b =>
      have hb : (s.actor b).loop = .dead := by simpa [enabled] using henabled
      refine hset _ ?_ h
      rintro rfl _
      exact Or.inl (by rw [hb]; rfl)
  | drain b next =>
      have hb : (s.actor b).loop = .drain next := by simpa [enabled] using henabled
      refine hset _ ?_ h
      rintro rfl _
      exact Or.inl (by rw [hb]; rfl)
  | send p b msg | get p b msg qnode | fill p b msg qnode | reset p b qnode | count p b qnode
  | link p b qnode prev ticket | getEnvelope p env | setMsg p env msg | sendEnvelope p b env
  | putEnvelope p env | putClearNext p env | poolPut p env | callStop p b | stop p b
  | poolDrop env => exact Or.inl h

end

/-- Every ticket belongs to a tail swap that has been made. -/
structure Ticketed (s : Machine Msg) : Prop where
  swapped : ∀ p a ticket, (s.thread p).swapped = some (a, ticket) → ticket < (s.swaps a).length
  returned : ∀ a, ∀ ticket ∈ s.returned a, ticket < (s.swaps a).length

namespace Ticketed

variable {s s' : Machine Msg}

theorem congr (h : Ticketed s) (hthread : s'.thread = s.thread) (hswaps : s'.swaps = s.swaps)
    (hreturned : s'.returned = s.returned) : Ticketed s' := by
  refine ⟨fun p a ticket hp => ?_, fun a ticket hticket => ?_⟩
  · rw [hswaps]
    exact h.swapped p a ticket (hthread ▸ hp)
  · rw [hswaps]
    exact h.returned a ticket (hreturned ▸ hticket)

theorem setThread (h : Ticketed s) (p : Nat) {u : Thread Msg}
    (hu : ∀ a ticket, u.swapped = some (a, ticket) → ticket < (s.swaps a).length) :
    Ticketed (s.setThread p u) where
  swapped r a ticket hr := by
    by_cases hrp : r = p
    · subst hrp
      rw [setThread_thread_self] at hr
      exact hu a ticket hr
    · rw [s.setThread_thread_of_ne u hrp] at hr
      exact h.swapped r a ticket hr
  returned := h.returned

theorem setActor (h : Ticketed s) (a : Nat) (actor : Actor) : Ticketed (s.setActor a actor) :=
  h.congr rfl rfl rfl

theorem swap (h : Ticketed s) (a : Nat) (msg : Option Msg) :
    Ticketed { s with swaps := Function.update s.swaps a (s.swaps a ++ [msg]) } := by
  have hgrows : ∀ b, (s.swaps b).length ≤
      (Function.update s.swaps a (s.swaps a ++ [msg]) b).length := by
    intro b
    by_cases hb : b = a
    · subst hb
      rw [Function.update_self, List.length_append]
      exact Nat.le_add_right _ _
    · simp only [Function.update_of_ne hb, Nat.le_refl]
  exact ⟨fun p b ticket hp => Nat.lt_of_lt_of_le (h.swapped p b ticket hp) (hgrows b),
    fun b ticket hticket => Nat.lt_of_lt_of_le (h.returned b ticket hticket) (hgrows b)⟩

theorem signal (h : Ticketed s) {a ticket : Nat} (hticket : ticket < (s.swaps a).length) :
    Ticketed { s with returned := Function.update s.returned a (s.returned a ++ [ticket]) } where
  swapped := h.swapped
  returned b ticket' hmem := by
    by_cases hb : b = a
    · subst hb
      simp only [Function.update_self] at hmem
      rcases List.mem_append.mp hmem with hmem | hmem
      · exact h.returned b ticket' hmem
      · cases List.mem_singleton.mp hmem
        exact hticket
    · simp only [Function.update_of_ne hb] at hmem
      exact h.returned b ticket' hmem

variable [DecidableEq Msg]

theorem step (h : Ticketed s) {action : Action Msg}
    (hstep : (runtime Msg).step s action = some s') : Ticketed s' := by
  obtain ⟨henabled, rfl⟩ := System.guarded_step_eq_some_iff.mp hstep
  have hsame (t : Machine Msg) (hthread : t.thread = s.thread) (hswaps : t.swaps = s.swaps)
      (hreturned : t.returned = s.returned) (p : Nat) {u : Thread Msg}
      (hu : u.swapped = none) : Ticketed (t.setThread p u) := by
    refine (h.congr hthread hswaps hreturned).setThread p ?_
    intro a ticket hticket
    rw [hu] at hticket
    cases hticket
  cases action with
  | swap p a qnode =>
      have hswaps := h.swap a (s.heap qnode).msg
      refine (hswaps.setActor a { s.actor a with tail := qnode }).setThread p ?_
      rintro _ _ ⟨⟩
      show (s.swaps a).length < (Function.update s.swaps a _ a).length
      rw [Function.update_self, List.length_append]
      exact Nat.lt_succ_self _
  | link p a qnode prev ticket =>
      have hp : s.thread p = .link a qnode prev ticket := by simpa [enabled] using henabled
      have hlinked : Ticketed (s.storeNext prev (some qnode)) := h.congr rfl rfl rfl
      refine hlinked.setThread p ?_
      rintro _ _ ⟨⟩
      exact h.swapped p a ticket (by rw [hp]; rfl)
  | signal p a ticket =>
      have hp : s.thread p = .signal a ticket := by simpa [enabled] using henabled
      have hreturned := h.signal (h.swapped p a ticket (by rw [hp]; rfl))
      refine (hreturned.setActor a { s.actor a with wake := true }).setThread p ?_
      rintro _ _ ⟨⟩
  | send p a msg | sendEnvelope p a env | stop p a | compareAndSwap p a st =>
      refine hsame _ ?_ ?_ ?_ p ?_
      · rfl
      · rfl
      · rfl
      · split <;> rfl
  | get p a msg qnode | fill p a msg qnode | reset p a qnode | count p a qnode | getEnvelope p env
  | putEnvelope p env | putClearNext p env | poolPut p env | callStop p a | stopSignal p a =>
      refine hsame _ ?_ ?_ ?_ p ?_ <;> rfl
  | recycle a stage old qnode =>
      have hcount (delta : UInt64) (loop : Loop) :
          Ticketed ((s.addPending delta).setLoop a loop) := h.congr rfl rfl rfl
      cases stage with
      | count => exact hcount _ _
      | clearMsg | clearNext | put => exact h.congr rfl rfl rfl
  | setMsg p env msg | start a | peek a | advance a next | handle a qnode | release a qnode
  | checkStatus a | exit a | wake a | cancel a | drainPeek a | drain a next | poolDrop env =>
      exact h.congr rfl rfl rfl

end Ticketed

variable {s t : Machine Msg} {nodes : Nat → List Addr} {queue : Nat → List (Entry (Option Msg))}
variable {a : Nat}

/-- `head == tail` says that the mailbox is empty. -/
theorem Shape.head_eq_tail_iff (h : Shape s nodes queue) (a : Nat) :
    (s.actor a).head = (s.actor a).tail ↔ queue a = [] := by
  have hchain := h.queued.chained a
  have hapart := h.owned.head_apart a a
  generalize (s.actor a).head = head at hchain hapart ⊢
  generalize nodes a = ys at hchain hapart
  generalize queue a = entries at hchain ⊢
  cases hchain with
  | last _ htail => exact ⟨fun _ => rfl, fun _ => htail.symm⟩
  | link _ _ hrest =>
      refine ⟨fun heq => absurd ?_ hapart, nofun⟩
      rw [heq]
      exact hrest.tail_mem

/-- A loop that ends leaves an empty mailbox behind, and nobody will fill it. -/
def Settled (s : Machine Msg) (queue : Nat → List (Entry (Option Msg))) (a : Nat) : Prop :=
  (s.actor a).loop.ending = true →
    queue a = [] ∧ s.drained a = [] ∧ ∀ p, (s.thread p).admitted ≠ some a

/-- An actor whose loop is ending refuses messages. -/
theorem Lifecycle.refuses (h : Lifecycle s) (hending : (s.actor a).loop.ending = true) :
    (s.actor a).status.accepts = false := by
  rcases (Bool.or_eq_true _ _).mp hending with hexit | hdraining
  · rw [(h.lawful a).exiting (of_decide_eq_true hexit)]
    rfl
  · rw [(h.lawful a).ended.mp hdraining]
    rfl

variable [DecidableEq Msg]

/-- Once the mailbox is settled, only a producer that was admitted could change
what it holds. -/
theorem Shape.settled_apply (h : Shape s nodes queue) {action : Action Msg}
    (henabled : s.enabled action = true) (hqueue : queue a = []) (hdrained : s.drained a = [])
    (hadmitted : ∀ p, (s.thread p).admitted ≠ some a) (hending : (s.actor a).loop.ending = true) :
    s.queueAfter queue action a = [] ∧ (s.apply action).drained a = [] := by
  cases action with
  | swap p b qnode =>
      have hp : s.thread p = .swap b qnode := by simpa [enabled] using henabled
      have hb : a ≠ b := by
        rintro rfl
        exact hadmitted p (by rw [hp]; rfl)
      exact ⟨(Function.update_of_ne hb _ _).trans hqueue, hdrained⟩
  | link p b qnode prev ticket =>
      refine ⟨?_, hdrained⟩
      by_cases hb : a = b
      · subst hb
        rw [queueAfter, Function.update_self, hqueue]
        rfl
      · exact (Function.update_of_ne hb _ _).trans hqueue
  | advance b next =>
      have hloop : (s.actor b).loop = .advance next := by simpa [enabled] using henabled
      have hb : a ≠ b := by
        rintro rfl
        rw [hloop] at hending
        cases hending
      exact ⟨(Function.update_of_ne hb _ _).trans hqueue, hdrained⟩
  | drain b next =>
      have hloop : (s.actor b).loop = .drain next := by simpa [enabled] using henabled
      have hb : a ≠ b := by
        rintro rfl
        obtain ⟨_, _, _, _, hcons, _⟩ := h.queued.front (h.queued.ahead a next (by rw [hloop]; rfl))
        rw [hqueue] at hcons
        cases hcons
      exact ⟨(Function.update_of_ne hb _ _).trans hqueue,
        (Function.update_of_ne hb _ _).trans hdrained⟩
  | recycle b stage old qnode => cases stage <;> exact ⟨hqueue, hdrained⟩
  | send p b msg | get p b msg qnode | fill p b msg qnode | reset p b qnode | count p b qnode
  | signal p b ticket | getEnvelope p env | setMsg p env msg | sendEnvelope p b env
  | putEnvelope p env | putClearNext p env | poolPut p env | callStop p b | stop p b
  | compareAndSwap p b st | stopSignal p b | start b | peek b | handle b qnode | release b qnode
  | checkStatus b | exit b | wake b | cancel b | drainPeek b | poolDrop env =>
      exact ⟨hqueue, hdrained⟩

theorem Settled.step (h : s.Settled queue a) (hshape : Shape s nodes queue)
    {action : Action Msg} (hquiet : QuietExit a s action)
    (hstep : (runtime Msg).step s action = some t) : t.Settled (s.queueAfter queue action) a := by
  obtain ⟨henabled, rfl⟩ := System.guarded_step_eq_some_iff.mp hstep
  intro hending
  rcases ending_apply henabled hending with hending | ⟨rfl, hstopping⟩ | rfl
  · obtain ⟨hqueue, hdrained, hadmitted⟩ := h hending
    obtain ⟨hqueue', hdrained'⟩ :=
      hshape.settled_apply henabled hqueue hdrained hadmitted hending
    refine ⟨hqueue', hdrained', fun p hp => ?_⟩
    rcases admitted_apply henabled hp with ⟨r, hr⟩ | haccepts
    · exact hadmitted r hr
    · rw [hshape.lifecycle.refuses hending] at haccepts
      cases haccepts
  · -- the loop decides to end: this is where the mailbox has to be quiet
    have hloop : (s.actor a).loop = .missed := by simpa [enabled] using henabled
    obtain ⟨hempty, hadmitted⟩ := hquiet rfl hstopping
    exact ⟨(hshape.head_eq_tail_iff a).mp hempty,
      hshape.recorded.undrained a (by rw [hloop]; rfl), hadmitted⟩
  · exact absurd rfl hquiet

omit [DecidableEq Msg] in
theorem ticketed_initial (Msg : Type) : Ticketed (initial Msg) :=
  ⟨fun _ _ _ h => (by cases h), fun _ _ h => (by cases h)⟩

omit [DecidableEq Msg] in
theorem settled_initial (Msg : Type) (a : Nat) : (initial Msg).Settled (fun _ => []) a :=
  fun h => by cases h

/-- As long as the mailbox is quiet whenever the loop loads `Status.stopping`
after an empty `dequeue`, every message that was accepted has been handled once
the actor is dead, and nothing is left in its mailbox. -/
theorem accepted_handled (hs : (runtime Msg).ReachableIf (QuietExit a) s)
    (hdead : (s.actor a).status = .dead) :
    (∀ ticket ∈ s.returned a, ∃ msg, (s.swaps a)[ticket]? = some msg ∧
        (s.handled a)[ticket]? = some msg) ∧
      (s.heap (s.actor a).head).next = none ∧ (s.actor a).head = (s.actor a).tail := by
  obtain ⟨nodes, queue, h, hticketed, hsettled⟩ := System.ReachableIf.invariant
    (P := fun s => ∃ nodes queue, Shape s nodes queue ∧ Ticketed s ∧ s.Settled queue a)
    ⟨_, _, shape_initial Msg, ticketed_initial Msg, settled_initial Msg a⟩
    (fun _ _ _ ⟨_, _, h, hticketed, hsettled⟩ hquiet hstep =>
      ⟨_, _, h.step hstep, hticketed.step hstep, hsettled.step h hquiet hstep⟩) hs
  have hdraining := (h.lifecycle.lawful a).ended.mpr hdead
  obtain ⟨hqueue, hdrained, _⟩ := hsettled ((Bool.or_eq_true _ _).mpr (Or.inr hdraining))
  refine ⟨fun ticket hticket => ?_, ?_, (h.head_eq_tail_iff a).mpr hqueue⟩
  · have hhandled : s.swaps a = s.handled a := by
      rw [h.recorded.history a, hdrained, hqueue, inHand, Loop.delivering_of_draining hdraining]
      simp
    have hlt := hticketed.returned a ticket hticket
    exact ⟨(s.swaps a).get ⟨ticket, hlt⟩, List.getElem?_eq_getElem hlt,
      hhandled ▸ List.getElem?_eq_getElem hlt⟩
  · have hfront := h.front_view a
    rw [view, hqueue] at hfront
    exact Option.map_eq_none_iff.mp hfront.symm

/-- After both messages have been handled, the actor is told to stop and finds its
mailbox empty. -/
def stopRequest : List (Action Nat) :=
  [.callStop 2 0, .stop 2 0, .compareAndSwap 2 0 .running, .stopSignal 2 0, .peek 0]

def stopped : Machine Nat :=
  (runtime Nat).after (twoMessages ++ stopRequest ++ [Action.checkStatus 0] ++ [Action.exit 0])

theorem accepted_handled_stopped :
    (stopped.actor 0).status = .dead ∧ stopped.returned 0 = [1, 0] ∧
      ∀ ticket ∈ stopped.returned 0, ∃ msg, (stopped.swaps 0)[ticket]? = some msg ∧
        (stopped.handled 0)[ticket]? = some msg := by
  have hdead : (stopped.actor 0).status = .dead := by decide
  have hquiet : ((runtime Nat).after (twoMessages ++ stopRequest)).Quiet 0 := by
    refine ⟨by decide, fun p => ?_⟩
    match p with
    | 0 => decide
    | 1 => decide
    | 2 => decide
    | p + 3 => exact nofun
  have hreachable : (runtime Nat).ReachableIf (QuietExit 0) stopped := by
    refine System.ReachableIf.append (System.ReachableIf.concat (System.reachableIf_after ?_) ?_) ?_
    · simp [twoMessages, taking, stopRequest, QuietExit]
    · exact fun _ _ => hquiet
    · simp [QuietExit]
  exact ⟨hdead, by decide, (accepted_handled hreachable hdead).1⟩

/-- A producer passes the status check of `Send`; then the actor is stopped and
its loop ends; then the producer enqueues its message, and `Send` returns true. -/
def lateSwap : List (Action Nat) :=
  [.start 0, .send 0 0 7, .callStop 1 0, .stop 1 0, .compareAndSwap 1 0 .running, .stopSignal 1 0,
    .peek 0, .checkStatus 0, .exit 0, .get 0 0 7 (.node 0), .fill 0 0 7 (.node 0),
    .reset 0 0 (.node 0), .count 0 0 (.node 0), .swap 0 0 (.node 0),
    .link 0 0 (.node 0) (.dummy 0) 0, .signal 0 0 0]

/-- The context is not cancelled, the actor is dead and every goroutine has
returned, but the accepted message has not been handled. -/
theorem accepted_lost :
    ∃ s, (runtime Nat).ReachableIf (fun _ action => ∀ a, action ≠ .cancel a) s ∧
      (s.actor 0).status = .dead ∧ (∀ p, s.thread p = .idle) ∧
      s.returned 0 = [0] ∧ s.swaps 0 = [some 7] ∧ s.handled 0 = [] ∧
      (s.heap (s.actor 0).head).next = some (.node 0) := by
  refine ⟨(runtime Nat).after lateSwap, System.reachableIf_after ?_, by decide, fun p => ?_,
    by decide, by decide, by decide, by decide⟩
  · simp [lateSwap]
  · match p with
    | 0 => rfl
    | 1 => rfl
    | p + 2 => rfl

end Machine

end ActorCluster.Runtime
