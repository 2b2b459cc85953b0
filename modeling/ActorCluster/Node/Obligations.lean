import ActorCluster.Node.Eviction

/-! # What the goroutines of a node owe each other

Goroutines wait for shard locks, for wake-up tokens and for actors to end. What they wait
for is owed by another goroutine: a lock has a holder that works under it, a token is sent
by the one that closed or filled the mailbox, and an actor that somebody waits for has been
told to stop.
-/

namespace ActorCluster.Node

open Remote Wallet Transition ActorCluster.Runtime

/-- The `HandleBatch` call that takes the step. -/
def Action.caller : Action → Option Nat
  | .arrive p _ _ | .gate p _ _ | .reject p _ _ _ | .next p _ _ _ | .push p _ _ _ | .finish p _
  | .owner p _ _ | .lookup p _ | .create p _ _ | .loadSnapshot p _ _ _ | .loadEvents p _ _ _ _
  | .route p _ _ | .send p _ _ | .count p _ _ | .swap p _ _ | .link p _ _ | .wake p _ _
  | .unroute p _ _ | .forget p _ _ | .kill p _ | .close p _ _ | .killSignal p _ _
  | .spawn p _ _ => some p
  | _ => none

namespace NodeState

variable {cfg : Config} {n : NodeState} {db : Database} {action : Action} {a p : Nat}
  {call : Call}

theorem thread_apply_of_caller_ne (h : action.caller ≠ some p) :
    (n.apply cfg db action).thread p = n.thread p := by
  have hne {q : Nat} (hq : some q ≠ some p) {n' : NodeState} {t : Thread}
      (hthread : n'.thread = n.thread) : (n'.setThread q t).thread p = n.thread p := by
    rw [setThread_thread_of_ne _ _ fun heq => hq (by rw [heq]), hthread]
  cases action with
  | loadSnapshot =>
      simp only [apply]
      split <;> exact hne h rfl
  | loadEvents =>
      simp only [apply]
      split <;> exact hne h rfl
  | arrive | gate | reject | next | push | finish | owner | lookup | create | route | send | count
  | swap | link | wake | unroute | forget | kill | close | killSignal | spawn => exact hne h rfl
  | _ => rfl

theorem eq_killSignal_of_caller (henabled : n.enabled cfg action = true)
    (hp : n.thread p = .serving call (.killSignal a)) (hcaller : action.caller = some p) :
    action = .killSignal p call a := by
  cases action <;> simp_all [Action.caller, enabled]

theorem eq_link_of_caller (henabled : n.enabled cfg action = true)
    (hp : n.thread p = .serving call (.link a)) (hcaller : action.caller = some p) :
    action = .link p call a := by
  cases action <;> simp_all [Action.caller, enabled]

theorem eq_wake_of_caller (henabled : n.enabled cfg action = true)
    (hp : n.thread p = .serving call (.wake a)) (hcaller : action.caller = some p) :
    action = .wake p call a := by
  cases action <;> simp_all [Action.caller, enabled]

theorem sweeper_signal_apply (henabled : n.enabled cfg action = true) {now : Int} {i : Nat}
    {todo : List Nat} (hsweeper : n.sweeper = .signal now i todo a) :
    action = .sweepSignal now i todo a ∨ (n.apply cfg db action).sweeper = n.sweeper := by
  cases action with
  | loadSnapshot | loadEvents =>
      simp only [apply]
      split <;> exact Or.inr rfl
  | sweep | sweepLock | sweepScan | sweepClose | sweepUnlock | sweepRest | sweepReturn =>
      simp [enabled, hsweeper] at henabled
  | sweepSignal now' i' todo' b =>
      have heq := of_decide_eq_true henabled
      rw [hsweeper] at heq
      cases heq
      exact Or.inl rfl
  | _ => exact Or.inr rfl

theorem stopper_signal_apply (henabled : n.enabled cfg action = true) {i : Nat}
    {todo stopping : List Nat} (hstopper : n.stopper = .signal i todo stopping a) :
    action = .stopSignal i todo stopping a ∨ (n.apply cfg db action).stopper = n.stopper := by
  cases action with
  | loadSnapshot | loadEvents =>
      simp only [apply]
      split <;> exact Or.inr rfl
  | stop | stopLock | stopScan | stopUnlock | stopAwait | stopNext | closeDone | stopReturn =>
      simp [enabled, hstopper] at henabled
  | stopSignal i' todo' stopping' b =>
      have heq := of_decide_eq_true henabled
      rw [hstopper] at heq
      cases heq
      exact Or.inl rfl
  | _ => exact Or.inr rfl

/-- Somebody has closed the mailbox of the actor and is about to wake it. -/
def Rousing (n : NodeState) (a : Nat) : Prop :=
  (∃ p call, n.thread p = .serving call (.killSignal a)) ∨
    (∃ now i todo, n.sweeper = .signal now i todo a) ∨
    ∃ i todo stopping, n.stopper = .signal i todo stopping a

/-- Somebody has put an envelope into the mailbox of the actor and is about to wake it. -/
def Attending (n : NodeState) (a : Nat) : Prop :=
  ∃ p call, n.thread p = .serving call (.link a) ∨ n.thread p = .serving call (.wake a)

/-- The wake-up that is owed comes, or is still owed. -/
theorem Rousing.step (h : n.Rousing a) (henabled : n.enabled cfg action = true) :
    ((n.apply cfg db action).actor a).mailbox.wake = true ∨ (n.apply cfg db action).Rousing a := by
  rcases h with ⟨p, call, hp⟩ | ⟨now, i, todo, hsweeper⟩ | ⟨i, todo, stopping, hstopper⟩
  · by_cases hcaller : action.caller = some p
    · left
      rw [eq_killSignal_of_caller henabled hp hcaller]
      exact congrArg (fun actor : LocalActor => actor.mailbox.wake) (setActor_actor_self _ _ _)
    · exact Or.inr (Or.inl ⟨p, call, (thread_apply_of_caller_ne hcaller).trans hp⟩)
  · rcases sweeper_signal_apply henabled hsweeper with rfl | hsame
    · left
      exact congrArg (fun actor : LocalActor => actor.mailbox.wake) (setActor_actor_self _ _ _)
    · exact Or.inr (Or.inr (Or.inl ⟨now, i, todo, hsame.trans hsweeper⟩))
  · rcases stopper_signal_apply henabled hstopper with rfl | hsame
    · left
      exact congrArg (fun actor : LocalActor => actor.mailbox.wake) (setActor_actor_self _ _ _)
    · exact Or.inr (Or.inr (Or.inr ⟨i, todo, stopping, hsame.trans hstopper⟩))

theorem Attending.step (h : n.Attending a) (henabled : n.enabled cfg action = true) :
    ((n.apply cfg db action).actor a).mailbox.wake = true ∨
      (n.apply cfg db action).Attending a := by
  obtain ⟨p, call, hp⟩ := h
  by_cases hcaller : action.caller = some p
  · rcases hp with hp | hp
    · right
      rw [eq_link_of_caller henabled hp hcaller]
      exact ⟨p, call, Or.inr (setThread_thread_self _ _ _)⟩
    · left
      rw [eq_wake_of_caller henabled hp hcaller]
      exact congrArg (fun actor : LocalActor => actor.mailbox.wake) (setActor_actor_self _ _ _)
  · right
    refine ⟨p, call, ?_⟩
    rw [thread_apply_of_caller_ne hcaller]
    exact hp

/-- The one that closes a mailbox owes the wake-up. -/
theorem rousing_of_close (haccepts : (n.actor a).mailbox.status.accepts = true)
    (hstopping : ((n.apply cfg db action).actor a).mailbox.status = .stopping) :
    (n.apply cfg db action).Rousing a := by
  have hnot : (n.actor a).mailbox.status ≠ .stopping := (Status.accepts_iff.mp haccepts).1
  have hback {n' : NodeState} {b : Nat} {actor : LocalActor} (hactor : n'.actor = n.actor)
      (hactor' : actor.mailbox.status = .stopping → (n.actor b).mailbox.status = .stopping)
      (h : ((n'.setActor b actor).actor a).mailbox.status = .stopping) : False := by
    by_cases hab : a = b
    · subst hab
      rw [setActor_actor_self] at h
      exact hnot (hactor' h)
    · rw [setActor_actor_of_ne _ _ hab, hactor] at h
      exact hnot h
  have hother {n' : NodeState} {b : Nat} {actor : LocalActor} (hactor : n'.actor = n.actor)
      (h : ((n'.setActor b actor).actor a).mailbox.status = .stopping) : a = b := by
    by_contra hab
    rw [setActor_actor_of_ne _ _ hab, hactor] at h
    exact hnot h
  cases action with
  | close p call b =>
      obtain rfl : a = b := hother rfl hstopping
      refine Or.inl ⟨p, call, ?_⟩
      simp only [apply, setThread_thread_self, haccepts, if_true]
  | sweepClose now i todo b =>
      obtain rfl : a = b := hother rfl hstopping
      refine Or.inr (Or.inl ⟨now, i, todo, ?_⟩)
      simp only [apply, haccepts, if_true]
  | stopScan i todo stopping b =>
      obtain rfl : a = b := hother rfl hstopping
      refine Or.inr (Or.inr ⟨i, todo.erase a, stopping, ?_⟩)
      simp only [apply, haccepts, if_true]
  | loadSnapshot p call now closeErr =>
      simp only [apply] at hstopping
      split at hstopping <;> exact absurd hstopping hnot
  | loadEvents p call now snapshot closeErr =>
      simp only [apply] at hstopping
      split at hstopping
      · exact absurd hstopping hnot
      · refine (hback rfl ?_ hstopping).elim
        intro hstart
        cases hstart
  | swap p call b | link p call b | wake p call b | killSignal p call b | sweepSignal now i todo b
  | stopSignal i todo stopping b | uncount b | handle b | execute b | emit b | deliver b
  | checkStatus b | wakeUp b =>
      refine (hback rfl ?_ hstopping).elim
      exact id
  | collect d b envs =>
      refine (hback rfl ?_ hstopping).elim
      cases (n.actor b).mailbox.front <;> exact id
  | dequeue b =>
      refine (hback rfl ?_ hstopping).elim
      unfold LocalActor.dequeue
      split <;> exact id
  | exit b =>
      refine (hback rfl ?_ hstopping).elim
      intro hdead
      cases hdead
  | _ => exact absurd hstopping hnot

/-- An actor that waits although its mailbox is closed has a wake-up token, or is owed
one. -/
def Roused (n : NodeState) : Prop :=
  ∀ a, (n.actor a).mailbox.status = .stopping → (n.actor a).loop = .waiting →
    (n.actor a).mailbox.wake = true ∨ n.Rousing a

theorem Roused.step (h : n.Roused) (henabled : n.enabled cfg action = true) :
    (n.apply cfg db action).Roused := by
  intro a hstopping hwaiting
  by_cases haccepts : (n.actor a).mailbox.status.accepts = true
  · exact Or.inr (rousing_of_close haccepts hstopping)
  · have hmove : ActorMove n db action a _ := actorMove_apply henabled a
    -- an actor that waited before, with the token that it had then
    have hkeep (hstatus : (n.actor a).mailbox.status = .stopping)
        (hloop : (n.actor a).loop = .waiting)
        (hwake : (n.actor a).mailbox.wake = true →
          ((n.apply cfg db action).actor a).mailbox.wake = true) :
        ((n.apply cfg db action).actor a).mailbox.wake = true ∨
          (n.apply cfg db action).Rousing a := by
      rcases h a hstatus hloop with hold | hrousing
      · exact Or.inl (hwake hold)
      · exact hrousing.step henabled
    generalize (n.apply cfg db action).actor a = actor at hmove hstopping hwaiting hkeep ⊢
    cases hmove with
    | stay | swap | link | collect => exact hkeep hstopping hwaiting id
    | signal => exact Or.inl rfl
    | stop =>
        rw [LocalActor.stop, if_neg haccepts] at hstopping hwaiting hkeep ⊢
        exact hkeep hstopping hwaiting id
    | checkStatus =>
        rw [if_pos hstopping] at hwaiting
        cases hwaiting
    | dequeue =>
        unfold LocalActor.dequeue at hwaiting
        split at hwaiting <;> cases hwaiting
    | emit res =>
        cases hroute : n.replyRoutes (resultKey res) <;> rw [hroute] at hwaiting <;> cases hwaiting
    | execute =>
        rw [NodeState.execute, setActor_actor_self] at hwaiting
        cases hwaiting
    | install | uncount | handle | deliver | wakeUp | exit => cases hwaiting

/-- An entry that is not linked yet belongs to a call that is about to link it. -/
def Linking (n : NodeState) : Prop :=
  ∀ a, ∀ entry ∈ (n.actor a).mailbox.queue, ∀ p, entry.linking = some p →
    ∃ call, n.thread p = .serving call (.link a)

theorem of_mem_linkEntry {queue : List (Entry RemoteEnvelope)} {entry : Entry RemoteEnvelope}
    {p q : Nat} (hentry : entry ∈ linkEntry q queue) (hlinking : entry.linking = some p) :
    entry ∈ queue ∧ p ≠ q := by
  obtain ⟨old, hold, heq⟩ := List.mem_map.mp hentry
  by_cases hq : old.linking = some q
  · rw [if_pos hq] at heq
    rw [← heq] at hlinking
    cases hlinking
  · rw [if_neg hq] at heq
    subst heq
    refine ⟨hold, ?_⟩
    rintro rfl
    exact hq hlinking

/-- The entries that a step leaves unlinked were there before, or were swapped in. -/
theorem unlinked_back {actor : LocalActor} (hmove : ActorMove n db action a actor)
    {entry : Entry RemoteEnvelope} (hentry : entry ∈ actor.mailbox.queue)
    (hlinking : entry.linking = some p) :
    entry ∈ (n.actor a).mailbox.queue ∨ ∃ call, action = .swap p call a := by
  cases hmove with
  | install => cases hentry
  | stop =>
      rw [(n.actor a).stop_frame.2.1] at hentry
      exact Or.inl hentry
  | swap q call haction =>
      rcases List.mem_append.mp hentry with hold | hnew
      · exact Or.inl hold
      · cases List.mem_singleton.mp hnew
        cases hlinking
        exact Or.inr ⟨call, haction⟩
  | link q call => exact Or.inl (of_mem_linkEntry hentry hlinking).1
  | collect => exact Or.inl (List.mem_of_mem_tail hentry)
  | dequeue =>
      unfold LocalActor.dequeue at hentry
      split at hentry
      · exact Or.inl (List.mem_of_mem_tail hentry)
      · exact Or.inl hentry
  | execute =>
      rw [NodeState.execute, setActor_actor_self] at hentry
      exact Or.inl hentry
  | stay | signal | uncount | handle | emit | deliver | checkStatus | wakeUp | exit =>
      exact Or.inl hentry

theorem Linking.step (h : n.Linking) (henabled : n.enabled cfg action = true) :
    (n.apply cfg db action).Linking := by
  intro a entry hentry p hlinking
  rcases unlinked_back (actorMove_apply henabled a) hentry hlinking with hold | ⟨call, rfl⟩
  · obtain ⟨call, hp⟩ := h a entry hold p hlinking
    have hcaller : action.caller ≠ some p := by
      intro hcaller
      rw [eq_link_of_caller henabled hp hcaller] at hentry
      have hactor : ((n.apply cfg db (.link p call a)).actor a).mailbox.queue =
          linkEntry p (n.actor a).mailbox.queue :=
        congrArg (fun actor : LocalActor => actor.mailbox.queue) (setActor_actor_self _ _ _)
      rw [hactor] at hentry
      exact (of_mem_linkEntry hentry hlinking).2 rfl
    exact ⟨call, (thread_apply_of_caller_ne hcaller).trans hp⟩
  · exact ⟨call, setThread_thread_self _ _ _⟩

/-- An actor that found nothing to take, although its mailbox is not empty, has a wake-up
token or is owed one. -/
def Attended (n : NodeState) : Prop :=
  ∀ a, (n.actor a).loop = .missed ∨ (n.actor a).loop = .waiting →
    (n.actor a).mailbox.queue ≠ [] → (n.actor a).mailbox.wake = true ∨ n.Attending a

theorem Linking.attending (h : n.Linking) (hfront : (n.actor a).mailbox.front = none)
    (hqueue : (n.actor a).mailbox.queue ≠ []) : n.Attending a := by
  obtain ⟨entry, rest, hcons⟩ := List.exists_cons_of_ne_nil hqueue
  cases hlinking : entry.linking with
  | none =>
      have hsome : (n.actor a).mailbox.front = some entry.msg :=
        Mailbox.front_eq_some_iff.mpr ⟨rest, by rw [hcons, ← hlinking]⟩
      rw [hsome] at hfront
      cases hfront
  | some p =>
      obtain ⟨call, hp⟩ := h a entry (by rw [hcons]; exact List.mem_cons_self) p hlinking
      exact ⟨p, call, Or.inl hp⟩

theorem Attended.step (h : n.Attended) (hlinking : n.Linking)
    (henabled : n.enabled cfg action = true) : (n.apply cfg db action).Attended := by
  intro a hloop hqueue
  have hmove : ActorMove n db action a _ := actorMove_apply henabled a
  have howed (hattending : n.Attending a) :
      ((n.apply cfg db action).actor a).mailbox.wake = true ∨
        (n.apply cfg db action).Attending a :=
    hattending.step henabled
  -- an actor that had found nothing before, with the token that it had then
  have hkeep (hbefore : (n.actor a).loop = .missed ∨ (n.actor a).loop = .waiting)
      (hne : (n.actor a).mailbox.queue ≠ [])
      (hwake : (n.actor a).mailbox.wake = true →
        ((n.apply cfg db action).actor a).mailbox.wake = true) :
      ((n.apply cfg db action).actor a).mailbox.wake = true ∨
        (n.apply cfg db action).Attending a := by
    rcases h a hbefore hne with hold | hattending
    · exact Or.inl (hwake hold)
    · exact howed hattending
  generalize (n.apply cfg db action).actor a = actor at hmove hloop hqueue hkeep howed ⊢
  cases hmove with
  | stay => exact hkeep hloop hqueue id
  | signal => exact Or.inl rfl
  | stop =>
      obtain ⟨hstop, hframe, _⟩ := (n.actor a).stop_frame
      rw [hstop] at hloop
      rw [hframe] at hqueue
      refine hkeep hloop hqueue ?_
      unfold LocalActor.stop
      split <;> exact id
  | swap p call haction =>
      subst haction
      exact Or.inr ⟨p, call, Or.inl (setThread_thread_self _ _ _)⟩
  | link p call =>
      refine hkeep hloop ?_ id
      intro hnil
      exact hqueue (by simp [Mailbox.link, linkEntry, hnil])
  | collect d envs env haction hfront =>
      refine hkeep hloop ?_ id
      intro hnil
      rw [Mailbox.front, hnil] at hfront
      cases hfront
  | dequeue =>
      unfold LocalActor.dequeue at hloop hqueue howed ⊢
      split at hloop
      · rcases hloop with hloop | hloop <;> cases hloop
      next hfront =>
        simp only [hfront] at hqueue howed ⊢
        exact howed (hlinking.attending hfront hqueue)
  | checkStatus hmissed => exact hkeep (Or.inl hmissed) hqueue id
  | emit res =>
      cases hroute : n.replyRoutes (resultKey res) <;> rw [hroute] at hloop <;>
        rcases hloop with hloop | hloop <;> cases hloop
  | execute =>
      rw [NodeState.execute, setActor_actor_self] at hloop
      rcases hloop with hloop | hloop <;> cases hloop
  | install | uncount | handle | deliver | wakeUp | exit =>
      rcases hloop with hloop | hloop <;> cases hloop

/-- The holder of a lock works under it. -/
def Held (n : NodeState) : Prop :=
  ∀ holder i, n.lock i = some holder → n.holding holder = some i

namespace Held

variable {n' : NodeState} {i : UInt64}

theorem keep (h : n.Held) (hlock : n'.lock = n.lock)
    (hholding : ∀ holder i, n.holding holder = some i → n'.holding holder = some i) :
    n'.Held := by
  intro holder i hheld
  rw [hlock] at hheld
  exact hholding holder i (h holder i hheld)

theorem acquire (h : n.Held) (holder : Holder) (hnone : n.holding holder = none)
    (hlock : n'.lock = Function.update n.lock i (some holder))
    (hgot : n'.holding holder = some i)
    (hother : ∀ other, other ≠ holder → n'.holding other = n.holding other) : n'.Held := by
  intro other j hheld
  rw [hlock] at hheld
  by_cases hij : j = i
  · subst hij
    rw [Function.update_self] at hheld
    cases hheld
    exact hgot
  · rw [Function.update_of_ne hij] at hheld
    have hj := h other j hheld
    rw [hother other, hj]
    rintro rfl
    rw [hnone] at hj
    cases hj

theorem release (h : n.Held) (holder : Holder) (hheld : n.holding holder = some i)
    (hlock : n'.lock = Function.update n.lock i none)
    (hother : ∀ other, other ≠ holder → n'.holding other = n.holding other) : n'.Held := by
  intro other j hj
  rw [hlock] at hj
  have hij : j ≠ i := by
    rintro rfl
    rw [Function.update_self] at hj
    cases hj
  rw [Function.update_of_ne hij] at hj
  have hbefore := h other j hj
  rw [hother other, hbefore]
  rintro rfl
  exact hij (Option.some.inj (hbefore.symm.trans hheld))

end Held

/-- A call that takes a step other than a load holds no lock. -/
theorem holding_of_caller (henabled : n.enabled cfg action = true)
    (hcaller : action.caller = some p) :
    (n.thread p).holding = none ∨
      (∃ call now closeErr, action = .loadSnapshot p call now closeErr) ∨
      ∃ call now snapshot closeErr, action = .loadEvents p call now snapshot closeErr := by
  cases action with
  | loadSnapshot q call now closeErr =>
      cases hcaller
      exact Or.inr (Or.inl ⟨call, now, closeErr, rfl⟩)
  | loadEvents q call now snapshot closeErr =>
      cases hcaller
      exact Or.inr (Or.inr ⟨call, now, snapshot, closeErr, rfl⟩)
  | finish q sender =>
      cases hcaller
      simp only [enabled, Bool.or_eq_true, decide_eq_true_eq] at henabled
      rcases henabled with hp | hp <;> exact Or.inl (by rw [hp]; rfl)
  | arrive q | gate q | next q | route q | send q | count q | swap q | link q
  | wake q | unroute q | close q | killSignal q | spawn q =>
      cases hcaller
      exact Or.inl (by rw [of_decide_eq_true henabled]; rfl)
  | reject q | push q | owner q | lookup q | create q | forget q | kill q =>
      cases hcaller
      simp only [enabled, Bool.and_eq_true, decide_eq_true_eq] at henabled
      exact Or.inl (by rw [henabled.1]; rfl)
  | _ => cases hcaller

theorem Held.giveUp (h : n.Held) (hp : (n.thread p).holding = some call.key.shardIndex)
    (err : RehydrateError) : (n.giveUp p call err).Held :=
  h.release (.thread p) hp rfl fun _ ho => holding_setThread_of_ne _ _ _ ho

theorem Held.step (h : n.Held) (henabled : n.enabled cfg action = true) :
    (n.apply cfg db action).Held := by
  -- a step of a goroutine that keeps its lock, if it has one
  have hsweeper (n' : NodeState) (hlock : n'.lock = n.lock) (hthread : n'.thread = n.thread)
      (hstopper : n'.stopper = n.stopper)
      (hs : n.sweeper.holding = none ∨ n'.sweeper.holding = n.sweeper.holding) : n'.Held := by
    refine h.keep hlock fun holder i hheld => ?_
    cases holder <;> simp_all [holding]
  have hstopper (n' : NodeState) (hlock : n'.lock = n.lock) (hthread : n'.thread = n.thread)
      (hsweeper : n'.sweeper = n.sweeper)
      (hs : n.stopper.holding = none ∨ n'.stopper.holding = n.stopper.holding) : n'.Held := by
    refine h.keep hlock fun holder i hheld => ?_
    cases holder <;> simp_all [holding]
  have hthread (n' : NodeState) (hlock : n'.lock = n.lock) (hholding : n'.holding = n.holding)
      (p : Nat) (t : Thread)
      (ht : (n.thread p).holding = none ∨ t.holding = (n.thread p).holding) :
      (n'.setThread p t).Held := by
    refine h.keep hlock fun holder i hheld => ?_
    by_cases hp : holder = .thread p
    · subst hp
      rw [holding_setThread_self]
      rcases ht with ht | ht
      · rw [holding, ht] at hheld
        cases hheld
      · rw [ht]
        exact hheld
    · rw [holding_setThread_of_ne _ _ _ hp, hholding]
      exact hheld
  cases action with
  | loadSnapshot p call now closeErr =>
      have hp : n.thread p = .serving call (.loadSnapshot now) := of_decide_eq_true henabled
      simp only [apply]
      split
      · exact h.giveUp (by rw [hp]; rfl) _
      · exact hthread n rfl rfl p _ (Or.inr (by rw [hp]; rfl))
  | loadEvents p call now snapshot closeErr =>
      have hp : n.thread p = .serving call (.loadEvents now snapshot) := of_decide_eq_true henabled
      simp only [apply]
      split
      · exact h.giveUp (by rw [hp]; rfl) _
      · refine h.release (.thread p) ?_ rfl fun _ ho => holding_setThread_of_ne _ _ _ ho
        rw [holding, hp]
        rfl
  | create p call now =>
      simp only [enabled, unlocked, Bool.and_eq_true, decide_eq_true_eq] at henabled
      cases hentry : n.shards call.key with
      | none =>
          simp only [apply, hentry]
          refine h.acquire (.thread p) ?_ rfl (holding_setThread_self _ _ _)
            fun _ ho => holding_setThread_of_ne _ _ _ ho
          rw [holding, henabled.1]
          rfl
      | some a =>
          simp only [apply, hentry]
          refine hthread (n.setLock call.key.shardIndex none) ?_ rfl p _
            (Or.inl (by rw [henabled.1]; rfl))
          rw [setLock, ← henabled.2]
          exact Function.update_eq_self _ _
  | sweepLock now i =>
      simp only [enabled, Bool.and_eq_true, decide_eq_true_eq] at henabled
      refine h.acquire .sweeper ?_ rfl rfl fun other ho => ?_
      · rw [holding, henabled.1.1]
        rfl
      · cases other <;> first | rfl | exact absurd rfl ho
  | sweepUnlock now i =>
      have hi : n.sweeper = .scan now i [] := of_decide_eq_true henabled
      refine h.release .sweeper ?_ rfl fun other ho => ?_
      · rw [holding, hi]
        rfl
      · cases other <;> first | rfl | exact absurd rfl ho
  | stopLock i stopping =>
      simp only [enabled, Bool.and_eq_true, decide_eq_true_eq] at henabled
      refine h.acquire .stopper ?_ rfl rfl fun other ho => ?_
      · rw [holding, henabled.1.1]
        rfl
      · cases other <;> first | rfl | exact absurd rfl ho
  | stopUnlock i stopping =>
      have hi : n.stopper = .scan i [] stopping := of_decide_eq_true henabled
      refine h.release .stopper ?_ rfl fun other ho => ?_
      · rw [holding, hi]
        rfl
      · cases other <;> first | rfl | exact absurd rfl ho
  | sweepScan now i todo a =>
      simp only [enabled, Bool.and_eq_true, decide_eq_true_eq] at henabled
      refine hsweeper _ rfl rfl rfl (Or.inr ?_)
      rw [henabled.1, apply]
      dsimp only
      split <;> rfl
  | sweepClose now i todo a =>
      refine hsweeper _ rfl rfl rfl (Or.inr ?_)
      rw [of_decide_eq_true henabled, apply]
      dsimp only
      split <;> rfl
  | sweepSignal =>
      exact hsweeper _ rfl rfl rfl (Or.inr (by rw [of_decide_eq_true henabled]; rfl))
  | sweep | sweepRest =>
      exact hsweeper _ rfl rfl rfl (Or.inl (by rw [of_decide_eq_true henabled]; rfl))
  | sweepReturn =>
      simp only [enabled, Bool.and_eq_true, decide_eq_true_eq] at henabled
      exact hsweeper _ rfl rfl rfl (Or.inl (by rw [henabled.1]; rfl))
  | stopScan i todo stopping a =>
      simp only [enabled, Bool.and_eq_true, decide_eq_true_eq] at henabled
      refine hstopper _ rfl rfl rfl (Or.inr ?_)
      rw [henabled.1, apply]
      dsimp only
      split <;> rfl
  | stopSignal =>
      exact hstopper _ rfl rfl rfl (Or.inr (by rw [of_decide_eq_true henabled]; rfl))
  | stop | stopAwait | closeDone =>
      exact hstopper _ rfl rfl rfl (Or.inl (by rw [of_decide_eq_true henabled]; rfl))
  | stopNext | stopReturn =>
      simp only [enabled, Bool.and_eq_true, decide_eq_true_eq] at henabled
      exact hstopper _ rfl rfl rfl (Or.inl (by simp only [henabled]; rfl))
  | arrive p | gate p | next p | finish p | owner p | lookup p | reject p | push p | route p
  | send p | count p | swap p | link p | wake p | unroute p | forget p | kill p | close p
  | killSignal p | spawn p =>
      refine hthread _ rfl rfl p _ (Or.inl ?_)
      rcases holding_of_caller henabled rfl with hnone | ⟨_, _, _, hload⟩ | ⟨_, _, _, _, hload⟩
      · exact hnone
      · cases hload
      · cases hload
  | await | collect | drainUncount | answer | drainPush | drainEnd | dequeue | uncount | handle
  | execute | emit | deliver | checkStatus | wakeUp | exit | receive | tick | takeDone | flush
  | respond | flushEnd => exact h.keep rfl fun _ _ => id

end NodeState

/-- The sweep visits the shards up to their number. -/
def Sweeper.Bounded : Sweeper → Prop
  | .lock _ i => i ≤ shardCount
  | .scan _ i _ | .close _ i _ _ | .signal _ i _ _ => i < shardCount
  | .resting | .returned => True

def Stopper.Bounded : Stopper → Prop
  | .lock i _ => i ≤ shardCount
  | .scan i _ _ | .signal i _ _ _ => i < shardCount
  | .uncalled | .await _ | .join | .returned => True

/-- The actors that `Stop` waits for or is about to wait for. -/
def Stopper.told : Stopper → List Nat
  | .lock _ stopping | .scan _ _ stopping | .await stopping => stopping
  | .signal _ _ stopping a => a :: stopping
  | .uncalled | .join | .returned => []

/-- The actors of the shard that `Stop` has not visited. -/
def Stopper.todo : Stopper → List Nat
  | .scan _ todo _ | .signal _ todo _ _ => todo
  | _ => []

namespace NodeState

variable {cfg : Config} {n : NodeState} {db : Database} {action : Action} {a p : Nat}
  {call : Call}

/-- The order of `Stop` and of the loops that it ends. -/
structure Staged (n : NodeState) : Prop where
  sweeper : n.sweeper.Bounded
  stopper : n.stopper.Bounded
  closing : n.aggregator.closing = true → n.done = true
  done : n.done = true ↔ n.stopper = .join ∨ n.stopper = .returned

theorem Staged.step (h : n.Staged) (henabled : n.enabled cfg action = true) :
    (n.apply cfg db action).Staged := by
  have hsweeper := h.sweeper
  have hstopper := h.stopper
  -- a step of `Stop` before it closes `done`
  have hbefore {n' : NodeState} (hbounded : n'.stopper.Bounded) (hsweeper' : n'.sweeper = n.sweeper)
      (haggregator : n'.aggregator = n.aggregator) (hdone : n'.done = n.done)
      (hstage : ¬ (n.stopper = .join ∨ n.stopper = .returned))
      (hstage' : ¬ (n'.stopper = .join ∨ n'.stopper = .returned)) : n'.Staged := by
    refine ⟨by rw [hsweeper']; exact h.sweeper, hbounded, ?_, ?_⟩
    · rw [haggregator, hdone]
      exact h.closing
    · rw [hdone]
      exact iff_of_false (fun htrue => hstage (h.done.mp htrue)) hstage'
  cases action with
  | loadSnapshot | loadEvents =>
      simp only [apply]
      split <;> exact ⟨h.sweeper, h.stopper, h.closing, h.done⟩
  | sweep => exact ⟨Nat.zero_le _, h.stopper, h.closing, h.done⟩
  | sweepLock now i =>
      simp only [enabled, Bool.and_eq_true, decide_eq_true_eq] at henabled
      exact ⟨henabled.1.2, h.stopper, h.closing, h.done⟩
  | sweepScan now i todo a =>
      simp only [enabled, Bool.and_eq_true, decide_eq_true_eq] at henabled
      rw [henabled.1] at hsweeper
      refine ⟨?_, h.stopper, h.closing, h.done⟩
      simp only [apply]
      split <;> exact hsweeper
  | sweepClose now i todo a =>
      rw [of_decide_eq_true henabled] at hsweeper
      refine ⟨?_, h.stopper, h.closing, h.done⟩
      simp only [apply]
      split <;> exact hsweeper
  | sweepSignal now i todo a =>
      rw [of_decide_eq_true henabled] at hsweeper
      exact ⟨hsweeper, h.stopper, h.closing, h.done⟩
  | sweepUnlock now i =>
      rw [of_decide_eq_true henabled] at hsweeper
      exact ⟨hsweeper, h.stopper, h.closing, h.done⟩
  | sweepRest | sweepReturn => exact ⟨trivial, h.stopper, h.closing, h.done⟩
  | stop =>
      exact hbefore (Nat.zero_le _) rfl rfl rfl (by simp [of_decide_eq_true henabled])
        (by simp [apply])
  | stopLock i stopping =>
      simp only [enabled, Bool.and_eq_true, decide_eq_true_eq] at henabled
      exact hbefore henabled.1.2 rfl rfl rfl (by simp [henabled.1.1]) (by simp [apply])
  | stopScan i todo stopping a =>
      simp only [enabled, Bool.and_eq_true, decide_eq_true_eq] at henabled
      rw [henabled.1] at hstopper
      refine hbefore ?_ rfl rfl rfl (by simp [henabled.1]) ?_
      · simp only [apply]
        split <;> exact hstopper
      · simp only [apply]
        split <;> simp
  | stopSignal i todo stopping a =>
      rw [of_decide_eq_true henabled] at hstopper
      exact hbefore hstopper rfl rfl rfl (by simp [of_decide_eq_true henabled]) (by simp [apply])
  | stopUnlock i stopping =>
      rw [of_decide_eq_true henabled] at hstopper
      exact hbefore hstopper rfl rfl rfl (by simp [of_decide_eq_true henabled]) (by simp [apply])
  | stopAwait stopping =>
      exact hbefore trivial rfl rfl rfl (by simp [of_decide_eq_true henabled]) (by simp [apply])
  | stopNext a stopping =>
      simp only [enabled, Bool.and_eq_true, decide_eq_true_eq] at henabled
      exact hbefore trivial rfl rfl rfl (by simp [henabled.1]) (by simp [apply])
  | closeDone => exact ⟨h.sweeper, trivial, fun _ => rfl, iff_of_true rfl (Or.inl rfl)⟩
  | stopReturn =>
      simp only [enabled, Bool.and_eq_true, decide_eq_true_eq] at henabled
      have hdone := h.done.mpr (Or.inl henabled.1.1)
      exact ⟨h.sweeper, trivial, h.closing, iff_of_true hdone (Or.inr rfl)⟩
  | receive queued rest =>
      refine ⟨h.sweeper, h.stopper, ?_, h.done⟩
      simp only [apply]
      split <;> simp [Aggregator.closing]
  | tick => exact ⟨h.sweeper, h.stopper, by simp [apply, Aggregator.closing], h.done⟩
  | takeDone =>
      simp only [enabled, Bool.and_eq_true, decide_eq_true_eq] at henabled
      exact ⟨h.sweeper, h.stopper, fun _ => henabled.2, h.done⟩
  | flush last order =>
      simp only [enabled, Bool.and_eq_true, decide_eq_true_eq] at henabled
      have hclosing := h.closing
      rw [henabled.1] at hclosing
      exact ⟨h.sweeper, h.stopper, hclosing, h.done⟩
  | respond response rest last =>
      have hclosing := h.closing
      rw [of_decide_eq_true henabled] at hclosing
      exact ⟨h.sweeper, h.stopper, hclosing, h.done⟩
  | flushEnd last =>
      have hclosing := h.closing
      rw [of_decide_eq_true henabled] at hclosing
      refine ⟨h.sweeper, h.stopper, ?_, h.done⟩
      cases last with
      | true => exact fun _ => hclosing rfl
      | false => simp [apply, Aggregator.closing]
  | _ => exact ⟨h.sweeper, h.stopper, h.closing, h.done⟩

/-- The actor has been told to stop. -/
def Told (n : NodeState) (a : Nat) : Prop := a < n.started ∧ (n.actor a).Refuses

theorem Told.step (h : n.Told a) (henabled : n.enabled cfg action = true) :
    (n.apply cfg db action).Told a :=
  ⟨Nat.lt_of_lt_of_le h.1 (started_le_apply cfg n db action),
    (actorMove_apply henabled a).refuses h.1 h.2⟩

theorem told_setActor (n' : NodeState) (hstarted : a < n'.started) :
    (n'.setActor a (n.actor a).stop).Told a := by
  refine ⟨hstarted, ?_⟩
  rw [setActor_actor_self]
  exact LocalActor.refuses_stop _

/-- Whoever is waited for has been told to stop. -/
structure Awaited (n : NodeState) : Prop where
  threads : ∀ p call a,
    n.thread p = .serving call (.killSignal a) ∨ n.thread p = .serving call (.spawn a) → n.Told a
  drains : ∀ d a, (n.drain d).target = some a → n.Told a
  stopper : ∀ a ∈ n.stopper.told, n.Told a
  todo : ∀ a ∈ n.stopper.todo, a < n.started

theorem eq_close_of_caller (henabled : n.enabled cfg action = true)
    (hp : n.thread p = .serving call (.close a)) (hcaller : action.caller = some p) :
    action = .close p call a := by
  cases action <;> simp_all [Action.caller, enabled]

theorem Awaited.threads_step (h : n.Awaited) (hw : n.Wellformed)
    (henabled : n.enabled cfg action = true) {pc : Serving}
    (hpc : pc = .killSignal a ∨ pc = .spawn a)
    (hp : (n.apply cfg db action).thread p = .serving call pc) :
    (n.apply cfg db action).Told a := by
  -- a call that closes the mailbox
  have hclose (hbefore : n.thread p = .serving call (.close a)) :
      (n.apply cfg db action).Told a := by
    have hcaller : action.caller = some p := by
      by_contra hcaller
      rw [thread_apply_of_caller_ne hcaller, hbefore] at hp
      cases hp
      rcases hpc with hpc | hpc <;> cases hpc
    rw [eq_close_of_caller henabled hbefore hcaller]
    exact told_setActor n (hw.targets p call _ a hbefore rfl).1
  have hmove : ThreadMove n db action p ((n.apply cfg db action).thread p) :=
    threadMove_apply henabled p
  rw [hp] at hmove
  generalize ht : Thread.serving call pc = t at hmove
  cases hmove with
  | stay =>
      refine (h.threads p call a ?_).step henabled
      rcases hpc with rfl | rfl
      · exact Or.inl ht.symm
      · exact Or.inr ht.symm
  | serve =>
      cases ht
      rcases hpc with hpc | hpc <;> cases hpc
  | go call' pc₀ pc' hbefore hserving =>
      cases ht
      rcases hpc with rfl | rfl
      · cases hserving with
        | close => exact hclose hbefore
      · cases hserving with
        | closed => exact hclose hbefore
        | signal => exact (h.threads p call a (Or.inl hbefore)).step henabled
  | _ => cases ht

theorem Awaited.stopper_step (h : n.Awaited) (henabled : n.enabled cfg action = true) :
    (∀ a ∈ (n.apply cfg db action).stopper.told, (n.apply cfg db action).Told a) ∧
      ∀ a ∈ (n.apply cfg db action).stopper.todo, a < (n.apply cfg db action).started := by
  have hkeep (htold : (n.apply cfg db action).stopper.told ⊆ n.stopper.told)
      (htodo : (n.apply cfg db action).stopper.todo ⊆ n.stopper.todo) :
      (∀ a ∈ (n.apply cfg db action).stopper.told, (n.apply cfg db action).Told a) ∧
        ∀ a ∈ (n.apply cfg db action).stopper.todo, a < (n.apply cfg db action).started := by
    refine ⟨fun a ha => (h.stopper a (htold ha)).step henabled, fun a ha => ?_⟩
    exact Nat.lt_of_lt_of_le (h.todo a (htodo ha)) (started_le_apply cfg n db action)
  have hsame (hstopper : (n.apply cfg db action).stopper = n.stopper) := hkeep
    (by rw [hstopper]; exact List.Subset.refl _) (by rw [hstopper]; exact List.Subset.refl _)
  cases action with
  | loadSnapshot | loadEvents =>
      apply hsame
      simp only [apply]
      split <;> rfl
  | stop | closeDone | stopReturn => exact hkeep (List.nil_subset _) (List.nil_subset _)
  | stopLock i stopping =>
      simp only [enabled, Bool.and_eq_true, decide_eq_true_eq] at henabled
      have htold := h.stopper
      rw [henabled.1.1] at htold
      refine ⟨htold, fun a ha => ?_⟩
      exact List.mem_range.mp (List.mem_of_mem_filter ha)
  | stopScan i todo stopping b =>
      simp only [enabled, Bool.and_eq_true, decide_eq_true_eq] at henabled
      have htold := h.stopper
      have htodo := h.todo
      rw [henabled.1] at htold htodo
      have hb : (n.apply cfg db (.stopScan i todo stopping b)).Told b :=
        told_setActor n (htodo b henabled.2)
      have hrest : ∀ a ∈ stopping, (n.apply cfg db (.stopScan i todo stopping b)).Told a := by
        intro a ha
        refine (htold a ha).step ?_
        simp [enabled, henabled.1, henabled.2]
      have herase : ∀ a ∈ todo.erase b, a < n.started :=
        fun a ha => htodo a (List.mem_of_mem_erase ha)
      by_cases haccepts : (n.actor b).mailbox.status.accepts = true
      · have hstopper : (n.apply cfg db (.stopScan i todo stopping b)).stopper =
            .signal i (todo.erase b) stopping b := if_pos haccepts
        rw [hstopper]
        refine ⟨fun a ha => ?_, herase⟩
        rcases List.mem_cons.mp ha with rfl | ha
        · exact hb
        · exact hrest a ha
      · have hstopper : (n.apply cfg db (.stopScan i todo stopping b)).stopper =
            .scan i (todo.erase b) (stopping ++ [b]) := if_neg haccepts
        rw [hstopper]
        refine ⟨fun a ha => ?_, herase⟩
        rcases List.mem_append.mp ha with ha | ha
        · exact hrest a ha
        · rw [List.mem_singleton.mp ha]
          exact hb
  | stopSignal i todo stopping b =>
      refine hkeep ?_ ?_
      · rw [of_decide_eq_true henabled]
        intro a ha
        rcases List.mem_append.mp ha with ha | ha
        · exact List.mem_cons_of_mem _ ha
        · rw [List.mem_singleton.mp ha]
          exact List.mem_cons_self
      · rw [of_decide_eq_true henabled]
        exact List.Subset.refl _
  | stopUnlock i stopping =>
      refine hkeep ?_ (List.nil_subset _)
      rw [of_decide_eq_true henabled]
      exact List.Subset.refl _
  | stopAwait stopping =>
      refine hkeep ?_ (List.nil_subset _)
      rw [of_decide_eq_true henabled]
      exact List.Subset.refl _
  | stopNext a stopping =>
      simp only [enabled, Bool.and_eq_true, decide_eq_true_eq] at henabled
      refine hkeep ?_ (List.nil_subset _)
      rw [henabled.1]
      exact List.subset_cons_self _ _
  | _ => exact hsame rfl

theorem Awaited.step (h : n.Awaited) (hw : n.Wellformed) (henabled : n.enabled cfg action = true) :
    (n.apply cfg db action).Awaited where
  threads p call a hp := by
    rcases hp with hp | hp
    · exact h.threads_step hw henabled (Or.inl rfl) hp
    · exact h.threads_step hw henabled (Or.inr rfl) hp
  drains d a ha := by
    rcases (drainMove_apply henabled d).target_back ha with hold | ⟨p, call, rfl, _⟩
    · exact (h.drains d a hold).step henabled
    · exact (h.threads p call a (Or.inr (of_decide_eq_true henabled))).step henabled
  stopper := (h.stopper_step henabled).1
  todo := (h.stopper_step henabled).2

/-- What the goroutines owe each other. -/
structure Obliged (n : NodeState) : Prop where
  wellformed : n.Wellformed
  held : n.Held
  roused : n.Roused
  linking : n.Linking
  attended : n.Attended
  staged : n.Staged
  awaited : n.Awaited

theorem obliged_newNode : newNode.Obliged where
  wellformed := wellformed_newNode
  held _ _ hlock := by cases hlock
  roused _ hstatus := by cases hstatus
  linking _ _ hentry := by cases hentry
  attended _ hloop := by rcases hloop with hloop | hloop <;> cases hloop
  staged := ⟨trivial, trivial, by simp [newNode, Aggregator.closing], by simp [newNode]⟩
  awaited := by
    refine ⟨?_, ?_, ?_, ?_⟩
    · intro p call a hp
      rcases hp with hp | hp <;> cases hp
    · intro d a hd
      cases hd
    · intro a ha
      cases ha
    · intro a ha
      cases ha

theorem Obliged.step (h : n.Obliged) (henabled : n.enabled cfg action = true) :
    (n.apply cfg db action).Obliged where
  wellformed := h.wellformed.step henabled
  held := h.held.step henabled
  roused := h.roused.step henabled
  linking := h.linking.step henabled
  attended := h.attended.step h.linking henabled
  staged := h.staged.step henabled
  awaited := h.awaited.step h.wellformed henabled

end NodeState

theorem obliged_of_reachable {cfg : Config} {r : NodeRun} (hr : (node cfg).Reachable r) :
    r.node.Obliged := by
  apply System.Reachable.invariant (P := fun r : NodeRun => r.node.Obliged) _ _ hr
  · exact NodeState.obliged_newNode
  · intro r event t h hstep
    obtain ⟨henabled, rfl⟩ := System.guarded_step_eq_some_iff.mp hstep
    cases event with
    | act action => exact h.step henabled
    | land key snapshot => exact h

end ActorCluster.Node
