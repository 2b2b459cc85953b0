import ActorCluster.Runtime.Lifecycle

/-! # The mailbox is a queue

The history of an actor accounts for every message swapped into its mailbox:
it has been handled, drained, is about to be handled, or is still queued, in
this order. With the shape of the queues this makes the mailbox first-in
first-out, and lets the machine refine the abstract mailbox step by step.
-/

namespace ActorCluster.Runtime

open Transition Custody

variable {Msg : Type}

/-- The consumer has taken a node whose message it has yet to handle. -/
def Loop.delivering : Loop → Bool
  | .recycle _ _ (some _) | .handle _ => true
  | _ => false

namespace Machine

/-- The message that has left the queue and has not been handled yet. -/
def inHand (s : Machine Msg) (a : Nat) : List (Option Msg) :=
  if (s.actor a).loop.delivering then [(s.heap (s.actor a).head).msg] else []

/-- Where the messages swapped into each mailbox have gone. -/
structure Recorded (s : Machine Msg) (queue : Nat → List (Entry (Option Msg))) : Prop where
  history : ∀ a, s.swaps a =
    s.handled a ++ s.drained a ++ s.inHand a ++ (queue a).map Entry.msg
  undrained : ∀ a, (s.actor a).loop.draining = false → s.drained a = []

namespace Recorded

variable {s s' : Machine Msg} {queue : Nat → List (Entry (Option Msg))}

/-- A step that moves no message, and changes neither the message of a head
nor what a consumer is about to do with it. -/
theorem congr (h : Recorded s queue) (hswaps : s'.swaps = s.swaps)
    (hhandled : s'.handled = s.handled) (hdrained : s'.drained = s.drained)
    (hinHand : ∀ a, s'.inHand a = s.inHand a)
    (hdraining : ∀ a, (s'.actor a).loop.draining = false → (s.actor a).loop.draining = false) :
    Recorded s' queue where
  history a := by rw [hswaps, hhandled, hdrained, hinHand, h.history]
  undrained a ha := by
    rw [hdrained]
    exact h.undrained a (hdraining a ha)

/-- A goroutine moves on. -/
theorem setThread (h : Recorded s queue) (p : Nat) (t : Thread Msg) :
    Recorded (s.setThread p t) queue :=
  h.congr rfl rfl rfl (fun _ => rfl) fun _ ha => ha

/-- An actor moves on with the same message in hand. -/
theorem setActor (h : Recorded s queue) (a : Nat) (actor : Actor)
    (hhead : actor.head = (s.actor a).head)
    (hdelivering : actor.loop.delivering = (s.actor a).loop.delivering)
    (hdraining : actor.loop.draining = false → (s.actor a).loop.draining = false) :
    Recorded (s.setActor a actor) queue := by
  refine h.congr rfl rfl rfl (fun b => ?_) fun b hb => ?_
  · by_cases hba : b = a
    · subst hba
      unfold inHand
      rw [setActor_actor_self, hhead, hdelivering]
      rfl
    · unfold inHand
      rw [s.setActor_actor_of_ne actor hba]
      rfl
  · by_cases hba : b = a
    · subst hba
      rw [setActor_actor_self] at hb
      exact hdraining hb
    · rwa [s.setActor_actor_of_ne actor hba] at hb

/-- A write that spares the messages of the heads. -/
theorem setEnvelope (h : Recorded s queue) (addr : Addr) (env : Envelope Msg)
    (hmsg : ∀ a, (s.actor a).head = addr → (s.actor a).loop.delivering = true →
      env.msg = (s.heap addr).msg) :
    Recorded (s.setEnvelope addr env) queue := by
  refine h.congr rfl rfl rfl (fun a => ?_) fun _ ha => ha
  change (if (s.actor a).loop.delivering then
    [((s.setEnvelope addr env).heap (s.actor a).head).msg] else []) = s.inHand a
  unfold inHand
  by_cases hdelivering : (s.actor a).loop.delivering = true
  · rw [if_pos hdelivering, if_pos hdelivering]
    by_cases haddr : (s.actor a).head = addr
    · rw [haddr, setEnvelope_heap_self, hmsg a haddr hdelivering]
    · rw [s.setEnvelope_heap_of_ne env haddr]
  · rw [if_neg hdelivering, if_neg hdelivering]

/-- Linking an entry moves no message. -/
theorem linkEntry (h : Recorded s queue) (p a : Nat) :
    Recorded s (Function.update queue a (Runtime.linkEntry p (queue a))) where
  history b := by
    rw [h.history b]
    by_cases hb : b = a
    · subst hb
      rw [Function.update_self, map_msg_linkEntry]
    · rw [Function.update_of_ne hb]
  undrained := h.undrained

/-- A tail swap records the message and queues it. -/
theorem swap (h : Recorded s queue) (p a : Nat) (msg : Option Msg) :
    Recorded { s with swaps := Function.update s.swaps a (s.swaps a ++ [msg]) }
      (Function.update queue a (queue a ++ [⟨msg, some p⟩])) where
  history b := by
    by_cases hb : b = a
    · subst hb
      change Function.update s.swaps b (s.swaps b ++ [msg]) b =
        s.handled b ++ s.drained b ++ s.inHand b ++ _
      rw [Function.update_self, Function.update_self, h.history b]
      simp
    · change Function.update s.swaps a (s.swaps a ++ [msg]) b =
        s.handled b ++ s.drained b ++ s.inHand b ++ _
      rw [Function.update_of_ne hb, Function.update_of_ne hb, h.history b]
  undrained := h.undrained

/-- The consumer takes the oldest message in hand. -/
theorem advance (h : Recorded s queue) {a : Nat} {next : Addr} {actor : Actor}
    {entry : Entry (Option Msg)} {entries : List (Entry (Option Msg))}
    (hqueue : queue a = entry :: entries) (hmsg : (s.heap next).msg = entry.msg)
    (hidle : (s.actor a).loop.delivering = false) (halive : (s.actor a).loop.draining = false)
    (hhead : actor.head = next) (hdelivering : actor.loop.delivering = true) :
    Recorded (s.setActor a actor) (Function.update queue a (queue a).tail) where
  history b := by
    by_cases hb : b = a
    · subst hb
      have hhistory := h.history b
      rw [inHand, if_neg (by simp [hidle]), hqueue] at hhistory
      rw [inHand, setActor_actor_self, if_pos hdelivering, hhead, Function.update_self, hqueue]
      change s.swaps b = s.handled b ++ s.drained b ++ [(s.heap next).msg] ++ _
      rw [hhistory, hmsg]
      simp
    · rw [inHand, s.setActor_actor_of_ne actor hb, Function.update_of_ne hb]
      exact h.history b
  undrained b hb := by
    by_cases hba : b = a
    · subst hba
      exact h.undrained b halive
    · rw [s.setActor_actor_of_ne actor hba] at hb
      exact h.undrained b hb

/-- The consumer hands its message to the handler. -/
theorem handle (h : Recorded s queue) {a : Nat} (actor : Actor)
    (hdelivering : (s.actor a).loop.delivering = true)
    (halive : (s.actor a).loop.draining = false) (hdone : actor.loop.delivering = false) :
    Recorded { s.setActor a actor with
      handled := Function.update s.handled a (s.handled a ++ [(s.heap (s.actor a).head).msg]) }
      queue where
  history b := by
    by_cases hb : b = a
    · subst hb
      have hhistory := h.history b
      rw [inHand, if_pos hdelivering, h.undrained b halive] at hhistory
      change s.swaps b = Function.update s.handled b _ b ++ s.drained b ++
        (if ((s.setActor b actor).actor b).loop.delivering then _ else []) ++ _
      rw [Function.update_self, setActor_actor_self, if_neg (by simp [hdone]), h.undrained b halive,
        hhistory]
      simp
    · have hhistory := h.history b
      change s.swaps b = Function.update s.handled a _ b ++ s.drained b ++
        (if ((s.setActor a actor).actor b).loop.delivering then _ else []) ++ _
      rw [Function.update_of_ne hb, s.setActor_actor_of_ne actor hb]
      exact hhistory
  undrained b hb := by
    change s.drained b = []
    by_cases hba : b = a
    · subst hba
      exact h.undrained b halive
    · refine h.undrained b ?_
      have hsame := s.setActor_actor_of_ne actor hba
      exact (congrArg (fun actor : Actor => actor.loop.draining) hsame).symm.trans hb

/-- `Drain` takes the oldest message. -/
theorem drain (h : Recorded s queue) {a : Nat} {next : Addr} (actor : Actor)
    {entry : Entry (Option Msg)} {entries : List (Entry (Option Msg))}
    (hqueue : queue a = entry :: entries) (hmsg : (s.heap next).msg = entry.msg)
    (hidle : (s.actor a).loop.delivering = false) (hidle' : actor.loop.delivering = false)
    (hdraining : actor.loop.draining = true) :
    Recorded { s.setActor a actor with
      drained := Function.update s.drained a (s.drained a ++ [(s.heap next).msg]) }
      (Function.update queue a (queue a).tail) where
  history b := by
    by_cases hb : b = a
    · subst hb
      have hhistory := h.history b
      rw [inHand, if_neg (by simp [hidle]), hqueue] at hhistory
      change s.swaps b = s.handled b ++ Function.update s.drained b _ b ++
        (if ((s.setActor b actor).actor b).loop.delivering then _ else []) ++ _
      rw [Function.update_self, Function.update_self, setActor_actor_self,
        if_neg (by simp [hidle']), hhistory, hqueue, hmsg]
      simp
    · have hhistory := h.history b
      change s.swaps b = s.handled b ++ Function.update s.drained a _ b ++
        (if ((s.setActor a actor).actor b).loop.delivering then _ else []) ++ _
      rw [Function.update_of_ne hb, Function.update_of_ne hb, s.setActor_actor_of_ne actor hb]
      exact hhistory
  undrained b hb := by
    by_cases hba : b = a
    · subst hba
      change ((s.setActor b actor).actor b).loop.draining = false at hb
      rw [setActor_actor_self, hdraining] at hb
      cases hb
    · change Function.update s.drained a _ b = []
      change ((s.setActor a actor).actor b).loop.draining = false at hb
      rw [s.setActor_actor_of_ne actor hba] at hb
      rw [Function.update_of_ne hba]
      exact h.undrained b hb

section Step

variable [DecidableEq Msg] {nodes : Nat → List Addr}

/-- Every step accounts for the message it moves. -/
theorem step (h : Recorded s queue) (hqueued : Queued s nodes queue) (howned : Owned s nodes)
    {action : Action Msg} (henabled : s.enabled action = true) :
    Recorded (s.apply action) (s.queueAfter queue action) := by
  -- the nodes that goroutines and recycling consumers write are no heads
  have hthread {p : Nat} {addr : Addr} {env : Envelope Msg} (hp : (s.thread p).owned = [addr]) :
      Recorded (s.setEnvelope addr env) queue := by
    refine h.setEnvelope _ _ fun a haddr _ => ?_
    have hapart := howned.thread_apart (show addr ∈ (s.thread p).owned by simp [hp]) a
    exact absurd List.mem_cons_self (haddr ▸ hapart)
  have hnext (addr : Addr) (next : Option Addr) : Recorded (s.storeNext addr next) queue :=
    h.setEnvelope _ _ fun _ _ _ => rfl
  cases action with
  | send p a msg | sendEnvelope p a env | callStop p a | stop p a => exact h.setThread _ _
  | get p a msg qnode | getEnvelope p env | count p a qnode | poolPut p env =>
      exact h.congr rfl rfl rfl (fun _ => rfl) fun _ hb => hb
  | fill p a msg qnode =>
      have hp : s.thread p = .fill a msg qnode := by simpa [enabled] using henabled
      exact (hthread (show (s.thread p).owned = [qnode] by rw [hp]; rfl)).setThread _ _
  | reset p a qnode => exact (hnext _ _).setThread _ _
  | swap p a qnode =>
      exact ((h.swap p a (s.heap qnode).msg).setActor a { s.actor a with tail := qnode }
        rfl rfl id).setThread _ _
  | link p a qnode prev ticket => exact ((hnext _ _).linkEntry p a).setThread _ _
  | signal p a ticket =>
      exact (h.setActor a { s.actor a with wake := true } rfl rfl id).congr rfl rfl rfl
        (fun _ => rfl) fun _ hb => hb
  | setMsg p env msg =>
      have hp : s.thread p = .holding env := by simpa [enabled] using henabled
      exact hthread (show (s.thread p).owned = [env] by rw [hp]; rfl)
  | putEnvelope p env =>
      have hp : s.thread p = .holding env := by simpa [enabled] using henabled
      exact (hthread (show (s.thread p).owned = [env] by rw [hp]; rfl)).setThread _ _
  | putClearNext p env => exact (hnext _ _).setThread _ _
  | compareAndSwap p a st | stopSignal p a =>
      refine (h.setActor a _ ?_ ?_ ?_).setThread _ _
      · rfl
      · rfl
      · exact id
  | start a =>
      have ha : (s.actor a).status = .init := by simpa [enabled] using henabled
      have hloop := (hqueued.sound a).unstarted ha
      exact h.setActor a _ rfl (by rw [hloop]; rfl) fun _ => by rw [hloop]; rfl
  | peek a =>
      have ha : (s.actor a).loop = .dequeue := by simpa [enabled] using henabled
      refine h.setActor a _ rfl ?_ fun _ => by rw [ha]; rfl
      rw [ha]
      cases (s.heap (s.actor a).head).next <;> rfl
  | advance a next =>
      have ha : (s.actor a).loop = .advance next := by simpa [enabled] using henabled
      obtain ⟨_, entry, entries, _, hqueue, _, hmsg, _⟩ :=
        hqueued.front (hqueued.ahead a next (by rw [ha]; rfl))
      exact h.advance hqueue hmsg (by rw [ha]; rfl) (by rw [ha]; rfl) rfl rfl
  | recycle a stage old qnode =>
      have ha : (s.actor a).loop = .recycle stage old qnode := by simpa [enabled] using henabled
      have hdelivering (stage' : Recycle) :
          (Loop.recycle stage' old qnode).delivering = (s.actor a).loop.delivering := by
        rw [ha]
        cases qnode <;> rfl
      have hdraining (stage' : Recycle)
          (hfalse : (Loop.recycle stage' old qnode).draining = false) :
          (s.actor a).loop.draining = false := by
        rw [ha]
        cases qnode with
        | none => cases hfalse
        | some => rfl
      cases stage with
      | count =>
          have h' (delta : UInt64) : Recorded (s.addPending delta) queue :=
            h.congr rfl rfl rfl (fun _ => rfl) fun _ hb => hb
          exact (h' _).setActor a _ rfl (hdelivering _) (hdraining _)
      | clearMsg =>
          have hold : old ∈ (s.actor a).loop.recycling := by
            rw [ha]
            exact List.mem_cons_self
          have h' : Recorded (s.storeMsg old none) queue := h.setEnvelope _ _ fun b hb _ =>
            absurd List.mem_cons_self (hb ▸ howned.recycling_apart hold b)
          exact h'.setActor a _ rfl (hdelivering _) (hdraining _)
      | clearNext => exact (hnext _ _).setActor a _ rfl (hdelivering _) (hdraining _)
      | put =>
          have h' : Recorded (s.poolPut old) queue :=
            h.congr rfl rfl rfl (fun _ => rfl) fun _ hb => hb
          refine h'.setActor a _ rfl ?_ ?_
          · exact Eq.trans (by cases qnode <;> rfl) (hdelivering .put)
          · intro hfalse
            exact hdraining .put (Eq.trans (by cases qnode <;> rfl) hfalse)
  | handle a qnode =>
      have ha : (s.actor a).loop = .handle qnode := by simpa [enabled] using henabled
      have hhead := (hqueued.sound a).current qnode (by rw [ha]; rfl)
      have h' := h.handle { s.actor a with loop := .release qnode }
        (show (s.actor a).loop.delivering = true by rw [ha]; rfl) (by rw [ha]; rfl) rfl
      rwa [hhead] at h'
  | release a qnode =>
      have ha : (s.actor a).loop = .release qnode := by simpa [enabled] using henabled
      have hhead := (hqueued.sound a).current qnode (by rw [ha]; rfl)
      have h' : Recorded (s.storeMsg qnode none) queue := by
        refine h.setEnvelope _ _ fun b hb hdelivering => ?_
        obtain rfl := howned.head_inj (hhead.trans hb.symm)
        rw [ha] at hdelivering
        cases hdelivering
      exact h'.setActor a _ rfl (show _ = (s.actor a).loop.delivering by rw [ha]; rfl)
        fun _ => show (s.actor a).loop.draining = false by rw [ha]; rfl
  | checkStatus a =>
      have ha : (s.actor a).loop = .missed := by simpa [enabled] using henabled
      refine h.setActor a _ rfl ?_ fun _ => by rw [ha]; rfl
      rw [ha]
      split <;> rfl
  | exit a =>
      have ha : (s.actor a).loop = .exit := by simpa [enabled] using henabled
      exact h.setActor a _ rfl (by rw [ha]; rfl) (by rintro ⟨⟩)
  | wake a =>
      obtain ⟨ha, _⟩ : (s.actor a).loop = .waiting ∧ (s.actor a).wake = true := by
        simpa [enabled] using henabled
      exact h.setActor a _ rfl (by rw [ha]; rfl) fun _ => by rw [ha]; rfl
  | cancel a =>
      have ha : (s.actor a).loop = .waiting := by simpa [enabled] using henabled
      exact h.setActor a _ rfl (by rw [ha]; rfl) (by rintro ⟨⟩)
  | drainPeek a =>
      have ha : (s.actor a).loop = .dead := by simpa [enabled] using henabled
      refine h.setActor a _ rfl ?_ ?_
      · rw [ha]
        cases (s.heap (s.actor a).head).next <;> rfl
      · cases (s.heap (s.actor a).head).next <;> rintro ⟨⟩
  | drain a next =>
      have ha : (s.actor a).loop = .drain next := by simpa [enabled] using henabled
      obtain ⟨rest, entry, entries, hnodes, hqueue, _, hmsg, _⟩ :=
        hqueued.front (hqueued.ahead a next (by rw [ha]; rfl))
      have h' := h.drain { s.actor a with
        head := next, loop := .recycle .count (s.actor a).head none } hqueue hmsg (by rw [ha]; rfl)
        rfl rfl
      refine Recorded.congr (h'.setEnvelope next { s.heap next with msg := none }
        fun b hb hdelivering => ?_) rfl rfl rfl (fun _ => rfl) fun _ hb => hb
      -- the drained node is the head of this actor only, which has no message in hand
      by_cases hba : b = a
      · subst hba
        change ((s.setActor b _).actor b).loop.delivering = true at hdelivering
        rw [setActor_actor_self] at hdelivering
        cases hdelivering
      · change ((s.setActor a _).actor b).head = next at hb
        rw [s.setActor_actor_of_ne _ hba] at hb
        refine absurd ?_ (howned.head_apart b a)
        rw [hb, hnodes]
        exact List.mem_cons_self
  | poolDrop env => exact h.congr rfl rfl rfl (fun _ => rfl) fun _ hb => hb

end Step

end Recorded

/-- The invariant of the machine, with the nodes and the entries of each
queue. -/
structure Shape (s : Machine Msg) (nodes : Nat → List Addr)
    (queue : Nat → List (Entry (Option Msg))) : Prop where
  owned : Owned s nodes
  queued : Queued s nodes queue
  recorded : Recorded s queue
  lifecycle : Lifecycle s

theorem shape_initial (Msg : Type) : Shape (initial Msg) (fun _ => []) fun _ => [] where
  owned := by
    refine ⟨⟨fun owner => ?_, fun owner owner' x hx hx' => ?_⟩, fun owner n hn => ?_⟩
    · cases owner <;> simp [hold, initial, Thread.owned, Actor.kept, Loop.recycling]
    · cases owner <;> cases owner' <;>
        simp_all [hold, initial, Thread.owned, Actor.kept, Loop.recycling]
    · cases owner <;> simp [hold, initial, Thread.owned, Actor.kept, Loop.recycling] at hn
  queued := by
    refine ⟨fun a => .last rfl rfl, ?_, ?_, ?_, fun a => ⟨fun _ => rfl, ?_⟩⟩ <;>
      intros <;> simp_all [initial, Thread.entering, Loop.seen, Loop.qnode]
  recorded := ⟨fun _ => rfl, fun _ _ => rfl⟩
  lifecycle := by
    refine ⟨?_, fun a => ⟨?_, ?_⟩⟩ <;> intros <;> simp_all [initial, Thread.expected, Loop.draining]

variable [DecidableEq Msg] {s t : Machine Msg} {nodes : Nat → List Addr}
variable {queue : Nat → List (Entry (Option Msg))}

/-- Every step keeps the invariant. -/
theorem Shape.step (h : Shape s nodes queue) {action : Action Msg}
    (hstep : (runtime Msg).step s action = some t) :
    Shape t (nodesAfter nodes action) (s.queueAfter queue action) := by
  obtain ⟨henabled, rfl⟩ := System.guarded_step_eq_some_iff.mp hstep
  refine ⟨h.owned.step henabled (fun a => (h.queued.sound a).unstarted) fun a next hseen => ?_,
    h.queued.step h.owned henabled, h.recorded.step h.queued h.owned henabled,
    h.lifecycle.step henabled⟩
  have hahead := h.queued.ahead a next (by rcases hseen with hseen | hseen <;> rw [hseen] <;> rfl)
  obtain ⟨rest, _, _, hnodes, _⟩ := h.queued.front hahead
  exact ⟨rest, hnodes⟩

theorem shape_of_reachable (hs : (runtime Msg).Reachable s) : ∃ nodes queue, Shape s nodes queue :=
  System.Reachable.invariant (P := fun s => ∃ nodes queue, Shape s nodes queue)
    ⟨_, _, shape_initial Msg⟩ (fun _ _ _ ⟨_, _, h⟩ hstep => ⟨_, _, h.step hstep⟩) hs

/-- What each actor hands to its handler is an initial part of what was swapped
into its mailbox, in that order. No node is in the pool while it can be reached
from the head of an actor, or is the predecessor to which a producer has yet to
link its node. -/
theorem mailbox_fifo (hs : (runtime Msg).Reachable s) :
    (∀ a, s.handled a <+: s.swaps a) ∧
      ∀ env ∈ s.envelopePool,
        (∀ a, ¬ Relation.ReflTransGen (fun x y => (s.heap x).next = some y) (s.actor a).head env) ∧
        ∀ p a qnode ticket, s.thread p ≠ .link a qnode env ticket := by
  obtain ⟨nodes, queue, h⟩ := shape_of_reachable hs
  refine ⟨fun a => ?_, fun env henv => ?_⟩
  · rw [h.recorded.history a, List.append_assoc, List.append_assoc]
    exact List.prefix_append _ _
  · have hqueue : ∀ a, env ∉ (s.actor a).head :: nodes a := by
      intro a hmem
      cases h.owned.exclusive.unique .pool (.actor a) env henv (List.mem_append_right _ hmem)
    refine ⟨fun a hreaches => hqueue a ((h.queued.chained a).mem_of_reaches hreaches), ?_⟩
    intro p a qnode ticket hp
    obtain ⟨_, _, prev, hprev, _, hp', _⟩ :=
      (h.queued.chained a).producer (h.queued.linking p a qnode env ticket hp)
    obtain ⟨_, _, rfl, _⟩ := Thread.link.inj (hp.symm.trans hp')
    exact hqueue a hprev

/-- The loop takes the node behind the head and handles its message. -/
def taking (head next : Addr) : List (Action Nat) :=
  [.peek 0, .advance 0 next, .recycle 0 .count head (some next),
    .recycle 0 .clearMsg head (some next), .recycle 0 .clearNext head (some next),
    .recycle 0 .put head (some next), .handle 0 next, .release 0 next]

/-- Two producers send a message each. The second one is the first to swap the tail, but it
links its node last; the loop handles both messages. -/
def twoMessages : List (Action Nat) :=
  [.start 0, .send 0 0 7, .get 0 0 7 (.node 0), .fill 0 0 7 (.node 0), .reset 0 0 (.node 0),
    .send 1 0 8, .get 1 0 8 (.node 1), .fill 1 0 8 (.node 1), .reset 1 0 (.node 1),
    .count 1 0 (.node 1), .swap 1 0 (.node 1), .count 0 0 (.node 0), .swap 0 0 (.node 0),
    .link 0 0 (.node 0) (.node 1) 1, .signal 0 0 1, .link 1 0 (.node 1) (.dummy 0) 0,
    .signal 1 0 0] ++ taking (.dummy 0) (.node 1) ++ taking (.node 1) (.node 0)

def delivered : Machine Nat := (runtime Nat).after twoMessages

theorem mailbox_fifo_delivered :
    delivered.handled 0 = [some 8, some 7] ∧ delivered.handled 0 <+: delivered.swaps 0 ∧
      Addr.node 1 ∈ delivered.envelopePool ∧
      ¬ Relation.ReflTransGen (fun x y => (delivered.heap x).next = some y)
        (delivered.actor 0).head (.node 1) := by
  have hpooled : Addr.node 1 ∈ delivered.envelopePool := by decide
  obtain ⟨hfifo, hpool⟩ := mailbox_fifo (System.reachable_after twoMessages)
  exact ⟨by decide, hfifo 0, hpooled, (hpool _ hpooled).1 0⟩

/-- The mailbox that the machine implements for an actor. -/
def view (s : Machine Msg) (queue : Nat → List (Entry (Option Msg))) (a : Nat) :
    Mailbox (Option Msg) :=
  ⟨(s.actor a).status, (s.actor a).wake, queue a⟩

omit [DecidableEq Msg] in
theorem view_setActor (a : Nat) (actor : Actor) {queue' : List (Entry (Option Msg))}
    (hstep : (s.view queue a).Step ⟨actor.status, actor.wake, queue'⟩) (b : Nat) :
    (s.view queue b).Step ((s.setActor a actor).view (Function.update queue a queue') b) := by
  by_cases hb : b = a
  · subst hb
    rw [view.eq_def (s.setActor b actor), setActor_actor_self, Function.update_self]
    exact hstep
  · rw [view.eq_def (s.setActor a actor), s.setActor_actor_of_ne actor hb,
      Function.update_of_ne hb]
    exact .stay

omit [DecidableEq Msg] in
/-- `dequeue` sees the front of the mailbox. -/
theorem Shape.front_view (h : Shape s nodes queue) (a : Nat) :
    (s.view queue a).front =
      (s.heap (s.actor a).head).next.map fun next => (s.heap next).msg := by
  have hchain := h.queued.chained a
  unfold view Mailbox.front
  generalize (s.actor a).head = head at hchain ⊢
  generalize nodes a = ys at hchain
  generalize queue a = entries at hchain ⊢
  cases hchain with
  | last hnone => rw [hnone]; rfl
  | @link _ y _ entry _ hlinked hmsg _ =>
      obtain ⟨msg, producer⟩ := entry
      cases producer with
      | none => rw [show (s.heap head).next = some y from hlinked]; exact congrArg some hmsg.symm
      | some p => rw [hlinked.1]; rfl

omit [DecidableEq Msg] in
theorem Shape.pop_view (h : Shape s nodes queue) {a : Nat} {next : Addr}
    (hseen : (s.actor a).loop.seen = some next) :
    (s.view queue a).Step { s.view queue a with queue := (queue a).tail } := by
  refine .pop (s.heap next).msg ?_
  rw [h.front_view, h.queued.ahead a next hseen]
  rfl

/-- Every step of the machine is a step of each mailbox. -/
theorem Shape.refines (h : Shape s nodes queue) {action : Action Msg}
    (hstep : (runtime Msg).step s action = some t) (b : Nat) :
    (s.view queue b).Step (t.view (s.queueAfter queue action) b) := by
  obtain ⟨henabled, rfl⟩ := System.guarded_step_eq_some_iff.mp hstep
  have hsame (a : Nat) (actor : Actor)
      (hactor : (s.view queue a).Step ⟨actor.status, actor.wake, queue a⟩) :
      (s.view queue b).Step ((s.setActor a actor).view queue b) := by
    have h' := view_setActor a actor hactor b
    rwa [Function.update_eq_self] at h'
  cases action with
  | swap p a qnode =>
      exact view_setActor a { s.actor a with tail := qnode } (.swap p (s.heap qnode).msg) b
  | link p a qnode prev ticket =>
      have h' := view_setActor a (s.actor a) (.link (m := s.view queue a) p) b
      rwa [setActor, Function.update_eq_self] at h'
  | signal p a ticket | stopSignal p a => exact hsame a _ .signal
  | compareAndSwap p a st =>
      have hp : s.thread p = .compareAndSwap a st := by simpa [enabled] using henabled
      refine hsame a _ ?_
      by_cases hstatus : (s.actor a).status = st
      · have haccepts : st.accepts = true := h.lifecycle.compared p st (by rw [hp]; rfl)
        rw [decide_eq_true hstatus]
        exact .close ((congrArg Status.accepts hstatus).trans haccepts)
      · rw [decide_eq_false hstatus]
        exact .stay
  | start a =>
      have hinit : (s.actor a).status = .init := by simpa [enabled] using henabled
      exact hsame a _ (.start hinit)
  | exit a | cancel a => exact hsame a _ .die
  | wake a =>
      have ha : (s.actor a).loop = .waiting ∧ (s.actor a).wake = true := by
        simpa [enabled] using henabled
      exact hsame a _ (.wake ha.2)
  | advance a next =>
      have ha : (s.actor a).loop = .advance next := by simpa [enabled] using henabled
      refine view_setActor a _ ?_ b
      exact h.pop_view (by rw [ha]; rfl)
  | drain a next =>
      have ha : (s.actor a).loop = .drain next := by simpa [enabled] using henabled
      refine view_setActor a _ ?_ b
      exact h.pop_view (by rw [ha]; rfl)
  | recycle a stage old qnode =>
      have hcount (delta : UInt64) (loop : Loop) :
          (s.view queue b).Step (((s.addPending delta).setLoop a loop).view queue b) :=
        hsame a _ .stay
      cases stage with
      | count => exact hcount _ _
      | clearMsg | clearNext | put => exact hsame a _ .stay
  | peek a | handle a qnode | release a qnode | checkStatus a | drainPeek a =>
      exact hsame a _ .stay
  | send p a msg | get p a msg qnode | fill p a msg qnode | reset p a qnode | count p a qnode
  | getEnvelope p env | setMsg p env msg | sendEnvelope p a env | putEnvelope p env
  | putClearNext p env | poolPut p env | callStop p a | stop p a | poolDrop env => exact .stay

/-- The machine implements the mailboxes: each one went through mailbox steps
only, and a consumer that reads behind the head sees its front. -/
theorem mailbox_refines (hs : (runtime Msg).Reachable s) :
    ∃ queue, ∀ a, Relation.ReflTransGen Mailbox.Step Mailbox.new (s.view queue a) ∧
      (s.view queue a).front =
        (s.heap (s.actor a).head).next.map fun next => (s.heap next).msg := by
  obtain ⟨nodes, queue, h, hview⟩ := System.Reachable.invariant
    (P := fun s => ∃ nodes queue, Shape s nodes queue ∧
      ∀ a, Relation.ReflTransGen Mailbox.Step Mailbox.new (s.view queue a))
    ⟨_, _, shape_initial Msg, fun _ => .refl⟩
    (fun _ _ _ ⟨_, _, h, hview⟩ hstep =>
      ⟨_, _, h.step hstep, fun a => (hview a).tail (h.refines hstep a)⟩) hs
  exact ⟨queue, fun a => ⟨hview a, h.front_view a⟩⟩

end Machine

end ActorCluster.Runtime
