import Mathlib.Data.List.Basic
import Mathlib.Data.List.TakeWhile

/-! # Mailboxes

What an actor's mailbox is for. A producer appends an entry by swapping the
tail and links it to its predecessor afterwards; the consumer takes the oldest
entry once it is linked. Messages therefore leave in the order of the swaps,
but an entry that is not linked hides itself and everything behind it.
-/

namespace ActorCluster.Runtime

/-- The life of an actor. -/
inductive Status where
  | init
  | running
  | stopping
  | dead
  deriving DecidableEq, Repr

/-- The test `Send` makes before it enqueues. -/
def Status.accepts : Status → Bool
  | .init | .running => true
  | .stopping | .dead => false

@[simp] theorem Status.accepts_iff {status : Status} :
    status.accepts = true ↔ status ≠ .stopping ∧ status ≠ .dead := by
  cases status <;> simp [accepts]

/-- A message in the queue, and the producer that has yet to link it. -/
structure Entry (Msg : Type) where
  msg : Msg
  linking : Option Nat
  deriving DecidableEq, Repr

/-- The status and the queue of an actor, and its wake-up token. -/
structure Mailbox (Msg : Type) where
  status : Status
  wake : Bool
  queue : List (Entry Msg)
  deriving DecidableEq, Repr

variable {Msg : Type}

/-- Link the entry that a producer swapped in. -/
def linkEntry (p : Nat) (queue : List (Entry Msg)) : List (Entry Msg) :=
  queue.map fun entry => if entry.linking = some p then { entry with linking := none } else entry

@[simp] theorem map_msg_linkEntry (p : Nat) (queue : List (Entry Msg)) :
    (linkEntry p queue).map Entry.msg = queue.map Entry.msg := by
  unfold linkEntry
  rw [List.map_map]
  apply List.map_congr_left
  intro entry _
  simp only [Function.comp]
  split <;> rfl

theorem linkEntry_of_forall_ne {p : Nat} {queue : List (Entry Msg)}
    (h : ∀ entry ∈ queue, entry.linking ≠ some p) : linkEntry p queue = queue := by
  conv_rhs => rw [← List.map_id queue]
  apply List.map_congr_left
  intro entry hentry
  exact if_neg (h entry hentry)

/-- The debts of the other producers stay. -/
theorem some_mem_linking_linkEntry {p r : Nat} (h : r ≠ p) {queue : List (Entry Msg)} :
    some r ∈ (linkEntry p queue).map Entry.linking ↔ some r ∈ queue.map Entry.linking := by
  induction queue with
  | nil => rfl
  | cons entry queue ih =>
      simp only [linkEntry, List.map_cons, List.mem_cons] at ih ⊢
      refine or_congr ?_ ih
      split
      next hp => simp [hp, h]
      next => rfl

namespace Mailbox

/-- A mailbox as `New` makes it. -/
def new : Mailbox Msg := ⟨.init, false, []⟩

/-- The tail swap of `sendEnvelope`. -/
def swap (m : Mailbox Msg) (p : Nat) (msg : Msg) : Mailbox Msg :=
  { m with queue := m.queue ++ [⟨msg, some p⟩] }

/-- The link of `sendEnvelope`. -/
def link (m : Mailbox Msg) (p : Nat) : Mailbox Msg := { m with queue := linkEntry p m.queue }

/-- A non-blocking send on the wake-up channel. -/
def signal (m : Mailbox Msg) : Mailbox Msg := { m with wake := true }

/-- The compare-and-swap of `Stop`. -/
def close (m : Mailbox Msg) : Mailbox Msg := { m with status := .stopping }

/-- What `dequeue` finds: the oldest message, unless its entry is not linked. -/
def front (m : Mailbox Msg) : Option Msg :=
  match m.queue with
  | ⟨msg, none⟩ :: _ => some msg
  | _ => none

theorem front_eq_some_iff {m : Mailbox Msg} {msg : Msg} :
    m.front = some msg ↔ ∃ rest, m.queue = ⟨msg, none⟩ :: rest := by
  unfold front
  split
  next msg' rest hqueue => simp [hqueue]
  next hqueue =>
    refine iff_of_false nofun ?_
    rintro ⟨rest, hcons⟩
    exact hqueue msg rest hcons

/-- What `dequeue` leaves behind. -/
def pop (m : Mailbox Msg) : Mailbox Msg := { m with queue := m.queue.tail }

/-- The messages that can be dequeued one after the other. -/
def ready (m : Mailbox Msg) : List Msg :=
  (m.queue.takeWhile fun entry => entry.linking.isNone).map Entry.msg

theorem ready_of_front {m : Mailbox Msg} {msg : Msg} (h : m.front = some msg) :
    m.ready = msg :: m.pop.ready := by
  obtain ⟨rest, hqueue⟩ := front_eq_some_iff.mp h
  simp [ready, pop, hqueue]

theorem ready_of_front_none {m : Mailbox Msg} (h : m.front = none) : m.ready = [] := by
  unfold front at h
  split at h
  next => cases h
  next hqueue =>
    unfold ready
    cases hq : m.queue with
    | nil => rfl
    | cons entry rest =>
        obtain ⟨msg, linking⟩ := entry
        cases linking with
        | none => exact absurd hq (hqueue msg rest)
        | some p => rfl

theorem ready_subset_swap (m : Mailbox Msg) (p : Nat) (msg : Msg) :
    m.ready ⊆ (m.swap p msg).ready := by
  apply List.map_subset
  rw [swap, List.takeWhile_append]
  split
  · exact List.Subset.trans (List.takeWhile_prefix _).subset (List.subset_append_left _ _)
  · exact List.Subset.refl _

theorem ready_subset_link (m : Mailbox Msg) (p : Nat) : m.ready ⊆ (m.link p).ready := by
  obtain ⟨status, wake, queue⟩ := m
  simp only [ready, link]
  induction queue with
  | nil => exact List.Subset.refl _
  | cons entry queue ih =>
      obtain ⟨msg, linking⟩ := entry
      cases linking with
      | none =>
          simp only [linkEntry, List.map_cons, List.takeWhile_cons] at ih ⊢
          simpa using List.cons_subset_cons msg ih
      | some r => exact List.nil_subset _

/-- The steps of a mailbox. Messages enter at the tail and leave at the front;
a mailbox that no longer accepts messages never does again. -/
inductive Step (m : Mailbox Msg) : Mailbox Msg → Prop
  | stay : Step m m
  | start (hstatus : m.status = .init) : Step m { m with status := .running }
  | swap (p : Nat) (msg : Msg) : Step m (m.swap p msg)
  | link (p : Nat) : Step m (m.link p)
  | signal : Step m m.signal
  | close (hstatus : m.status.accepts = true) : Step m m.close
  | pop (msg : Msg) (hfront : m.front = some msg) : Step m m.pop
  | wake (hwake : m.wake = true) : Step m { m with wake := false }
  | die : Step m { m with status := .dead }

end Mailbox

end ActorCluster.Runtime
