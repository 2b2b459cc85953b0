import ActorCluster.Foundation.Partition
import Mathlib.Algebra.Order.Ring.Int

/-! # The stored state of one wallet

One partition `(tenant, uid)` of `wallet_events`, clustered by version, and the
single row of `wallet_snapshots`. A write is an upsert whose reported outcome
need not agree with its effect: a statement may be applied although the driver
returns an error.
-/

namespace ActorCluster.Wallet

/-- One row of `wallet_events`. -/
structure EventRow where
  version : Int64
  createdAt : Int
  txID : String
  deltaAmount : Int64
  payload : List UInt8
  deriving DecidableEq, Repr

/-- The clustering key. -/
def EventRow.key (row : EventRow) : Int := row.version.toInt

/-- The row of `wallet_snapshots`. -/
structure Snapshot where
  balance : Int64
  lastVersion : Int64
  deriving DecidableEq, Repr

/-- The event partition and the snapshot row of one wallet. -/
structure WalletStore where
  events : List EventRow
  ordered : Partition.Ordered EventRow.key events
  snapshot : Option Snapshot

namespace WalletStore

/-- A wallet that was never written. -/
def empty : WalletStore where
  events := []
  ordered := List.Pairwise.nil
  snapshot := none

/-- `INSERT INTO wallet_events`. -/
def upsertEvent (store : WalletStore) (row : EventRow) : WalletStore :=
  { store with
    events := Partition.insertRow EventRow.key row store.events
    ordered := store.ordered.insertRow row }

/-- `INSERT INTO wallet_snapshots`. -/
def upsertSnapshot (store : WalletStore) (snapshot : Snapshot) : WalletStore :=
  { store with snapshot := some snapshot }

/-- `SELECT ... FROM wallet_events WHERE version > ? ORDER BY version ASC`. -/
def eventsAfter (store : WalletStore) (lastVersion : Int64) : List EventRow :=
  store.events.filter fun row => lastVersion < row.version

/-- The events that a rehydration replays: those after the stored snapshot. -/
def afterSnapshot (store : WalletStore) : List EventRow :=
  store.eventsAfter (store.snapshot.getD ⟨0, 0⟩).lastVersion

/-- The row stored at a version. -/
def eventAt (store : WalletStore) (version : Int64) : Option EventRow :=
  store.events.find? fun row => row.version = version

/-- The partition has a row for this version, or room for one more row. -/
def HasRoom (maxRows : Nat) (store : WalletStore) (version : Int64) : Prop :=
  (∃ row ∈ store.events, row.version = version) ∨ store.events.length < maxRows

@[simp] theorem upsertSnapshot_events (store : WalletStore) (snapshot : Snapshot) :
    (store.upsertSnapshot snapshot).events = store.events := rfl

@[simp] theorem upsertEvent_snapshot (store : WalletStore) (row : EventRow) :
    (store.upsertEvent row).snapshot = store.snapshot := rfl

/-- A loop that scans the snapshot row keeps it, or zeroes when there is none. -/
theorem getLastD_snapshot (store : WalletStore) :
    store.snapshot.toList.getLastD ⟨0, 0⟩ = store.snapshot.getD ⟨0, 0⟩ := by
  cases store.snapshot <;> rfl

theorem eventAt_eq_some_iff {store : WalletStore} {version : Int64} {row : EventRow} :
    store.eventAt version = some row ↔ row ∈ store.events ∧ row.version = version := by
  constructor
  · intro h
    exact ⟨List.mem_of_find?_eq_some h, by simpa using List.find?_some h⟩
  · rintro ⟨hmem, hversion⟩
    cases hfind : store.eventAt version with
    | none =>
        have hnone := List.find?_eq_none.mp hfind row hmem
        simp [hversion] at hnone
    | some other =>
        have hother : other.version = version := by simpa using List.find?_some hfind
        have hkey : other.key = row.key := by rw [EventRow.key, EventRow.key, hother, hversion]
        rw [store.ordered.eq_of_key_eq (List.mem_of_find?_eq_some hfind) hmem hkey]

end WalletStore

/-- What becomes of one event statement: it is applied and acknowledged, it
fails without effect, or it is applied although an error is reported. -/
inductive WriteOutcome where
  | applied
  | failed (msg : String)
  | failedApplied (msg : String)
  deriving DecidableEq, Repr

namespace WriteOutcome

/-- The statement takes effect. -/
def takesEffect : WriteOutcome → Bool
  | .applied => true
  | .failed _ => false
  | .failedApplied _ => true

/-- The error returned by the driver. -/
def err : WriteOutcome → Option String
  | .applied => none
  | .failed msg => some msg
  | .failedApplied msg => some msg

end WriteOutcome

/-- `ExecuteBatch` with one event statement. The error is wrapped as the
store adapter wraps it. -/
def WalletStore.executeBatch (store : WalletStore) (row : EventRow) (outcome : WriteOutcome) :
    WalletStore × Option String :=
  (if outcome.takesEffect then store.upsertEvent row else store,
    outcome.err.map fun msg => "persistence: ExecuteBatch failed: " ++ msg)

end ActorCluster.Wallet
