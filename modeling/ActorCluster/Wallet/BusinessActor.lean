import ActorCluster.Foundation.BigEndian
import ActorCluster.Remote.Message
import ActorCluster.Wallet.Store
import Mathlib.Data.Finset.Basic

/-! # The wallet actor

The private state of a `BusinessActor` and its two entry points. `rehydrate`
rebuilds the state from the snapshot row and the events after it; `handle`
executes one envelope against that state with a blind versioned write. Every
function here runs on the goroutine that owns the actor, so it is a pure
function of the state, of the clock and of the outcome of its store calls.
-/

namespace ActorCluster.Wallet

open Remote

/-- Number of transaction ids kept against replays. -/
def txCacheSize : Nat := 1000

instance : NeZero txCacheSize := ⟨by decide⟩

/-- Number of committed events after which a snapshot is written. -/
def snapshotThreshold : Nat := 1000

/-- The fields of the actor that only its own goroutine writes. -/
structure BusinessActor where
  tenantID : Int32
  uid : Int64
  balance : Int64
  version : Int64
  eventCount : Nat
  txCache : Finset String
  txRing : Vector String txCacheSize
  txCursor : Fin txCacheSize
  lastActive : Int
  deriving DecidableEq

def newBusinessActor (tenantID : Int32) (uid : Int64) (now : Int) : BusinessActor where
  tenantID := tenantID
  uid := uid
  balance := 0
  version := 0
  eventCount := 0
  txCache := ∅
  txRing := Vector.replicate txCacheSize ""
  txCursor := 0
  lastActive := now

namespace BusinessActor

/-- Record a committed id, evicting the one whose slot it takes. -/
def addTxID (b : BusinessActor) (txID : String) : BusinessActor :=
  let old := b.txRing[b.txCursor]
  let kept := if old ≠ "" then b.txCache.erase old else b.txCache
  { b with
    txCache := insert txID kept
    txRing := b.txRing.set b.txCursor txID
    txCursor := b.txCursor + 1 }

/-- Record a replayed id. Nothing is evicted, and an id that is already known
does not move to a newer slot. -/
def seedTxID (b : BusinessActor) (txID : String) : BusinessActor :=
  if txID ∈ b.txCache then b
  else
    { b with
      txCache := insert txID b.txCache
      txRing := b.txRing.set b.txCursor txID
      txCursor := b.txCursor + 1 }

/-- The balance as eight big-endian bytes. -/
def encodeBalance (b : BusinessActor) : List UInt8 :=
  BigEndian.putUint64 b.balance.toUInt64

/-- The row handed to the goroutine that writes the snapshot. -/
def takeSnapshotAsync (b : BusinessActor) : Snapshot where
  balance := b.balance
  lastVersion := b.version

end BusinessActor

/-- The rows a query yields before it ends, and the error its iterator reports
when it is closed. -/
structure QueryResult (Row : Type) where
  rows : List Row
  closeErr : Option String

/-- Why a rehydration was given up. -/
inductive RehydrateError where
  | loadSnapshot (msg : String)
  | loadEvents (msg : String)
  | versionGap (expected got : Int64)
  deriving DecidableEq, Repr

/-- The error text, with the wrapping of each call site. -/
def RehydrateError.text : RehydrateError → String
  | .loadSnapshot msg => "rehydrate: load snapshot failed: persistence: Query failed: " ++ msg
  | .loadEvents msg => "rehydrate: load events failed: persistence: Query failed: " ++ msg
  | .versionGap expected got =>
      "rehydrate: load events failed: version gap: expected " ++ toString expected ++
        " got " ++ toString got ++ " (data loss or out-of-order write)"

namespace BusinessActor

/-- Step one of a rehydration: the snapshot row, or zeroes when there is none. -/
def loadSnapshot (result : QueryResult Snapshot) : Except RehydrateError Snapshot :=
  match result.closeErr with
  | some msg => .error (.loadSnapshot msg)
  | none => .ok (result.rows.getLastD ⟨0, 0⟩)

/-- The scan loop of step two. The ids are seeded as the rows are read, so a
failed scan leaves a partly seeded actor behind. -/
def scanEvents (balance prevVersion : Int64) (b : BusinessActor) :
    List EventRow → BusinessActor × Except RehydrateError (Int64 × Int64)
  | [] => (b, .ok (balance, prevVersion))
  | row :: rest =>
      if row.version ≠ prevVersion + 1 then
        (b, .error (.versionGap (prevVersion + 1) row.version))
      else
        scanEvents (balance + row.deltaAmount) row.version (b.seedTxID row.txID) rest

/-- Step two of a rehydration: replay the events after the snapshot. -/
def loadEvents (b : BusinessActor) (snapshot : Snapshot) (result : QueryResult EventRow) :
    BusinessActor × Option RehydrateError :=
  match scanEvents snapshot.balance snapshot.lastVersion b result.rows with
  | (b, .error err) => (b, some err)
  | (b, .ok (balance, prevVersion)) =>
      match result.closeErr with
      | some msg => (b, some (.loadEvents msg))
      | none => ({ b with balance := balance, version := prevVersion }, none)

/-- Both steps against a store whose queries succeed. -/
def rehydrate (b : BusinessActor) (store : WalletStore) : BusinessActor × Option RehydrateError :=
  match loadSnapshot ⟨store.snapshot.toList, none⟩ with
  | .error err => (b, some err)
  | .ok snapshot => b.loadEvents snapshot ⟨store.eventsAfter snapshot.lastVersion, none⟩

/-- What one call of `handle` leaves behind: the actor, the store, the result
and the snapshot whose write it launched. -/
structure Handled where
  actor : BusinessActor
  store : WalletStore
  result : RemoteResult
  snapshot : Option Snapshot

/-- The identity fields every return path of `handle` starts from. -/
def baseResult (b : BusinessActor) (env : RemoteEnvelope) : RemoteResult where
  tenantId := b.tenantID
  uid := b.uid
  txId := env.txId
  requestId := env.requestId
  opCode := env.opCode
  success := false
  errorCode := none
  errorMsg := ""
  payload := []

/-- The signed amount in the first eight bytes of a payload. -/
def decodeAmount (payload : List UInt8) : Int64 := (BigEndian.uint64 payload).toInt64

/-- The event a handled envelope writes. -/
def eventRow (b : BusinessActor) (env : RemoteEnvelope) (now : Int) : EventRow where
  version := b.version + 1
  createdAt := now
  txID := env.txId
  deltaAmount := decodeAmount env.payload
  payload := env.payload

/-- The state after an acknowledged write, before the snapshot counter is
inspected. -/
def commit (b : BusinessActor) (env : RemoteEnvelope) : BusinessActor :=
  let b := { b with
    balance := b.balance + decodeAmount env.payload
    version := b.version + 1 }
  let b := b.addTxID env.txId
  { b with eventCount := b.eventCount + 1 }

/-- Replay check, payload check, balance guard, blind write, commit, snapshot. -/
def handle (b : BusinessActor) (store : WalletStore) (env : RemoteEnvelope) (now : Int)
    (outcome : WriteOutcome) : Handled :=
  let b := { b with lastActive := now }
  let base := b.baseResult env
  if env.txId ∈ b.txCache then
    ⟨b, store, { base with success := true }, none⟩
  else if env.payload.length < 8 then
    ⟨b, store, { base with
      errorCode := some .invalidPayload
      errorMsg := "payload must be 8 bytes (int64 big-endian)" }, none⟩
  else if b.balance + decodeAmount env.payload < 0 then
    ⟨b, store, { base with
      errorCode := some .insufficientFunds
      errorMsg := "balance cannot be negative" }, none⟩
  else
    match store.executeBatch (b.eventRow env now) outcome with
    | (store, some err) =>
        ⟨b, store, { base with errorCode := some .persistenceFailed, errorMsg := err }, none⟩
    | (store, none) =>
        let b := b.commit env
        if snapshotThreshold ≤ b.eventCount then
          ⟨{ b with eventCount := 0 }, store,
            { base with success := true, payload := b.encodeBalance }, some b.takeSnapshotAsync⟩
        else
          ⟨b, store, { base with success := true, payload := b.encodeBalance }, none⟩

/-- The envelope passes the replay check, the payload check and the balance
guard, so an event is written for it. -/
def Admits (b : BusinessActor) (env : RemoteEnvelope) : Prop :=
  env.txId ∉ b.txCache ∧ 8 ≤ env.payload.length ∧ 0 ≤ b.balance + decodeAmount env.payload

instance (b : BusinessActor) (env : RemoteEnvelope) : Decidable (b.Admits env) :=
  inferInstanceAs (Decidable (_ ∧ _ ∧ _))

/-- What an acknowledged write does, apart from the store. -/
structure Committed (b : BusinessActor) (env : RemoteEnvelope) (h : Handled) : Prop where
  tenantID : h.actor.tenantID = b.tenantID
  uid : h.actor.uid = b.uid
  balance : h.actor.balance = b.balance + decodeAmount env.payload
  version : h.actor.version = b.version + 1
  txCache : h.actor.txCache = (b.addTxID env.txId).txCache
  txRing : h.actor.txRing = (b.addTxID env.txId).txRing
  txCursor : h.actor.txCursor = (b.addTxID env.txId).txCursor
  success : h.result.success = true
  payload : h.result.payload = h.actor.encodeBalance
  snapshot : ∀ snap, h.snapshot = some snap → snap = h.actor.takeSnapshotAsync
  launched : h.snapshot.isSome ↔ snapshotThreshold ≤ b.eventCount + 1
  eventCount : h.actor.eventCount = if h.snapshot.isSome then 0 else b.eventCount + 1

section Handle

variable {b : BusinessActor} {env : RemoteEnvelope}
variable (store : WalletStore) (now : Int) (outcome : WriteOutcome)

/-- A duplicate and a refused envelope touch nothing but the activity clock. -/
theorem handle_of_not_admits (h : ¬ b.Admits env) :
    ∃ result, result.payload = [] ∧ (result.success = true ↔ env.txId ∈ b.txCache) ∧
      b.handle store env now outcome = ⟨{ b with lastActive := now }, store, result, none⟩ := by
  unfold handle
  dsimp only
  split
  next hdup => exact ⟨_, rfl, by simp [hdup], rfl⟩
  next hfresh =>
    split
    next => exact ⟨_, rfl, by simp [hfresh, baseResult], rfl⟩
    next hlength =>
      split
      next => exact ⟨_, rfl, by simp [hfresh, baseResult], rfl⟩
      next hfunds =>
        exact absurd ⟨hfresh, Nat.le_of_not_lt hlength, Int64.not_lt.mp hfunds⟩ h

/-- A write that reports an error leaves the actor as it was, whether or not
the row reached the store. -/
theorem handle_of_err (h : b.Admits env) {msg : String} (herr : outcome.err = some msg) :
    ∃ result, result.payload = [] ∧ result.success = false ∧
      b.handle store env now outcome =
        ⟨{ b with lastActive := now },
          if outcome.takesEffect then store.upsertEvent (b.eventRow env now) else store,
          result, none⟩ := by
  unfold handle
  dsimp only
  rw [if_neg h.1, if_neg (Nat.not_lt.mpr h.2.1), if_neg (Int64.not_lt.mpr h.2.2)]
  simp only [WalletStore.executeBatch, herr, Option.map_some]
  exact ⟨_, rfl, rfl, rfl⟩

/-- An acknowledged write stores the row and commits the actor. -/
theorem handle_of_applied (h : b.Admits env) :
    (b.handle store env now .applied).store = store.upsertEvent (b.eventRow env now) ∧
      Committed b env (b.handle store env now .applied) := by
  unfold handle
  dsimp only
  rw [if_neg h.1, if_neg (Nat.not_lt.mpr h.2.1), if_neg (Int64.not_lt.mpr h.2.2)]
  simp only [WalletStore.executeBatch, WriteOutcome.err, WriteOutcome.takesEffect,
    Option.map_none, if_true]
  split
  next hcount =>
    refine ⟨rfl, rfl, rfl, rfl, rfl, rfl, rfl, rfl, rfl, rfl, ?_, ?_, ?_⟩
    · rintro snap hsnap
      exact (Option.some.inj hsnap).symm
    · exact iff_of_true rfl hcount
    · rfl
  next hcount =>
    refine ⟨rfl, rfl, rfl, rfl, rfl, rfl, rfl, rfl, rfl, rfl, ?_, ?_, ?_⟩
    · rintro snap hsnap
      cases hsnap
    · exact iff_of_false Bool.false_ne_true hcount
    · rfl

/-- A duplicate is answered at once, without a write. -/
theorem handle_of_cached (h : env.txId ∈ b.txCache) :
    b.handle store env now outcome =
      ⟨{ b with lastActive := now }, store, { b.baseResult env with success := true }, none⟩ := by
  unfold handle
  dsimp only
  rw [if_pos h]
  rfl

/-- Without an acknowledged write only the activity clock moves. -/
theorem handle_actor_of_unacknowledged (h : ¬ (b.Admits env ∧ outcome = .applied)) :
    (b.handle store env now outcome).actor = { b with lastActive := now } := by
  by_cases hadmits : b.Admits env
  · cases herr : outcome.err with
    | some msg =>
        obtain ⟨_, _, _, heq⟩ := handle_of_err store now outcome hadmits herr
        rw [heq]
    | none => cases outcome <;> first | exact absurd ⟨hadmits, rfl⟩ h | cases herr
  · obtain ⟨_, _, _, heq⟩ := handle_of_not_admits store now outcome hadmits
    rw [heq]

/-- A new event is acknowledged exactly when the envelope is admitted and its
write is acknowledged. -/
theorem handle_acknowledges_iff :
    ((b.handle store env now outcome).result.success = true ∧
      (b.handle store env now outcome).result.payload ≠ []) ↔
      b.Admits env ∧ outcome = .applied := by
  constructor
  · rintro ⟨hsuccess, hpayload⟩
    by_cases hadmits : b.Admits env
    · refine ⟨hadmits, ?_⟩
      cases herr : outcome.err with
      | some msg =>
          obtain ⟨result, _, hfail, heq⟩ := handle_of_err store now outcome hadmits herr
          rw [heq, hfail] at hsuccess
          cases hsuccess
      | none => cases outcome <;> first | rfl | cases herr
    · obtain ⟨result, hempty, _, heq⟩ := handle_of_not_admits store now outcome hadmits
      rw [heq] at hpayload
      exact absurd hempty hpayload
  · rintro ⟨hadmits, rfl⟩
    have hcommitted := (handle_of_applied store now hadmits).2
    refine ⟨hcommitted.success, ?_⟩
    rw [hcommitted.payload]
    exact List.ne_nil_of_length_pos (by simp [encodeBalance])

/-- A success without a balance answers a duplicate. -/
theorem handle_answers_duplicate_iff :
    ((b.handle store env now outcome).result.success = true ∧
      (b.handle store env now outcome).result.payload = []) ↔ env.txId ∈ b.txCache := by
  constructor
  · rintro ⟨hsuccess, hpayload⟩
    have hnot : ¬ (b.Admits env ∧ outcome = .applied) := fun hacknowledged =>
      ((handle_acknowledges_iff store now outcome).mpr hacknowledged).2 hpayload
    by_cases hadmits : b.Admits env
    · cases herr : outcome.err with
      | some msg =>
          obtain ⟨result, _, hfail, heq⟩ := handle_of_err store now outcome hadmits herr
          rw [heq, hfail] at hsuccess
          cases hsuccess
      | none => cases outcome <;> first | exact absurd ⟨hadmits, rfl⟩ hnot | cases herr
    · obtain ⟨result, _, hcached, heq⟩ := handle_of_not_admits store now outcome hadmits
      rw [heq] at hsuccess
      exact hcached.mp hsuccess
  · intro h
    rw [handle_of_cached store now outcome h]
    exact ⟨rfl, rfl⟩

end Handle

/-- Every return path answers for the wallet and echoes the envelope, and the
wallet stays the same one. -/
theorem handle_identity (b : BusinessActor) (store : WalletStore) (env : RemoteEnvelope) (now : Int)
    (outcome : WriteOutcome) :
    (b.handle store env now outcome).actor.tenantID = b.tenantID ∧
      (b.handle store env now outcome).actor.uid = b.uid ∧
      (b.handle store env now outcome).result.tenantId = b.tenantID ∧
      (b.handle store env now outcome).result.uid = b.uid ∧
      (b.handle store env now outcome).result.txId = env.txId ∧
      (b.handle store env now outcome).result.requestId = env.requestId ∧
      (b.handle store env now outcome).result.opCode = env.opCode := by
  unfold handle
  dsimp only
  split
  · exact ⟨rfl, rfl, rfl, rfl, rfl, rfl, rfl⟩
  split
  · exact ⟨rfl, rfl, rfl, rfl, rfl, rfl, rfl⟩
  split
  · exact ⟨rfl, rfl, rfl, rfl, rfl, rfl, rfl⟩
  split
  · exact ⟨rfl, rfl, rfl, rfl, rfl, rfl, rfl⟩
  split <;> exact ⟨rfl, rfl, rfl, rfl, rfl, rfl, rfl⟩

theorem loadSnapshot_eq_ok {rows : List Snapshot} {closeErr : Option String} {snapshot : Snapshot}
    (h : loadSnapshot ⟨rows, closeErr⟩ = .ok snapshot) : closeErr = none := by
  cases closeErr with
  | none => rfl
  | some msg => cases h

/-- A query that reports an error never yields an actor. -/
theorem loadEvents_eq_none {b b' : BusinessActor} {snapshot : Snapshot} {rows : List EventRow}
    {closeErr : Option String} (h : b.loadEvents snapshot ⟨rows, closeErr⟩ = (b', none)) :
    closeErr = none := by
  cases closeErr with
  | none => rfl
  | some msg =>
      simp only [loadEvents] at h
      split at h <;> cases h

theorem seedTxID_identity (b : BusinessActor) (txID : String) :
    (b.seedTxID txID).tenantID = b.tenantID ∧ (b.seedTxID txID).uid = b.uid := by
  unfold seedTxID
  split <;> exact ⟨rfl, rfl⟩

theorem scanEvents_identity (balance prevVersion : Int64) (b : BusinessActor)
    (rows : List EventRow) :
    (scanEvents balance prevVersion b rows).1.tenantID = b.tenantID ∧
      (scanEvents balance prevVersion b rows).1.uid = b.uid := by
  induction rows generalizing balance prevVersion b with
  | nil => exact ⟨rfl, rfl⟩
  | cons row rest ih =>
      unfold scanEvents
      split
      · exact ⟨rfl, rfl⟩
      · have hseed := b.seedTxID_identity row.txID
        have hrest := ih (balance + row.deltaAmount) row.version (b.seedTxID row.txID)
        exact ⟨hrest.1.trans hseed.1, hrest.2.trans hseed.2⟩

/-- A rehydration stays with its wallet. -/
theorem loadEvents_identity (b : BusinessActor) (snapshot : Snapshot)
    (result : QueryResult EventRow) :
    (b.loadEvents snapshot result).1.tenantID = b.tenantID ∧
      (b.loadEvents snapshot result).1.uid = b.uid := by
  have hscan := scanEvents_identity snapshot.balance snapshot.lastVersion b result.rows
  unfold loadEvents
  split
  next heq => rwa [heq] at hscan
  next heq =>
    rw [heq] at hscan
    split <;> exact hscan

end BusinessActor

end ActorCluster.Wallet
