import Mathlib.Data.List.AList
import Mathlib.Logic.Function.Basic

/-! # The sharded callback map

The callbacks of the requests that a stream has accepted, in 256 separately
locked shards. Every operation on one request is atomic under the lock of its
shard. `Delete` and `LoadAndDelete` leave the same map behind.
-/

namespace ActorCluster.Client

/-- The channel on which a caller waits, if there is one. The time at which the
request was started is only used for statistics and left out. -/
structure CallbackEntry where
  respCh : Option Nat
  deriving DecidableEq, Repr

def shardCount : Nat := 256

/-- `reqID % 256` -/
def shardIdx (reqID : UInt64) : Nat := reqID.toNat % shardCount

theorem shardIdx_lt (reqID : UInt64) : shardIdx reqID < shardCount :=
  Nat.mod_lt _ (by decide)

abbrev Shard := AList fun _ : UInt64 => CallbackEntry

/-- The shards by their index. A callback is in the shard of its request, so those
from 256 on stay empty. -/
structure ShardedCallbackMap where
  pending : UInt64
  shards : Nat → Shard
  keyed : ∀ i, ∀ reqID ∈ shards i, shardIdx reqID = i

namespace ShardedCallbackMap

def new : ShardedCallbackMap where
  pending := 0
  shards _ := ∅
  keyed _ reqID h := absurd h (AList.notMem_empty reqID)

def lookup (sm : ShardedCallbackMap) (reqID : UInt64) : Option CallbackEntry :=
  (sm.shards (shardIdx reqID)).lookup reqID

/-- `Store` -/
def store (sm : ShardedCallbackMap) (reqID : UInt64) (entry : CallbackEntry) :
    ShardedCallbackMap where
  pending := if reqID ∈ sm.shards (shardIdx reqID) then sm.pending else sm.pending + 1
  shards := Function.update sm.shards (shardIdx reqID)
    ((sm.shards (shardIdx reqID)).insert reqID entry)
  keyed := by
    intro i other hother
    by_cases hi : i = shardIdx reqID
    · subst hi
      rw [Function.update_self, AList.mem_insert] at hother
      exact hother.elim (fun h => h ▸ rfl) (sm.keyed _ _)
    · rw [Function.update_of_ne hi] at hother
      exact sm.keyed i other hother

/-- `Delete`, and what `LoadAndDelete` leaves behind. -/
def delete (sm : ShardedCallbackMap) (reqID : UInt64) : ShardedCallbackMap where
  pending := if reqID ∈ sm.shards (shardIdx reqID) then sm.pending - 1 else sm.pending
  shards := Function.update sm.shards (shardIdx reqID) ((sm.shards (shardIdx reqID)).erase reqID)
  keyed := by
    intro i other hother
    by_cases hi : i = shardIdx reqID
    · subst hi
      rw [Function.update_self, AList.mem_erase] at hother
      exact sm.keyed _ _ hother.2
    · rw [Function.update_of_ne hi] at hother
      exact sm.keyed i other hother

/-- There is no callback left. -/
def IsEmpty (sm : ShardedCallbackMap) : Prop := ∀ i, sm.shards i = ∅

variable (sm : ShardedCallbackMap) {reqID other : UInt64} {entry : CallbackEntry}

@[simp] theorem lookup_new (reqID : UInt64) : new.lookup reqID = none :=
  AList.lookup_empty reqID

@[simp] theorem lookup_store_self (reqID : UInt64) (entry : CallbackEntry) :
    (sm.store reqID entry).lookup reqID = some entry := by
  simp only [lookup, store, Function.update_self, AList.lookup_insert]

theorem lookup_store_of_ne (h : other ≠ reqID) (entry : CallbackEntry) :
    (sm.store reqID entry).lookup other = sm.lookup other := by
  simp only [lookup, store]
  by_cases hshard : shardIdx other = shardIdx reqID
  · rw [hshard, Function.update_self, AList.lookup_insert_ne h]
  · rw [Function.update_of_ne hshard]

@[simp] theorem lookup_delete_self (reqID : UInt64) : (sm.delete reqID).lookup reqID = none := by
  simp only [lookup, delete, Function.update_self, AList.lookup_erase]

theorem lookup_delete_of_ne (h : other ≠ reqID) :
    (sm.delete reqID).lookup other = sm.lookup other := by
  simp only [lookup, delete]
  by_cases hshard : shardIdx other = shardIdx reqID
  · rw [hshard, Function.update_self, AList.lookup_erase_ne h]
  · rw [Function.update_of_ne hshard]

variable {sm} in
theorem lookup_of_lookup_delete (h : (sm.delete reqID).lookup other = some entry) :
    other ≠ reqID ∧ sm.lookup other = some entry := by
  by_cases hne : other = reqID
  · subst hne
    rw [lookup_delete_self] at h
    cases h
  · rw [lookup_delete_of_ne _ hne] at h
    exact ⟨hne, h⟩

/-- A callback in a shard is the one that is found for its request. -/
theorem mem_shards_iff {i : Nat} :
    reqID ∈ sm.shards i ↔ shardIdx reqID = i ∧ (sm.lookup reqID).isSome := by
  constructor
  · intro h
    have hi := sm.keyed i reqID h
    exact ⟨hi, by rw [lookup, hi, AList.lookup_isSome]; exact h⟩
  · rintro ⟨rfl, h⟩
    exact AList.lookup_isSome.mp h

theorem shard_eq_empty_iff {i : Nat} :
    sm.shards i = ∅ ↔ ∀ reqID, shardIdx reqID = i → sm.lookup reqID = none := by
  constructor
  · rintro h reqID rfl
    rw [lookup, h, AList.lookup_empty]
  · intro h
    apply AList.ext
    rw [AList.empty_entries, List.eq_nil_iff_forall_not_mem]
    rintro ⟨reqID, entry⟩ hmem
    have hin : reqID ∈ sm.shards i := AList.mem_keys.mpr (List.mem_keys_of_mem hmem)
    obtain ⟨hi, hsome⟩ := sm.mem_shards_iff.mp hin
    rw [h reqID hi] at hsome
    cases hsome

theorem isEmpty_iff : sm.IsEmpty ↔ ∀ reqID, sm.lookup reqID = none := by
  simp only [IsEmpty, shard_eq_empty_iff]
  exact ⟨fun h reqID => h _ reqID rfl, fun h _ reqID _ => h reqID⟩

end ShardedCallbackMap

end ActorCluster.Client
