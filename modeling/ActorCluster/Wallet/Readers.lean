import ActorCluster.Wallet.Reconciliation

/-! # The readers of a balance

Three loops replay the stored events of a wallet: the rehydration of its actor, the
audit, and the balance query of the gateway. Only the first one checks that no
version is missing. Whenever it accepts the log, all three agree.
-/

namespace ActorCluster.Wallet

open Partition

/-- The scan of the second query of `computeBalance`. -/
def readEvents (snapshot : Snapshot) (rows : List EventRow) : Int64 × Int64 :=
  rows.foldl (fun acc row => (acc.1 + row.deltaAmount, row.version))
    (snapshot.balance, snapshot.lastVersion)

/-- `computeBalance` of the gateway, given the errors that its two queries report. -/
def computeBalance (store : WalletStore) (snapshotErr eventsErr : Option String) :
    Except String (Int64 × Int64) :=
  match snapshotErr with
  | some msg => .error ("load snapshot failed: persistence: Query failed: " ++ msg)
  | none =>
      let snapshot := store.snapshot.toList.getLastD ⟨0, 0⟩
      match eventsErr with
      | some msg => .error ("load events failed: persistence: Query failed: " ++ msg)
      | none => .ok (readEvents snapshot (store.eventsAfter snapshot.lastVersion))

theorem readEvents_eq (snapshot : Snapshot) (rows : List EventRow) :
    readEvents snapshot rows =
      (replay snapshot.balance rows, lastRead snapshot.lastVersion rows) := by
  obtain ⟨balance, version⟩ := snapshot
  induction rows generalizing balance version with
  | nil => rfl
  | cons row rest ih => exact ih _ _

theorem computeBalance_eq (store : WalletStore) :
    computeBalance store none none =
      .ok (replay (store.snapshot.getD ⟨0, 0⟩).balance store.afterSnapshot,
        lastRead (store.snapshot.getD ⟨0, 0⟩).lastVersion store.afterSnapshot) := by
  simp only [computeBalance, store.getLastD_snapshot, readEvents_eq, WalletStore.afterSnapshot]

/-- The wrapped running balance is the start plus the wrapped sum of the deltas. -/
theorem replay_eq_add_sum (balance : Int64) (rows : List EventRow) :
    replay balance rows = balance + (rows.map EventRow.deltaAmount).sum := by
  induction rows generalizing balance with
  | nil => simp
  | cons row rest ih =>
      rw [List.map_cons, List.sum_cons, ← Int64.add_assoc]
      exact ih _

/-- The versions stored after the snapshot are the next `count` ones. -/
def WalletStore.Unbroken (store : WalletStore) (count : Nat) : Prop :=
  ∀ version : Int, (store.snapshot.getD ⟨0, 0⟩).lastVersion.toInt < version →
    ((∃ row ∈ store.events, row.version.toInt = version) ↔
      version ≤ (store.snapshot.getD ⟨0, 0⟩).lastVersion.toInt + count)

section

variable {store : WalletStore} {rows : List EventRow} {prev : Int64}

theorem mem_afterSnapshot {row : EventRow} :
    row ∈ store.afterSnapshot ↔ row ∈ store.events ∧
      (store.snapshot.getD ⟨0, 0⟩).lastVersion.toInt < row.key := by
  simp [WalletStore.afterSnapshot, WalletStore.eventsAfter, Int64.lt_iff_toInt_lt, EventRow.key]

/-- The log is unbroken if the replayed rows count upwards. -/
theorem unbroken_iff {count : Nat} :
    store.Unbroken count ↔
      Contiguous EventRow.key (store.snapshot.getD ⟨0, 0⟩).lastVersion.toInt store.afterSnapshot ∧
        store.afterSnapshot.length = count := by
  have hkeys : ∀ version : Int, (store.snapshot.getD ⟨0, 0⟩).lastVersion.toInt < version →
      ((∃ row ∈ store.events, row.version.toInt = version) ↔
        ∃ row ∈ store.afterSnapshot, row.key = version) := by
    intro version hlater
    constructor
    · rintro ⟨row, hrow, rfl⟩
      exact ⟨row, mem_afterSnapshot.mpr ⟨hrow, hlater⟩, rfl⟩
    · rintro ⟨row, hrow, hkey⟩
      exact ⟨row, (mem_afterSnapshot.mp hrow).1, hkey⟩
  constructor
  · intro h
    exact contiguous_of_keys (store.ordered.filter _)
      (fun row hrow => (mem_afterSnapshot.mp hrow).2)
      fun version hlater => (hkeys version hlater).symm.trans (h version hlater)
  · rintro ⟨hcontiguous, rfl⟩ version hlater
    exact (hkeys version hlater).trans (hcontiguous.mem_keys_iff hlater)

/-- The scan accepts exactly the rows that count upwards from the previous version. -/
theorem scanEvents_accepts_iff (hordered : Ordered EventRow.key rows)
    (hafter : ∀ row ∈ rows, prev.toInt < row.key) (balance : Int64) (b : BusinessActor) :
    (∃ scanned read, BusinessActor.scanEvents balance prev b rows = (scanned, .ok read)) ↔
      Contiguous EventRow.key prev.toInt rows := by
  induction rows generalizing prev balance b with
  | nil => exact iff_of_true ⟨_, _, rfl⟩ trivial
  | cons row rest ih =>
      obtain ⟨hrow, hrest⟩ := List.pairwise_cons.mp hordered
      have hnext := eq_add_one_iff (hafter row List.mem_cons_self)
      unfold BusinessActor.scanEvents Contiguous
      by_cases hgap : row.version = prev + 1
      · have hkey : row.key = prev.toInt + 1 := hnext.mp hgap
        rw [if_neg (not_not.mpr hgap), ih hrest hrow, and_iff_right hkey, ← hkey]
        rfl
      · rw [if_pos hgap]
        refine iff_of_false ?_ fun h => hgap (hnext.mpr h.1)
        rintro ⟨_, _, herror⟩
        cases herror

end

namespace BusinessActor

/-- A scan sets neither the balance nor the version. -/
theorem scanEvents_keeps (balance prev : Int64) (b : BusinessActor) (rows : List EventRow) :
    (scanEvents balance prev b rows).1.balance = b.balance ∧
      (scanEvents balance prev b rows).1.version = b.version := by
  induction rows generalizing balance prev b with
  | nil => exact ⟨rfl, rfl⟩
  | cons row rest ih =>
      unfold scanEvents
      split
      · exact ⟨rfl, rfl⟩
      · have hseed : (b.seedTxID row.txID).balance = b.balance ∧
            (b.seedTxID row.txID).version = b.version := by
          unfold seedTxID
          split <;> exact ⟨rfl, rfl⟩
        obtain ⟨hbalance, hversion⟩ := ih (balance + row.deltaAmount) row.version
          (b.seedTxID row.txID)
        exact ⟨hbalance.trans hseed.1, hversion.trans hseed.2⟩

/-- A failed rehydration leaves the balance and the version. -/
theorem rehydrate_keeps {b : BusinessActor} {store : WalletStore}
    (h : (b.rehydrate store).2 ≠ none) :
    (b.rehydrate store).1.balance = b.balance ∧ (b.rehydrate store).1.version = b.version := by
  have hkeeps := scanEvents_keeps (store.snapshot.getD ⟨0, 0⟩).balance
    (store.snapshot.getD ⟨0, 0⟩).lastVersion b store.afterSnapshot
  rw [rehydrate_eq] at h ⊢
  split at h
  next hscan =>
    rw [hscan] at hkeeps
    exact hkeeps
  next => exact absurd rfl h

/-- A rehydration succeeds exactly on an unbroken log. -/
theorem rehydrate_accepts_iff (b : BusinessActor) (store : WalletStore) :
    (b.rehydrate store).2 = none ↔ ∃ count, store.Unbroken count := by
  have hscan := scanEvents_accepts_iff (store.ordered.filter _)
    (fun row hrow => (mem_afterSnapshot.mp hrow).2)
    (store.snapshot.getD ⟨0, 0⟩).balance b
  simp only [unbroken_iff, exists_and_left, exists_eq', and_true]
  refine Iff.trans ?_ hscan
  rw [rehydrate_eq]
  constructor
  · intro h
    split at h
    next => cases h
    next heq => exact ⟨_, _, heq⟩
  · rintro ⟨scanned, read, heq⟩
    rw [← WalletStore.eventsAfter, ← WalletStore.afterSnapshot] at heq
    rw [heq]

/-- What a rehydration from an unbroken log reads. -/
theorem rehydrate_of_unbroken {store : WalletStore} {count : Nat} (h : store.Unbroken count)
    (b : BusinessActor) :
    ∃ recovered, b.rehydrate store = (recovered, none) ∧
      recovered.version.toInt = (store.snapshot.getD ⟨0, 0⟩).lastVersion.toInt + count ∧
      computeTrueBalance store none none = .ok recovered.balance ∧
      computeBalance store none none = .ok (recovered.balance, recovered.version) := by
  have haccepted : b.rehydrate store = ((b.rehydrate store).1, none) :=
    Prod.ext rfl ((b.rehydrate_accepts_iff store).mpr ⟨count, h⟩)
  obtain ⟨hbalance, hversion, _⟩ := rehydrate_reads haccepted
  obtain ⟨hcontiguous, rfl⟩ := unbroken_iff.mp h
  refine ⟨_, haccepted, ?_, ?_, ?_⟩
  · rw [hversion]
    exact toInt_lastRead hcontiguous
  · rw [hbalance, computeTrueBalance_eq]
  · rw [hbalance, hversion, computeBalance_eq]

end BusinessActor

/-- The rehydration succeeds exactly if the versions after the snapshot are the next
ones without a gap. It then reads their sum and the last version, and the audit and
the gateway read the same. A failure changes neither the balance nor the version. -/
theorem readers_agree (store : WalletStore) (b : BusinessActor) :
    ((b.rehydrate store).2 = none ↔ ∃ count, store.Unbroken count) ∧
    (∀ count, store.Unbroken count →
      (b.rehydrate store).1.version.toInt =
        (store.snapshot.getD ⟨0, 0⟩).lastVersion.toInt + count ∧
      (b.rehydrate store).1.balance = (store.snapshot.getD ⟨0, 0⟩).balance +
        (store.afterSnapshot.map EventRow.deltaAmount).sum ∧
      computeTrueBalance store none none = .ok (b.rehydrate store).1.balance ∧
      computeBalance store none none =
        .ok ((b.rehydrate store).1.balance, (b.rehydrate store).1.version)) ∧
    ((b.rehydrate store).2 ≠ none →
      (b.rehydrate store).1.balance = b.balance ∧
      (b.rehydrate store).1.version = b.version) := by
  refine ⟨b.rehydrate_accepts_iff store, ?_, BusinessActor.rehydrate_keeps⟩
  intro count hunbroken
  obtain ⟨recovered, hrecovered, hversion, haudit, hgateway⟩ :=
    BusinessActor.rehydrate_of_unbroken hunbroken b
  rw [hrecovered]
  refine ⟨hversion, ?_, haudit, hgateway⟩
  rw [← replay_eq_add_sum]
  exact (rehydrate_reads hrecovered).1

/-- Three events, the first two of which a snapshot covers. -/
def covered : WalletStore :=
  (((WalletStore.empty.upsertEvent ⟨1, 5, "a", 100, []⟩).upsertEvent
    ⟨2, 6, "b", -30, []⟩).upsertEvent ⟨3, 7, "c", 5, []⟩).upsertSnapshot ⟨70, 2⟩

theorem unbroken_covered : covered.Unbroken 1 :=
  unbroken_iff.mpr ⟨⟨rfl, trivial⟩, rfl⟩

theorem readers_agree_covered :
    ((newBusinessActor 1 42 0).rehydrate covered).1.version.toInt = 3 ∧
      ((newBusinessActor 1 42 0).rehydrate covered).1.balance = 75 ∧
      computeTrueBalance covered none none = .ok 75 ∧
      computeBalance covered none none = .ok (75, 3) := by
  obtain ⟨_, hread, _⟩ := readers_agree covered (newBusinessActor 1 42 0)
  obtain ⟨hversion, hbalance, haudit, hgateway⟩ := hread 1 unbroken_covered
  have hsum : ((newBusinessActor 1 42 0).rehydrate covered).1.balance = 75 := hbalance
  have hlast : ((newBusinessActor 1 42 0).rehydrate covered).1.version = 3 :=
    Int64.toInt_inj.mp hversion
  rw [hsum] at haudit hgateway
  rw [hlast] at hgateway
  exact ⟨hversion, hsum, haudit, hgateway⟩

end ActorCluster.Wallet
