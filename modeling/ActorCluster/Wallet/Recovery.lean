import ActorCluster.Foundation.Ledger
import ActorCluster.Wallet.BusinessActor

/-! # Recovery of a wallet from its ledger

The stored rows of a wallet present a ledger: its versions count the rows from
one, and every snapshot, stored or still in flight, is the balance of a settled
prefix. An actor holds the ledger when its balance and version are those of the
settled rows. `rehydrate` turns any such store into an actor that holds the
adopted ledger, and each branch of `handle` is one ledger step.
-/

namespace ActorCluster.Wallet

open Remote Partition

theorem toInt_add_one {version : Int64} {n : Nat} (h : version.toInt = n) (hn : n + 1 < 2 ^ 63) :
    (version + 1).toInt = ((n + 1 : Nat) : Int) := by
  rw [Int64.toInt_add, h, Int64.toInt_one, Int.bmod_eq_of_le] <;> push_cast <;> omega

/-- The wrapped running balance of a list of events. -/
def replay (balance : Int64) (rows : List EventRow) : Int64 :=
  rows.foldl (fun acc row => acc + row.deltaAmount) balance

@[simp] theorem replay_nil (balance : Int64) : replay balance [] = balance := rfl

@[simp] theorem replay_append (balance : Int64) (first second : List EventRow) :
    replay balance (first ++ second) = replay (replay balance first) second :=
  List.foldl_append

@[simp] theorem replay_singleton (balance : Int64) (row : EventRow) :
    replay balance [row] = balance + row.deltaAmount := rfl

/-- Seeding a list of replayed ids in order. -/
def BusinessActor.seedAll (b : BusinessActor) (rows : List EventRow) : BusinessActor :=
  rows.foldl (fun b row => b.seedTxID row.txID) b

/-- Seeding caches only ids that were cached before or are replayed. -/
theorem BusinessActor.mem_txCache_seedAll {b : BusinessActor} {rows : List EventRow}
    {txID : String} (h : txID ∈ (b.seedAll rows).txCache) :
    txID ∈ b.txCache ∨ txID ∈ rows.map EventRow.txID := by
  induction rows generalizing b with
  | nil => exact Or.inl h
  | cons row rest ih =>
      rcases ih (b := b.seedTxID row.txID) h with hcache | hrest
      · unfold seedTxID at hcache
        split at hcache
        next => exact Or.inl hcache
        next =>
          rcases Finset.mem_insert.mp hcache with rfl | hold
          · exact Or.inr List.mem_cons_self
          · exact Or.inl hold
      · exact Or.inr (List.mem_cons_of_mem _ hrest)

/-- Seeding counts no events. -/
theorem BusinessActor.seedAll_eventCount (b : BusinessActor) (rows : List EventRow) :
    (b.seedAll rows).eventCount = b.eventCount := by
  induction rows generalizing b with
  | nil => rfl
  | cons row rest ih =>
      have hseed : (b.seedTxID row.txID).eventCount = b.eventCount := by
        unfold seedTxID
        split <;> rfl
      exact (ih (b.seedTxID row.txID)).trans hseed

/-- Recording a committed id caches no other new id. -/
theorem BusinessActor.mem_txCache_addTxID {b : BusinessActor} {txID other : String}
    (h : other ∈ (b.addTxID txID).txCache) : other = txID ∨ other ∈ b.txCache := by
  simp only [addTxID, Finset.mem_insert] at h
  refine h.imp_right fun hkept => ?_
  split at hkept
  next => exact Finset.mem_of_mem_erase hkept
  next => exact hkept

/-- A scan that accepts its rows has seeded them all. -/
theorem scanEvents_seeded {rows : List EventRow} {balance prev : Int64} {b b' : BusinessActor}
    {end' : Int64 × Int64}
    (h : BusinessActor.scanEvents balance prev b rows = (b', .ok end')) : b' = b.seedAll rows := by
  induction rows generalizing balance prev b with
  | nil =>
      cases h
      rfl
  | cons row rest ih =>
      unfold BusinessActor.scanEvents at h
      split at h
      · cases h
      · exact ih h

/-- A rehydration is a scan of the events after the snapshot. -/
theorem rehydrate_eq (b : BusinessActor) (store : WalletStore) :
    b.rehydrate store =
      match BusinessActor.scanEvents (store.snapshot.getD ⟨0, 0⟩).balance
          (store.snapshot.getD ⟨0, 0⟩).lastVersion b store.afterSnapshot with
      | (scanned, .error err) => (scanned, some err)
      | (scanned, .ok (balance, version)) =>
          ({ scanned with balance := balance, version := version }, none) := by
  rw [BusinessActor.rehydrate, BusinessActor.loadSnapshot]
  dsimp only
  rw [store.getLastD_snapshot]
  rfl

/-- A successful rehydration is a successful scan of the events after the
snapshot. -/
theorem rehydrate_scans {store : WalletStore} {b recovered : BusinessActor}
    (h : b.rehydrate store = (recovered, none)) :
    ∃ scanned, BusinessActor.scanEvents (store.snapshot.getD ⟨0, 0⟩).balance
        (store.snapshot.getD ⟨0, 0⟩).lastVersion b store.afterSnapshot =
          (scanned, .ok (recovered.balance, recovered.version)) ∧
      recovered = { scanned with balance := recovered.balance, version := recovered.version } := by
  rw [rehydrate_eq] at h
  split at h
  next => cases h
  next hscan =>
    cases h
    exact ⟨_, hscan, rfl⟩

/-- A successful rehydration has seeded the events after the snapshot, and sets
nothing else but the balance and the version. -/
theorem rehydrate_seeded {store : WalletStore} {b recovered : BusinessActor}
    (h : b.rehydrate store = (recovered, none)) :
    recovered = { b.seedAll store.afterSnapshot with
      balance := recovered.balance, version := recovered.version } := by
  obtain ⟨scanned, hscan, heq⟩ := rehydrate_scans h
  rw [scanEvents_seeded hscan] at heq
  exact heq

/-- The version of the last row, or the one before the rows. -/
def lastRead (prev : Int64) (rows : List EventRow) : Int64 :=
  rows.foldl (fun _ row => row.version) prev

/-- A scan that accepts its rows has added up their deltas. -/
theorem scanEvents_reads {rows : List EventRow} {balance prev balance' version' : Int64}
    {b b' : BusinessActor}
    (h : BusinessActor.scanEvents balance prev b rows = (b', .ok (balance', version'))) :
    balance' = replay balance rows ∧ version' = lastRead prev rows := by
  induction rows generalizing balance prev b with
  | nil =>
      cases h
      exact ⟨rfl, rfl⟩
  | cons row rest ih =>
      unfold BusinessActor.scanEvents at h
      split at h
      · cases h
      · exact ih h

theorem le_lastRead {rows : List EventRow} {prev : Int64}
    (hordered : Ordered EventRow.key rows)
    (hafter : ∀ row ∈ rows, prev.toInt < row.version.toInt) :
    prev.toInt ≤ (lastRead prev rows).toInt ∧
      ∀ row ∈ rows, row.version.toInt ≤ (lastRead prev rows).toInt := by
  induction rows generalizing prev with
  | nil => exact ⟨Int.le_refl _, by simp⟩
  | cons row rest ih =>
      obtain ⟨hrow, hrest⟩ := List.pairwise_cons.mp hordered
      obtain ⟨hle, hall⟩ := ih hrest hrow
      have hprev := hafter row List.mem_cons_self
      exact ⟨by simp only [lastRead, List.foldl_cons] at hle ⊢; omega,
        List.forall_mem_cons.mpr ⟨hle, hall⟩⟩

/-- The comparison of the gap check is exact for a later version. -/
theorem eq_add_one_iff {prev version : Int64} (hlater : prev.toInt < version.toInt) :
    version = prev + 1 ↔ version.toInt = prev.toInt + 1 := by
  have hlow := prev.le_toInt
  have hhigh := version.toInt_lt
  have hnext : (prev + 1).toInt = prev.toInt + 1 := by
    rw [Int64.toInt_add, Int64.toInt_one, Int.bmod_eq_of_le] <;> omega
  rw [← hnext, Int64.toInt_inj]

theorem toInt_lastRead {rows : List EventRow} {prev : Int64}
    (h : Contiguous EventRow.key prev.toInt rows) :
    (lastRead prev rows).toInt = prev.toInt + rows.length := by
  induction rows generalizing prev with
  | nil => simp [lastRead]
  | cons row rest ih =>
      have hkey : row.version.toInt = prev.toInt + 1 := h.1
      have hlast := ih (hkey ▸ h.2)
      rw [List.length_cons, Nat.cast_add_one]
      change (lastRead row.version rest).toInt = _
      omega

/-- What a successful rehydration reads: the balance of the stored rows and the
newest of their versions. -/
theorem rehydrate_reads {store : WalletStore} {b recovered : BusinessActor}
    (h : b.rehydrate store = (recovered, none)) :
    recovered.balance = replay (store.snapshot.getD ⟨0, 0⟩).balance store.afterSnapshot ∧
      recovered.version =
        lastRead (store.snapshot.getD ⟨0, 0⟩).lastVersion store.afterSnapshot ∧
      (store.snapshot.getD ⟨0, 0⟩).lastVersion.toInt ≤ recovered.version.toInt ∧
      ∀ row ∈ store.events, row.version.toInt ≤ recovered.version.toInt := by
  obtain ⟨scanned, hscan, _⟩ := rehydrate_scans h
  obtain ⟨hbalance, hversion⟩ := scanEvents_reads hscan
  have hmem {row : EventRow} : row ∈ store.afterSnapshot ↔ row ∈ store.events ∧
      (store.snapshot.getD ⟨0, 0⟩).lastVersion.toInt < row.version.toInt := by
    simp [WalletStore.afterSnapshot, WalletStore.eventsAfter, Int64.lt_iff_toInt_lt]
  obtain ⟨hle, hall⟩ := le_lastRead (store.ordered.filter _) fun row hrow => (hmem.mp hrow).2
  rw [← WalletStore.eventsAfter, ← WalletStore.afterSnapshot, ← hversion] at hle hall
  refine ⟨hbalance, hversion, hle, fun row hrow => ?_⟩
  -- a row that is not replayed is covered by the snapshot
  by_cases hcovered : (store.snapshot.getD ⟨0, 0⟩).lastVersion.toInt < row.version.toInt
  · exact hall row (hmem.mpr ⟨hrow, hcovered⟩)
  · omega

/-- The scan accepts rows that count upwards from the previous version. -/
theorem scanEvents_of_contiguous {rows : List EventRow} {prev : Int64}
    (h : Contiguous EventRow.key prev.toInt rows) (balance : Int64) (b : BusinessActor) :
    BusinessActor.scanEvents balance prev b rows =
      (b.seedAll rows, .ok (replay balance rows, lastRead prev rows)) := by
  induction rows generalizing prev balance b with
  | nil => rfl
  | cons row rest ih =>
      have hkey : row.version.toInt = prev.toInt + 1 := h.1
      have hversion : row.version = prev + 1 := (eq_add_one_iff (by omega)).mpr hkey
      rw [BusinessActor.scanEvents, if_neg (not_not.mpr hversion), ih (hkey ▸ h.2)]
      rfl

/-- A snapshot is the balance of a prefix of the settled rows. -/
def Agrees (settled : List EventRow) (snap : Snapshot) : Prop :=
  ∃ k ≤ settled.length, snap.lastVersion.toInt = k ∧ snap.balance = replay 0 (settled.take k)

theorem Agrees.mono {settled longer : List EventRow} {snap : Snapshot}
    (h : Agrees settled snap) (hlonger : settled <+: longer) : Agrees longer snap := by
  obtain ⟨k, hk, hversion, hbalance⟩ := h
  obtain ⟨rest, rfl⟩ := hlonger
  refine ⟨k, ?_, hversion, ?_⟩
  · rw [List.length_append]; omega
  · rw [hbalance, List.take_append_of_le_length hk]

/-- The absent snapshot row reads as zeroes, which agree with every ledger. -/
theorem agrees_zero (settled : List EventRow) : Agrees settled ⟨0, 0⟩ :=
  ⟨0, Nat.zero_le _, by simp, by simp⟩

/-- The store presents the ledger, and so does every snapshot that is stored
or may still land. -/
structure Backs (maxRows : Nat) (store : WalletStore) (inFlight : List Snapshot)
    (ledger : Ledger EventRow) : Prop where
  events : store.events = ledger.rows
  numbered : Contiguous EventRow.key 0 ledger.rows
  bounded : ledger.rows.length ≤ maxRows
  launched : ∀ snap ∈ inFlight, Agrees ledger.settled snap
  stored : ∀ snap, store.snapshot = some snap → Agrees ledger.settled snap

/-- The in-memory balance and version are those of the settled rows, and only
ids of settled rows are answered as duplicates. -/
structure HoldsLedger (b : BusinessActor) (ledger : Ledger EventRow) : Prop where
  version : b.version.toInt = ledger.settled.length
  balance : b.balance = replay 0 ledger.settled
  cached : ∀ txID ∈ b.txCache, txID ∈ ledger.settled.map EventRow.txID

namespace Backs

variable {maxRows : Nat} {store : WalletStore} {inFlight : List Snapshot}
variable {ledger : Ledger EventRow}

theorem empty (maxRows : Nat) : Backs maxRows WalletStore.empty [] Ledger.empty where
  events := rfl
  numbered := trivial
  bounded := Nat.zero_le _
  launched := by simp
  stored := by simp [WalletStore.empty]

/-- A snapshot write may land at any time. -/
theorem land (h : Backs maxRows store inFlight ledger) {snap : Snapshot} (hsnap : snap ∈ inFlight) :
    Backs maxRows (store.upsertSnapshot snap) inFlight ledger where
  events := h.events
  numbered := h.numbered
  bounded := h.bounded
  launched := h.launched
  stored := by
    rintro other hother
    cases Option.some.inj hother
    exact h.launched snap hsnap

theorem adopt (h : Backs maxRows store inFlight ledger) :
    Backs maxRows store inFlight ledger.adopt where
  events := by rw [h.events, Ledger.rows_adopt]
  numbered := by rw [Ledger.rows_adopt]; exact h.numbered
  bounded := by rw [Ledger.rows_adopt]; exact h.bounded
  launched := fun snap hsnap => (h.launched snap hsnap).mono ledger.settled_prefix_rows
  stored := fun snap hsnap => (h.stored snap hsnap).mono ledger.settled_prefix_rows

/-- The snapshot row a rehydration reads agrees with the ledger. -/
theorem loadSnapshot (h : Backs maxRows store inFlight ledger) :
    ∃ snap, BusinessActor.loadSnapshot ⟨store.snapshot.toList, none⟩ = .ok snap ∧
      Agrees ledger.settled snap := by
  cases hsnap : store.snapshot with
  | none => exact ⟨⟨0, 0⟩, rfl, agrees_zero _⟩
  | some snap => exact ⟨snap, rfl, h.stored snap hsnap⟩

/-- A query for the events after an agreeing snapshot drops those it covers. -/
theorem eventsAfter_eq (h : Backs maxRows store inFlight ledger) {last : Int64} {k : Nat}
    (hlast : last.toInt = k) : store.eventsAfter last = ledger.rows.drop k := by
  rw [← h.numbered.filter_after k, WalletStore.eventsAfter, h.events, Int.zero_add, ← hlast]
  exact List.filter_congr fun row _ => decide_eq_decide.mpr Int64.lt_iff_toInt_lt

/-- Replaying the events after any agreeing snapshot yields an actor that
holds the adopted ledger, also when the snapshot is no longer the stored one. -/
theorem loadEvents (h : Backs maxRows store inFlight ledger) {snap : Snapshot}
    (hsnap : Agrees ledger.settled snap) {b : BusinessActor} (hfresh : b.txCache = ∅) :
    ∃ k recovered, snap.lastVersion.toInt = ((k : Nat) : Int) ∧ k ≤ ledger.settled.length ∧
      b.loadEvents snap ⟨store.eventsAfter snap.lastVersion, none⟩ = (recovered, none) ∧
      recovered = { b.seedAll (ledger.rows.drop k) with
        balance := recovered.balance, version := recovered.version } ∧
      HoldsLedger recovered ledger.adopt := by
  obtain ⟨k, hk, hversion, hbalance⟩ := hsnap
  have hlen : k ≤ ledger.rows.length :=
    hk.trans (List.IsPrefix.length_le ledger.settled_prefix_rows)
  have hrows := h.eventsAfter_eq hversion
  have hsplit : ledger.rows.take k ++ ledger.rows.drop k = ledger.rows :=
    List.take_append_drop k ledger.rows
  have htail : Contiguous EventRow.key snap.lastVersion.toInt (ledger.rows.drop k) := by
    have hnumbered := h.numbered
    rw [← hsplit, Contiguous.append_iff] at hnumbered
    simpa [hversion, Nat.min_eq_left hlen] using hnumbered.2
  have hreplay : replay snap.balance (ledger.rows.drop k) = replay 0 ledger.rows := by
    have htake : ledger.settled.take k = ledger.rows.take k := by
      rw [Ledger.rows, List.take_append_of_le_length hk]
    rw [hbalance, htake, ← replay_append, hsplit]
  refine ⟨k, { b.seedAll (ledger.rows.drop k) with
      balance := replay 0 ledger.rows
      version := lastRead snap.lastVersion (ledger.rows.drop k) },
    hversion, hk, ?_, rfl, ?_, rfl, ?_⟩
  · rw [BusinessActor.loadEvents, hrows, scanEvents_of_contiguous htail, hreplay]
  · change (lastRead snap.lastVersion (ledger.rows.drop k)).toInt = ledger.rows.length
    rw [toInt_lastRead htail, hversion, List.length_drop]
    omega
  · intro txID htxID
    rcases BusinessActor.mem_txCache_seedAll htxID with hold | hrow
    · simp [hfresh] at hold
    · exact List.map_subset _ (List.drop_subset k _) hrow

/-- A row at the version after the settled ones replaces the tentative row, or
is appended when there is none. -/
theorem events_upsertEvent (h : Backs maxRows store inFlight ledger) {row : EventRow}
    (hkey : row.key = ((ledger.settled.length + 1 : Nat) : Int)) :
    (store.upsertEvent row).events = ledger.settled ++ [row] := by
  have hnumbered := h.numbered
  rw [Ledger.rows, Contiguous.append_iff] at hnumbered
  have hlt : ∀ other ∈ ledger.settled, other.key < row.key := by
    intro other hother
    have hbounds := (hnumbered.1.key_bounds hother).2
    omega
  change Partition.insertRow EventRow.key row store.events = _
  rw [h.events, Ledger.rows]
  cases htail : ledger.tentative with
  | none => simpa using Partition.insertRow_of_forall_lt hlt
  | some last =>
      have hlast : row.key = last.key := by
        rw [htail] at hnumbered
        rw [hkey, hnumbered.2.1]
        omega
      exact Partition.insertRow_last hlt hlast

/-- The rows after a write at the next version are numbered and fit. -/
theorem numbered_write (h : Backs maxRows store inFlight ledger) {row : EventRow}
    (hkey : row.key = ((ledger.settled.length + 1 : Nat) : Int)) :
    Contiguous EventRow.key 0 (ledger.settled ++ [row]) := by
  have hnumbered := h.numbered
  rw [Ledger.rows, Contiguous.append_iff] at hnumbered
  exact Contiguous.append_iff.mpr ⟨hnumbered.1, by rw [hkey]; omega, trivial⟩

/-- An applied write whose error is reported leaves its row tentative. -/
theorem offer (h : Backs maxRows store inFlight ledger) {row : EventRow}
    (hkey : row.key = ((ledger.settled.length + 1 : Nat) : Int))
    (hroom : ledger.settled.length + 1 ≤ maxRows) :
    Backs maxRows (store.upsertEvent row) inFlight (ledger.offer row) where
  events := by rw [h.events_upsertEvent hkey, Ledger.rows_offer]
  numbered := by rw [Ledger.rows_offer]; exact h.numbered_write hkey
  bounded := by simpa using hroom
  launched := h.launched
  stored := h.stored

/-- An acknowledged write settles its row. -/
theorem settle (h : Backs maxRows store inFlight ledger) {row : EventRow}
    (hkey : row.key = ((ledger.settled.length + 1 : Nat) : Int))
    (hroom : ledger.settled.length + 1 ≤ maxRows) :
    Backs maxRows (store.upsertEvent row) inFlight (ledger.settle row) where
  events := by rw [h.events_upsertEvent hkey, Ledger.rows_settle]
  numbered := by rw [Ledger.rows_settle]; exact h.numbered_write hkey
  bounded := by simpa using hroom
  launched := fun snap hsnap => (h.launched snap hsnap).mono (List.prefix_append _ _)
  stored := fun snap hsnap => (h.stored snap hsnap).mono (List.prefix_append _ _)

/-- A newly launched snapshot of an actor that holds the ledger agrees with it. -/
theorem launch (h : Backs maxRows store inFlight ledger) {b : BusinessActor}
    (hb : HoldsLedger b ledger) :
    Backs maxRows store (b.takeSnapshotAsync :: inFlight) ledger where
  events := h.events
  numbered := h.numbered
  bounded := h.bounded
  launched := by
    intro snap hsnap
    rcases List.mem_cons.mp hsnap with rfl | hmem
    · exact ⟨_, le_rfl, hb.version, by rw [List.take_length]; exact hb.balance⟩
    · exact h.launched snap hmem
  stored := h.stored

/-- A partition that takes one more row has not exhausted its versions: the
next version does not wrap around. -/
theorem next_version (h : Backs maxRows store inFlight ledger) (hmax : maxRows < 2 ^ 63)
    {b : BusinessActor} (hb : HoldsLedger b ledger)
    (hroom : store.HasRoom maxRows (b.version + 1)) :
    (b.version + 1).toInt = ((ledger.settled.length + 1 : Nat) : Int) ∧
      ledger.settled.length + 1 ≤ maxRows := by
  have hlen := List.IsPrefix.length_le ledger.settled_prefix_rows
  have hbounded := h.bounded
  rcases hroom with ⟨row, hrow, hversion⟩ | hfits
  · rw [h.events] at hrow
    obtain ⟨hlow, hhigh⟩ := h.numbered.key_bounds hrow
    have hkey : row.key = (b.version + 1).toInt := congrArg Int64.toInt hversion
    have hnowrap : ledger.settled.length + 1 < 2 ^ 63 := by
      by_contra hwrap
      have hfull : ledger.settled.length + 1 = 2 ^ 63 := by omega
      have hmin : (b.version + 1).toInt = -2 ^ 63 := by
        rw [Int64.toInt_add, hb.version, Int64.toInt_one]
        have hsum : (ledger.settled.length : Int) + 1 = 2 ^ 63 := by exact_mod_cast hfull
        rw [hsum]
        rfl
      omega
    have hnext := toInt_add_one hb.version hnowrap
    exact ⟨hnext, by omega⟩
  · rw [h.events] at hfits
    exact ⟨toInt_add_one hb.version (by omega), by omega⟩

end Backs

/-- The ledger step taken by one call of `handle`: nothing is written, the row
is left tentative, or the row is settled. -/
inductive HandleStep (b : BusinessActor) (env : RemoteEnvelope) (now : Int)
    (outcome : WriteOutcome) (ledger : Ledger EventRow) : Ledger EventRow → Prop
  | unwritten (hskip : ¬ b.Admits env ∨ outcome.takesEffect = false) :
      HandleStep b env now outcome ledger ledger
  | tentative (hadmits : b.Admits env) (hne : outcome ≠ .applied)
      (heffect : outcome.takesEffect = true) :
      HandleStep b env now outcome ledger (ledger.offer (b.eventRow env now))
  | settled (hadmits : b.Admits env) (happlied : outcome = .applied) :
      HandleStep b env now outcome ledger (ledger.settle (b.eventRow env now))

theorem HandleStep.ledger_step {b : BusinessActor} {env : RemoteEnvelope} {now : Int}
    {outcome : WriteOutcome} {ledger next : Ledger EventRow}
    (h : HandleStep b env now outcome ledger next) : Ledger.Step ledger next := by
  cases h with
  | unwritten => exact .stay _
  | tentative => exact .offer _ _
  | settled => exact .settle _ _

/-- The store can hold the row that an applied write adds. -/
def WriteFits (maxRows : Nat) (store : WalletStore) (b : BusinessActor)
    (outcome : WriteOutcome) : Prop :=
  outcome.takesEffect = true → store.HasRoom maxRows (b.version + 1)

/-- One call of `handle` by an actor that holds the ledger is one ledger step,
after which the actor holds the resulting ledger. -/
theorem HoldsLedger.handle {maxRows : Nat} {store : WalletStore} {inFlight : List Snapshot}
    {ledger : Ledger EventRow} {b : BusinessActor} (hb : HoldsLedger b ledger)
    (h : Backs maxRows store inFlight ledger) (hmax : maxRows < 2 ^ 63)
    (env : RemoteEnvelope) (now : Int) (outcome : WriteOutcome)
    (hfits : WriteFits maxRows store b outcome) :
    ∃ next, HandleStep b env now outcome ledger next ∧
      HoldsLedger (b.handle store env now outcome).actor next ∧
      Backs maxRows (b.handle store env now outcome).store
        ((b.handle store env now outcome).snapshot.toList ++ inFlight) next := by
  by_cases hadmits : b.Admits env
  · cases herr : outcome.err with
    | some msg =>
        obtain ⟨result, _, _, heq⟩ := BusinessActor.handle_of_err store now outcome hadmits herr
        rw [heq]
        have hne : outcome ≠ .applied := by
          rintro rfl
          cases herr
        cases heffect : outcome.takesEffect with
        | false => exact ⟨ledger, .unwritten (.inr heffect), ⟨hb.version, hb.balance, hb.cached⟩, h⟩
        | true =>
            obtain ⟨hkey, hroom⟩ := h.next_version hmax hb (hfits heffect)
            exact ⟨_, .tentative hadmits hne heffect, ⟨hb.version, hb.balance, hb.cached⟩,
              h.offer hkey hroom⟩
    | none =>
        have happlied : outcome = .applied := by
          cases outcome <;> first | rfl | cases herr
        subst happlied
        obtain ⟨hstore, hcommitted⟩ := BusinessActor.handle_of_applied store now hadmits
        obtain ⟨hkey, hroom⟩ := h.next_version hmax hb (hfits rfl)
        have hholds : HoldsLedger (b.handle store env now .applied).actor
            (ledger.settle (b.eventRow env now)) := by
          refine ⟨?_, ?_, ?_⟩
          · rw [hcommitted.version, hkey]
            simp [Ledger.settle]
          · rw [hcommitted.balance, hb.balance]
            simp [Ledger.settle, BusinessActor.eventRow]
          · intro txID htxID
            rw [hcommitted.txCache] at htxID
            simp only [Ledger.settle, List.map_append, List.mem_append]
            rcases BusinessActor.mem_txCache_addTxID htxID with rfl | hold
            · exact Or.inr List.mem_cons_self
            · exact Or.inl (hb.cached txID hold)
        have hbacks := h.settle (show (b.eventRow env now).key = _ from hkey) hroom
        refine ⟨_, .settled hadmits rfl, hholds, ?_⟩
        rw [hstore]
        cases hsnap : (b.handle store env now .applied).snapshot with
        | none => exact hbacks
        | some snap =>
            rw [hcommitted.snapshot snap hsnap]
            exact hbacks.launch hholds
  · obtain ⟨result, _, _, heq⟩ := BusinessActor.handle_of_not_admits store now outcome hadmits
    rw [heq]
    exact ⟨ledger, .unwritten (.inl hadmits), ⟨hb.version, hb.balance, hb.cached⟩, h⟩

end ActorCluster.Wallet
