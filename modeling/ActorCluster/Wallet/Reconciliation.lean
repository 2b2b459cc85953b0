import ActorCluster.Foundation.Transition
import ActorCluster.Wallet.Recovery

/-! # Reconciliation during an ownership overlap

The audit recomputes a balance from the rows that are stored. Two actors of one
wallet, rehydrated from the same store, count their versions each on their own;
an event of one that takes the version of an event of the other replaces it, and
the audit no longer sees the replaced delta.
-/

namespace ActorCluster.Wallet

open Remote Transition

/-- `computeTrueBalance`, given the errors that its two queries report. -/
def computeTrueBalance (store : WalletStore) (snapshotErr eventsErr : Option String) :
    Except String Int64 :=
  match snapshotErr with
  | some msg =>
      .error ("computeTrueBalance: load snapshot failed: persistence: Query failed: " ++ msg)
  | none =>
      let snapshot := store.snapshot.toList.getLastD ⟨0, 0⟩
      match eventsErr with
      | some msg =>
          .error ("computeTrueBalance: load events failed: persistence: Query failed: " ++ msg)
      | none => .ok (replay snapshot.balance (store.eventsAfter snapshot.lastVersion))

theorem computeTrueBalance_eq (store : WalletStore) :
    computeTrueBalance store none none =
      .ok (replay (store.snapshot.getD ⟨0, 0⟩).balance store.afterSnapshot) := by
  simp only [computeTrueBalance, store.getLastD_snapshot, WalletStore.afterSnapshot]

/-- The store, the snapshot writes launched so far, and the actors of the old
and of the new owner. The history has the deltas acknowledged with success. -/
structure OverlapRun where
  store : WalletStore
  inFlight : List Snapshot
  actor : Bool → BusinessActor
  acked : List Int64

/-- A call of `handle` whose write succeeds, or a snapshot write that lands. -/
inductive OverlapAction where
  | handle (i : Bool) (env : RemoteEnvelope) (now : Int)
  | land (index : Nat)

namespace OverlapRun

/-- One call of `handle`. A success with a balance acknowledges a new event. -/
def handleStep (s : OverlapRun) (i : Bool) (env : RemoteEnvelope) (now : Int) : OverlapRun :=
  let h := (s.actor i).handle s.store env now .applied
  { store := h.store
    inFlight := h.snapshot.toList ++ s.inFlight
    actor := Function.update s.actor i h.actor
    acked :=
      if h.result.success = true ∧ h.result.payload ≠ [] then
        s.acked ++ [BusinessActor.decodeAmount env.payload]
      else s.acked }

end OverlapRun

/-- Two actors on one store. -/
def overlap (store : WalletStore) (actor : Bool → BusinessActor) :
    System OverlapRun OverlapAction where
  init := ⟨store, [], actor, []⟩
  step s
    | .handle i env now => some (s.handleStep i env now)
    | .land index => s.inFlight[index]?.map fun snap =>
        { s with store := s.store.upsertSnapshot snap }

/-- No event is written over a stored one, and the versions do not run out. -/
def Unclaimed (s : OverlapRun) : OverlapAction → Prop
  | .handle i env _ => (s.actor i).Admits env →
      (∀ row ∈ s.store.events, row.version ≠ (s.actor i).version + 1) ∧
      (s.actor i).version.toInt + 1 < 2 ^ 63
  | .land _ => True

/-- Replaying the stored events after a snapshot yields the balance. -/
def Yields (store : WalletStore) (latest balance : Int64) (snap : Snapshot) : Prop :=
  snap.lastVersion.toInt ≤ latest.toInt ∧
    replay snap.balance (store.eventsAfter snap.lastVersion) = balance

/-- The audited balance, whatever snapshot is read. An actor either knows it, or
another one has taken its next version. -/
structure Audited (s : OverlapRun) (latest balance : Int64) : Prop where
  newest : ∀ row ∈ s.store.events, row.version.toInt ≤ latest.toInt
  stored : Yields s.store latest balance (s.store.snapshot.getD ⟨0, 0⟩)
  launched : ∀ snap ∈ s.inFlight, Yields s.store latest balance snap
  knows : ∀ i, (s.actor i).version = latest ∧ (s.actor i).balance = balance ∨
    ∃ row ∈ s.store.events, row.version = (s.actor i).version + 1

section

variable {store : WalletStore} {latest balance : Int64} {row : EventRow}

theorem events_upsertEvent_of_newest
    (hnewest : ∀ other ∈ store.events, other.version.toInt ≤ latest.toInt)
    (hnext : row.version.toInt = latest.toInt + 1) :
    (store.upsertEvent row).events = store.events ++ [row] := by
  refine Partition.insertRow_of_forall_lt fun other hother => ?_
  have hle := hnewest other hother
  change other.version.toInt < row.version.toInt
  omega

theorem newest_upsertEvent (hnewest : ∀ other ∈ store.events, other.version.toInt ≤ latest.toInt)
    (hnext : row.version.toInt = latest.toInt + 1) :
    ∀ other ∈ (store.upsertEvent row).events, other.version.toInt ≤ row.version.toInt := by
  intro other hother
  rw [events_upsertEvent_of_newest hnewest hnext, List.mem_append, List.mem_singleton] at hother
  rcases hother with hold | rfl
  · have hle := hnewest other hold
    omega
  · exact Int.le_refl _

/-- A snapshot of the newest version leaves nothing to replay. -/
theorem yields_newest (hnewest : ∀ other ∈ store.events, other.version.toInt ≤ latest.toInt)
    (balance : Int64) : Yields store latest balance ⟨balance, latest⟩ := by
  have hnone : store.eventsAfter latest = [] := by
    refine List.filter_eq_nil_iff.mpr fun other hother => ?_
    rw [decide_eq_true_eq, Int64.lt_iff_toInt_lt, Int.not_lt]
    exact hnewest other hother
  refine ⟨Int.le_refl _, ?_⟩
  rw [hnone, replay_nil]

/-- An event after all others adds its delta to what every snapshot yields. -/
theorem Yields.upsertEvent {snap : Snapshot} (h : Yields store latest balance snap)
    (hnewest : ∀ other ∈ store.events, other.version.toInt ≤ latest.toInt)
    (hnext : row.version.toInt = latest.toInt + 1) :
    Yields (store.upsertEvent row) row.version (balance + row.deltaAmount) snap := by
  obtain ⟨hle, hreplay⟩ := h
  have hafter : snap.lastVersion < row.version := by
    rw [Int64.lt_iff_toInt_lt]
    omega
  refine ⟨by omega, ?_⟩
  unfold WalletStore.eventsAfter at hreplay ⊢
  rw [events_upsertEvent_of_newest hnewest hnext, List.filter_append, replay_append, hreplay]
  simp [hafter]

end

section

variable {s : OverlapRun} {latest balance : Int64}

theorem Audited.computeTrueBalance (h : Audited s latest balance) :
    computeTrueBalance s.store none none = .ok balance := by
  rw [computeTrueBalance_eq]
  exact congrArg Except.ok h.stored.2

theorem Audited.land (h : Audited s latest balance) {snap : Snapshot} (hsnap : snap ∈ s.inFlight) :
    Audited { s with store := s.store.upsertSnapshot snap } latest balance :=
  ⟨h.newest, h.launched snap hsnap, h.launched, h.knows⟩

/-- A call that writes nothing changes the activity clock at most. -/
theorem Audited.handle_of_not_admits (h : Audited s latest balance) {i : Bool}
    {env : RemoteEnvelope} (hadmits : ¬ (s.actor i).Admits env) (now : Int) :
    Audited (s.handleStep i env now) latest balance := by
  obtain ⟨result, _, _, heq⟩ :=
    BusinessActor.handle_of_not_admits s.store now .applied hadmits
  simp only [OverlapRun.handleStep, heq]
  refine ⟨h.newest, h.stored, h.launched, ?_⟩
  rw [Function.forall_update_iff s.actor fun _ b =>
    b.version = latest ∧ b.balance = balance ∨ ∃ row ∈ s.store.events, row.version = b.version + 1]
  exact ⟨h.knows i, fun j _ => h.knows j⟩

/-- An event at a free version is the newest one; the other actor does not know
of it. -/
theorem Audited.handle_of_unclaimed (h : Audited s latest balance) {i : Bool}
    {env : RemoteEnvelope} (hadmits : (s.actor i).Admits env) (now : Int)
    (hfree : ∀ row ∈ s.store.events, row.version ≠ (s.actor i).version + 1)
    (hroom : (s.actor i).version.toInt + 1 < 2 ^ 63) :
    Audited (s.handleStep i env now) ((s.actor i).version + 1)
      (balance + BusinessActor.decodeAmount env.payload) := by
  obtain ⟨hversion, hbalance⟩ | ⟨row, hrow, hclaimed⟩ := h.knows i
  · obtain ⟨hstore, hcommitted⟩ := BusinessActor.handle_of_applied s.store now hadmits
    have hnext : ((s.actor i).eventRow env now).version.toInt = latest.toInt + 1 := by
      have hlow := (s.actor i).version.le_toInt
      change ((s.actor i).version + 1).toInt = _
      rw [Int64.toInt_add, Int64.toInt_one, Int.bmod_eq_of_le, hversion] <;> omega
    have hnewest := newest_upsertEvent h.newest hnext
    refine ⟨?_, ?_, ?_, ?_⟩ <;> simp only [OverlapRun.handleStep, hstore]
    · exact hnewest
    · exact h.stored.upsertEvent h.newest hnext
    · intro snap hsnap
      rcases List.mem_append.mp hsnap with hnew | hold
      · rw [hcommitted.snapshot snap (Option.mem_toList.mp hnew), BusinessActor.takeSnapshotAsync,
          hcommitted.version, hcommitted.balance, hbalance]
        exact yields_newest hnewest _
      · exact (h.launched snap hold).upsertEvent h.newest hnext
    · rw [Function.forall_update_iff s.actor fun _ b =>
        b.version = (s.actor i).version + 1 ∧
          b.balance = balance + BusinessActor.decodeAmount env.payload ∨
        ∃ row ∈ (s.store.upsertEvent ((s.actor i).eventRow env now)).events,
          row.version = b.version + 1]
      rw [events_upsertEvent_of_newest h.newest hnext]
      refine ⟨.inl ⟨hcommitted.version, by rw [hcommitted.balance, hbalance]⟩, fun j _ => .inr ?_⟩
      -- an actor that knew the balance before is overtaken by the new event
      obtain ⟨hlevel, _⟩ | ⟨row, hrow, hclaimed⟩ := h.knows j
      · exact ⟨_, List.mem_append_right _ List.mem_cons_self, by
          rw [hlevel, ← hversion, BusinessActor.eventRow]⟩
      · exact ⟨row, List.mem_append_left _ hrow, hclaimed⟩
  · exact absurd hclaimed (hfree row hrow)

end

section Overlap

variable {tenantID : Int32} {uid : Int64} {now : Bool → Int} {store : WalletStore}
variable {actor : Bool → BusinessActor}

/-- Two actors that were rehydrated from one store know the audited balance. -/
theorem audited_of_rehydrate
    (hload : ∀ i, (newBusinessActor tenantID uid (now i)).rehydrate store = (actor i, none)) :
    Audited ⟨store, [], actor, []⟩ (actor false).version (actor false).balance := by
  have hread := fun i => rehydrate_reads (hload i)
  obtain ⟨hbalance, hversion, hle, hnewest⟩ := hread false
  refine ⟨hnewest, ⟨hle, hbalance.symm⟩, by simp, fun i => .inl ⟨?_, ?_⟩⟩
  · rw [(hread i).2.1, hversion]
  · rw [(hread i).1, hbalance]

/-- As long as no event is written over a stored one, the audit yields the
balance before the overlap plus every delta that either actor acknowledged. -/
theorem overlap_reconciled
    (hload : ∀ i, (newBusinessActor tenantID uid (now i)).rehydrate store = (actor i, none))
    {balance : Int64} (hstart : computeTrueBalance store none none = .ok balance)
    {s : OverlapRun} (hs : (overlap store actor).ReachableIf Unclaimed s) :
    computeTrueBalance s.store none none = .ok (balance + s.acked.sum) := by
  have hinit := audited_of_rehydrate hload
  have hbalance := Except.ok.inj (hinit.computeTrueBalance.symm.trans hstart)
  suffices h : ∃ latest, Audited s latest (balance + s.acked.sum) by
    obtain ⟨latest, haudited⟩ := h
    exact haudited.computeTrueBalance
  refine hs.invariant (P := fun s => ∃ latest, Audited s latest (balance + s.acked.sum)) ?_ ?_
  · rw [hbalance] at hinit
    exact ⟨_, by simpa [overlap] using hinit⟩
  · rintro s action t ⟨latest, h⟩ hguard hstep
    cases action with
    | handle i env now =>
        obtain rfl := Option.some.inj hstep
        by_cases hadmits : (s.actor i).Admits env
        · obtain ⟨hfree, hroom⟩ := hguard hadmits
          have hacked : (s.handleStep i env now).acked =
              s.acked ++ [BusinessActor.decodeAmount env.payload] :=
            if_pos ((BusinessActor.handle_acknowledges_iff _ _ _).mpr ⟨hadmits, rfl⟩)
          refine ⟨(s.actor i).version + 1, ?_⟩
          rw [hacked, List.sum_append, List.sum_singleton, ← Int64.add_assoc]
          exact h.handle_of_unclaimed hadmits now hfree hroom
        · have hacked : (s.handleStep i env now).acked = s.acked :=
            if_neg fun hack => hadmits
              ((BusinessActor.handle_acknowledges_iff _ _ _).mp hack).1
          rw [hacked]
          exact ⟨latest, h.handle_of_not_admits hadmits now⟩
    | land index =>
        obtain ⟨snap, hsnap, rfl⟩ := Option.map_eq_some_iff.mp hstep
        exact ⟨latest, h.land (List.mem_of_getElem? hsnap)⟩

end Overlap

/-- An envelope for the wallet `(1, 42)`. -/
def transfer (txId : String) (amount : Int64) : RemoteEnvelope where
  tenantId := 1
  uid := 42
  txId := txId
  requestId := 1
  opCode := 1
  payload := BigEndian.putUint64 amount.toUInt64

/-- The wallet with a balance of 100. -/
def hundred : WalletStore :=
  ((newBusinessActor 1 42 0).handle WalletStore.empty (transfer "W" 100) 5 .applied).store

/-- Both actors as they are rehydrated from it. -/
def overlapping : Bool → BusinessActor :=
  fun _ => ((newBusinessActor 1 42 9).rehydrate hundred).1

theorem rehydrate_overlapping (i : Bool) :
    (newBusinessActor 1 42 9).rehydrate hundred = (overlapping i, none) :=
  Prod.ext rfl (show ((newBusinessActor 1 42 9).rehydrate hundred).2 = none by decide +kernel)

theorem computeTrueBalance_hundred : computeTrueBalance hundred none none = .ok 100 := rfl

/-- The old owner alone takes 50. -/
def withdrawal : OverlapRun :=
  (overlap hundred overlapping).after [.handle false (transfer "X" (-50)) 10]

theorem overlap_reconciled_withdrawal :
    withdrawal.acked = [-50] ∧
      computeTrueBalance withdrawal.store none none = .ok (100 + withdrawal.acked.sum) := by
  have hreach : (overlap hundred overlapping).ReachableIf Unclaimed withdrawal := by
    refine System.reachableIf_singleton fun _ => ⟨?_, ?_⟩ <;> decide +kernel
  exact ⟨by decide +kernel,
    overlap_reconciled rehydrate_overlapping computeTrueBalance_hundred hreach⟩

/-- The old owner takes 50 and the new one 80 from a balance of 100. Both write
version 2, and the audit reports 20. -/
theorem overlap_conceals_overdraft :
    ∃ s, (overlap hundred overlapping).Reachable s ∧ s.acked = [-50, -80] ∧
      computeTrueBalance hundred none none = .ok 100 ∧
      computeTrueBalance s.store none none = .ok 20 :=
  ⟨_, System.reachable_after [.handle false (transfer "X" (-50)) 10,
    .handle true (transfer "Y" (-80)) 11], by decide +kernel, rfl, by rfl⟩

end ActorCluster.Wallet
