import ActorCluster.Wallet.BusinessActor

/-! # The clock of a wallet

The clock reaches the column `created_at` and the field `lastActive`, and nothing
else: without them a rehydration and the handling of an envelope do the same
whatever the time is.
-/

namespace ActorCluster.Wallet

open Remote

/-- A row without its timestamp. -/
def EventRow.undated (row : EventRow) : EventRow := { row with createdAt := 0 }

namespace WalletStore

/-- The tables of a wallet without the timestamps. -/
def undated (store : WalletStore) : WalletStore where
  events := store.events.map EventRow.undated
  ordered := List.pairwise_map.mpr store.ordered
  snapshot := store.snapshot

theorem eq_of_events_of_snapshot {store store' : WalletStore}
    (hevents : store.events = store'.events) (hsnapshot : store.snapshot = store'.snapshot) :
    store = store' := by
  obtain ⟨events, _, snapshot⟩ := store
  obtain ⟨events', _, snapshot'⟩ := store'
  cases hevents
  cases hsnapshot
  rfl

theorem undated_upsertEvent (store : WalletStore) (row : EventRow) :
    (store.upsertEvent row).undated = store.undated.upsertEvent row.undated :=
  have hkey (row : EventRow) : row.undated.key = row.key := rfl
  eq_of_events_of_snapshot (Partition.map_insertRow hkey row store.events) rfl

theorem eventsAfter_undated (store : WalletStore) (lastVersion : Int64) :
    store.undated.eventsAfter lastVersion =
      (store.eventsAfter lastVersion).map EventRow.undated := by
  simp only [eventsAfter, undated, List.filter_map]
  rfl

end WalletStore

namespace BusinessActor

/-- An actor without the time of its last activity. -/
def untimed (b : BusinessActor) : BusinessActor := { b with lastActive := 0 }

theorem seedTxID_untimed (b : BusinessActor) (txID : String) :
    b.untimed.seedTxID txID = (b.seedTxID txID).untimed := by
  unfold seedTxID
  by_cases h : txID ∈ b.txCache
  · rw [if_pos h, if_pos (show txID ∈ b.untimed.txCache from h)]
  · rw [if_neg h, if_neg (show txID ∉ b.untimed.txCache from h)]
    rfl

theorem scanEvents_untimed (balance prevVersion : Int64) (b : BusinessActor)
    (rows : List EventRow) :
    scanEvents balance prevVersion b.untimed (rows.map EventRow.undated) =
      ((scanEvents balance prevVersion b rows).1.untimed,
        (scanEvents balance prevVersion b rows).2) := by
  induction rows generalizing balance prevVersion b with
  | nil => rfl
  | cons row rest ih =>
      simp only [List.map_cons, scanEvents, EventRow.undated]
      split
      · rfl
      · rw [seedTxID_untimed]
        exact ih _ _ _

theorem loadEvents_untimed (b : BusinessActor) (snapshot : Snapshot) (rows : List EventRow)
    (closeErr : Option String) :
    b.untimed.loadEvents snapshot ⟨rows.map EventRow.undated, closeErr⟩ =
      ((b.loadEvents snapshot ⟨rows, closeErr⟩).1.untimed,
        (b.loadEvents snapshot ⟨rows, closeErr⟩).2) := by
  simp only [loadEvents, scanEvents_untimed]
  generalize scanEvents snapshot.balance snapshot.lastVersion b rows = scanned
  obtain ⟨b', err | ⟨balance, prevVersion⟩⟩ := scanned
  · rfl
  · cases closeErr <;> rfl

theorem handle_untimed (b : BusinessActor) (store : WalletStore) (env : RemoteEnvelope) (now : Int)
    (outcome : WriteOutcome) :
    b.untimed.handle store.undated env 0 outcome =
      ⟨(b.handle store env now outcome).actor.untimed,
        (b.handle store env now outcome).store.undated,
        (b.handle store env now outcome).result, (b.handle store env now outcome).snapshot⟩ := by
  unfold handle
  dsimp only
  by_cases hcached : env.txId ∈ b.txCache
  · rw [if_pos hcached, if_pos (show env.txId ∈ b.untimed.txCache from hcached)]
    rfl
  rw [if_neg hcached, if_neg (show env.txId ∉ b.untimed.txCache from hcached)]
  by_cases hlength : env.payload.length < 8
  · rw [if_pos hlength, if_pos hlength]
    rfl
  rw [if_neg hlength, if_neg hlength]
  by_cases hfunds : b.balance + decodeAmount env.payload < 0
  · rw [if_pos hfunds, if_pos (show b.untimed.balance + _ < 0 from hfunds)]
    rfl
  rw [if_neg hfunds, if_neg (show ¬ b.untimed.balance + _ < 0 from hfunds)]
  have hwritten : store.undated.upsertEvent (b.untimed.eventRow env 0) =
      (store.upsertEvent (b.eventRow env now)).undated :=
    (store.undated_upsertEvent (b.eventRow env now)).symm
  cases outcome with
  | failed msg => rfl
  | failedApplied msg => exact congrArg (Handled.mk _ · _ none) hwritten
  | applied =>
      have hcommit (b : BusinessActor) : (b.commit env).eventCount = b.eventCount + 1 := rfl
      simp only [WalletStore.executeBatch, WriteOutcome.takesEffect, WriteOutcome.err,
        Option.map_none, if_true, hcommit]
      by_cases hcount : snapshotThreshold ≤ b.eventCount + 1
      · rw [if_pos hcount, if_pos (show snapshotThreshold ≤ b.untimed.eventCount + 1 from hcount)]
        exact congrArg (Handled.mk _ · _ _) hwritten
      · rw [if_neg hcount, if_neg (show ¬ snapshotThreshold ≤ b.untimed.eventCount + 1 from hcount)]
        exact congrArg (Handled.mk _ · _ none) hwritten

end BusinessActor

end ActorCluster.Wallet
