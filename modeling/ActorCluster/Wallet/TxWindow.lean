import ActorCluster.Wallet.ReplayWindow
import Mathlib.Data.Finset.Card

/-! # The ids an actor remembers

A rehydrated actor answers the ids of its last thousand events as duplicates,
whatever it is sent. The cache and the ring agree as long as no more than a
thousand different ids were replayed: seeding evicts nothing, so any further id
stays in the cache for the rest of the actor's life.
-/

namespace ActorCluster.Wallet

open Remote Transition RingBuffer

/-- One call of `handle`, with the clock and the outcome of its write. -/
structure HandleCall where
  env : RemoteEnvelope
  now : Int
  outcome : WriteOutcome

/-- The ids of the events that a rehydration replays. -/
def WalletStore.replayedIDs (store : WalletStore) : List String :=
  store.afterSnapshot.map EventRow.txID

namespace BusinessActor

/-- The actor and its store after a sequence of calls. -/
def handleAll (b : BusinessActor) (store : WalletStore) :
    List HandleCall → BusinessActor × WalletStore
  | [] => (b, store)
  | call :: rest =>
      let h := b.handle store call.env call.now call.outcome
      handleAll h.actor h.store rest

/-- The ids of the calls that were acknowledged with a new balance. -/
def committedIDs (b : BusinessActor) (store : WalletStore) : List HandleCall → List String
  | [] => []
  | call :: rest =>
      let h := b.handle store call.env call.now call.outcome
      (if h.result.success = true ∧ h.result.payload ≠ [] then [call.env.txId] else []) ++
        committedIDs h.actor h.store rest

/-- The cache holds the newest ids and nothing else. -/
structure Mirrors (b : BusinessActor) (pushed : List String) : Prop where
  recalls : b.Recalls pushed
  exact : b.txCache ⊆ (newest txCacheSize pushed).toFinset
  nonempty : "" ∉ pushed

variable {b : BusinessActor} {pushed : List String}

theorem Mirrors.handle (h : b.Mirrors pushed) (store : WalletStore) {env : RemoteEnvelope}
    (henv : env.txId ≠ "") (now : Int) (outcome : WriteOutcome) :
    (b.handle store env now outcome).actor.Mirrors
      (pushed ++ if b.Admits env ∧ outcome = .applied then [env.txId] else []) := by
  refine ⟨h.recalls.handle store env now outcome, ?_, ?_⟩
  · split
    next hacknowledged =>
      obtain ⟨hadmits, rfl⟩ := hacknowledged
      rw [(handle_of_applied store now hadmits).2.txCache]
      exact h.recalls.replace_exact h.exact h.nonempty env.txId
    next hnot =>
      rw [handle_actor_of_unacknowledged store now outcome hnot, List.append_nil]
      exact h.exact
  · rw [List.mem_append, not_or]
    refine ⟨h.nonempty, ?_⟩
    split <;> simp [henv.symm]

/-- What every call keeps as the committed ids grow holds after all calls. -/
theorem handleAll_induction {P : BusinessActor → List String → Prop} {calls : List HandleCall}
    (hstep : ∀ b store pushed, ∀ call ∈ calls, P b pushed →
      P (b.handle store call.env call.now call.outcome).actor
        (pushed ++ if b.Admits call.env ∧ call.outcome = .applied then [call.env.txId] else []))
    (h : P b pushed) (store : WalletStore) :
    P (b.handleAll store calls).1 (pushed ++ b.committedIDs store calls) := by
  induction calls generalizing b pushed store with
  | nil => simpa [handleAll, committedIDs] using h
  | cons call rest ih =>
      have hcall := hstep b store pushed call List.mem_cons_self h
      simp only [handleAll, committedIDs, handle_acknowledges_iff, ← List.append_assoc]
      exact ih (fun b store pushed call hmem => hstep b store pushed call
        (List.mem_cons_of_mem _ hmem)) hcall _

theorem Recalls.handleAll (h : b.Recalls pushed) (store : WalletStore) (calls : List HandleCall) :
    (b.handleAll store calls).1.Recalls (pushed ++ b.committedIDs store calls) :=
  handleAll_induction (P := Recalls) (fun _ store _ call _ hb =>
    Recalls.handle hb store call.env call.now call.outcome) h store

theorem Mirrors.handleAll (h : b.Mirrors pushed) (store : WalletStore) {calls : List HandleCall}
    (hcalls : ∀ call ∈ calls, call.env.txId ≠ "") :
    (b.handleAll store calls).1.Mirrors (pushed ++ b.committedIDs store calls) :=
  handleAll_induction (P := Mirrors) (fun _ store _ call hmem hb =>
    Mirrors.handle hb store (hcalls call hmem) call.now call.outcome) h store

end BusinessActor

section Rehydrated

variable {tenantID : Int32} {uid : Int64} {start : Int} {store : WalletStore} {b : BusinessActor}

/-- The ring and the cache of a rehydrated actor. -/
theorem holds_of_rehydrate
    (hload : (newBusinessActor tenantID uid start).rehydrate store = (b, none)) :
    Holds "" b.txRing b.txCursor (pushNew [] store.replayedIDs) ∧
      b.txCache = (pushNew [] store.replayedIDs).toFinset := by
  rw [rehydrate_seeded hload]
  exact holds_newBusinessActor tenantID uid start store.afterSnapshot

/-- A rehydration that replays distinct ids begins with a window over them. -/
theorem recalls_of_rehydrate
    (hload : (newBusinessActor tenantID uid start).rehydrate store = (b, none))
    (hdistinct : store.replayedIDs.Nodup) : b.Recalls store.replayedIDs := by
  have hnew : pushNew [] store.replayedIDs = store.replayedIDs := pushNew_of_nodup hdistinct
  rw [rehydrate_seeded hload, ← hnew]
  exact recalls_seedAll tenantID uid start store.afterSnapshot

/-- If few enough different ids are replayed, the cache mirrors the ring. -/
theorem mirrors_of_rehydrate
    (hload : (newBusinessActor tenantID uid start).rehydrate store = (b, none))
    (hfew : store.replayedIDs.toFinset.card ≤ txCacheSize) (hnonempty : "" ∉ store.replayedIDs) :
    b.Mirrors (pushNew [] store.replayedIDs) := by
  obtain ⟨hring, hcache⟩ := holds_of_rehydrate hload
  have hnodup : (pushNew [] store.replayedIDs).Nodup := nodup_pushNew List.nodup_nil
  have hlength : (pushNew [] store.replayedIDs).length ≤ txCacheSize := by
    refine Nat.le_trans (Nat.le_of_eq ?_) hfew
    rw [← List.toFinset_card_of_nodup hnodup]
    congr 1
    ext txID
    simp [mem_pushNew]
  have hall := newest_eq_self hlength
  refine ⟨⟨hring, ?_, ?_⟩, ?_, ?_⟩
  · rw [hall, hcache]
    exact fun _ => List.mem_toFinset.mpr
  · rwa [hall]
  · rw [hall, hcache]
  · simpa [mem_pushNew] using hnonempty

/-- An actor that was rehydrated from events with different ids answers the ids
of its last thousand events, replayed or committed, as duplicates: without a
write and without a change of its own state. If no more than a thousand events
were replayed, it answers no other id so. -/
theorem replay_window
    (hload : (newBusinessActor tenantID uid start).rehydrate store = (b, none))
    (hdistinct : store.replayedIDs.Nodup) (hnonempty : "" ∉ store.replayedIDs)
    {calls : List HandleCall} (hcalls : ∀ call ∈ calls, call.env.txId ≠ "")
    {b' : BusinessActor} {store' : WalletStore} (hrun : b.handleAll store calls = (b', store'))
    (env : RemoteEnvelope) (now : Int) (outcome : WriteOutcome) :
    (env.txId ∈ newest txCacheSize (store.replayedIDs ++ b.committedIDs store calls) →
      b'.handle store' env now outcome = ⟨{ b' with lastActive := now }, store',
        { b'.baseResult env with success := true }, none⟩) ∧
    (store.replayedIDs.length ≤ txCacheSize →
      (b'.handle store' env now outcome).result.success = true →
      (b'.handle store' env now outcome).result.payload = [] →
      env.txId ∈ newest txCacheSize (store.replayedIDs ++ b.committedIDs store calls)) := by
  have hrecalls := (recalls_of_rehydrate hload hdistinct).handleAll store calls
  rw [hrun] at hrecalls
  refine ⟨fun hrecent => ?_, fun hshort hsuccess hpayload => ?_⟩
  · exact BusinessActor.handle_of_cached store' now outcome (hrecalls.cached _ hrecent)
  · have hmirrors := (mirrors_of_rehydrate hload
      ((List.toFinset_card_le _).trans hshort) hnonempty).handleAll store hcalls
    rw [hrun, pushNew_of_nodup hdistinct, List.nil_append] at hmirrors
    have hcached := (BusinessActor.handle_answers_duplicate_iff store' now outcome).mp
      ⟨hsuccess, hpayload⟩
    exact List.mem_toFinset.mp (hmirrors.exact hcached)

/-- If no more than a thousand different ids are replayed and no id is empty,
the cache holds exactly the ids in the ring, which are pairwise different. -/
theorem cache_mirrors_ring
    (hload : (newBusinessActor tenantID uid start).rehydrate store = (b, none))
    (hfew : store.replayedIDs.toFinset.card ≤ txCacheSize) (hnonempty : "" ∉ store.replayedIDs)
    {calls : List HandleCall} (hcalls : ∀ call ∈ calls, call.env.txId ≠ "")
    {b' : BusinessActor} {store' : WalletStore} (hrun : b.handleAll store calls = (b', store')) :
    (∀ txID, txID ∈ b'.txCache ↔ txID ≠ "" ∧ ∃ i : Fin txCacheSize, b'.txRing[i] = txID) ∧
    (∀ i j : Fin txCacheSize, b'.txRing[i] ≠ "" → b'.txRing[i] = b'.txRing[j] → i = j) ∧
    b'.txCache.card ≤ txCacheSize := by
  have h := (mirrors_of_rehydrate hload hfew hnonempty).handleAll store hcalls
  rw [hrun] at h
  refine ⟨fun txID => h.recalls.mem_cache_iff h.exact h.nonempty, fun i j => ?_, ?_⟩
  · exact h.recalls.ring.slot_injective h.recalls.nodup
  · calc b'.txCache.card ≤ (newest txCacheSize _).toFinset.card := Finset.card_le_card h.exact
      _ ≤ (newest txCacheSize _).length := List.toFinset_card_le _
      _ ≤ txCacheSize := length_newest_le _ _

end Rehydrated

/-- An actor rehydrated from one event. -/
def revived : BusinessActor := ((newBusinessActor 1 42 9).rehydrate firstDeposit.store).1

/-- The actor and the store after one more deposit. -/
def served : BusinessActor × WalletStore :=
  revived.handleAll firstDeposit.store [⟨depositOne "8", 10, .applied⟩]

theorem rehydrate_revived :
    (newBusinessActor 1 42 9).rehydrate firstDeposit.store = (revived, none) :=
  Prod.ext rfl (by decide +kernel)

theorem replay_window_served :
    served.1.handle served.2 depositTen 11 .applied =
      ⟨{ served.1 with lastActive := 11 }, served.2,
        { served.1.baseResult depositTen with success := true }, none⟩ :=
  (replay_window rehydrate_revived (by decide +kernel) (by decide +kernel) (by decide +kernel)
    rfl depositTen 11 .applied).1 (by decide +kernel)

theorem cache_mirrors_ring_served :
    "7" ∈ served.1.txCache ∧ ∃ i : Fin txCacheSize, served.1.txRing[i] = "7" := by
  have hcached : "7" ∈ served.1.txCache := by decide +kernel
  have hrun : revived.handleAll firstDeposit.store [⟨depositOne "8", 10, .applied⟩] =
      (served.1, served.2) := rfl
  have hmirrors := (cache_mirrors_ring rehydrate_revived (by decide +kernel) (by decide +kernel)
    (by decide +kernel) hrun).1 "7"
  exact ⟨hcached, (hmirrors.mp hcached).2⟩

/-- Without a snapshot every stored event is replayed. -/
theorem afterSnapshot_of_none {tenantID : Int32} {uid : Int64} {s : WalletRun}
    (hs : (wallet tenantID uid).ReachableIf (Fits (2 ^ 31)) s) (hnone : s.store.snapshot = none) :
    s.store.afterSnapshot = s.store.events := by
  obtain ⟨ledger, htracks⟩ := tracks_of_reachable (by decide) hs
  rw [WalletStore.afterSnapshot, hnone, htracks.backs.events]
  exact htracks.backs.eventsAfter_eq (k := 0) rfl

/-- A wallet whose snapshot write did not land is rehydrated from one event too
many: the first id stays in the cache, but is nowhere in the ring. -/
theorem cache_outgrows_ring :
    ∃ s b, (wallet 1 42).ReachableIf (Fits (2 ^ 31)) s ∧
      (newBusinessActor 1 42 0).rehydrate s.store = (b, none) ∧
      b.txCache.card = 1001 ∧ depositId 1 ∈ b.txCache ∧
      ∀ i : Fin txCacheSize, b.txRing[i] ≠ depositId 1 := by
  obtain ⟨s, _, h⟩ := deposited_range 1001 (by decide)
  have hids : s.store.replayedIDs = firstIds := by
    rw [WalletStore.replayedIDs, afterSnapshot_of_none h.counts.reachable h.landed, h.events]
    rfl
  obtain ⟨ledger, htracks⟩ := tracks_of_reachable (by decide) h.counts.reachable
  have hload : (newBusinessActor 1 42 0).rehydrate s.store =
      (((newBusinessActor 1 42 0).rehydrate s.store).1, none) :=
    Prod.ext rfl (htracks.backs.rehydrate 0).1
  obtain ⟨hring, hcache⟩ := holds_of_rehydrate hload
  have hnew : pushNew [] firstIds = firstIds := pushNew_of_nodup firstIds_nodup
  rw [hids, hnew] at hring hcache
  refine ⟨s, _, h.counts.reachable, hload, ?_, ?_, fun i hi => ?_⟩
  · rw [hcache, List.toFinset_card_of_nodup firstIds_nodup]
    simp [firstIds]
  · rw [hcache, List.mem_toFinset]
    exact List.mem_map_of_mem (by simp)
  · have hnodup := firstIds_nodup
    obtain ⟨rest, hsplit, hlen⟩ := firstIds_split
    have hrecent := (hring.mem_newest_iff_slot ?_).mpr ⟨by decide, i, hi⟩
    · rw [hsplit] at hrecent hnodup
      rw [← List.singleton_append] at hrecent
      refine notMem_newest_append (List.nodup_cons.mp hnodup).1 ?_ hrecent
      rw [List.length_cons, hlen, txCacheSize]
    · intro hempty
      obtain ⟨j, hj, heq⟩ := List.mem_map.mp hempty
      have hzero := depositId_injective (heq.trans (show "" = depositId 0 from rfl))
      have := List.mem_range'_1.mp hj
      omega

end ActorCluster.Wallet
