import ActorCluster.Wallet.TxWindow
import Mathlib.Data.Fintype.EquivFin

/-! # How much a rehydration replays

An actor counts the events it has committed itself and writes a snapshot at the
thousandth. A rehydration starts the count at zero, also when it replays events,
so the log after the snapshot stays short only if the thousand events up to the
next snapshot are committed in one life.
-/

namespace ActorCluster.Wallet

open Remote Transition

/-- The last snapshot write that was launched has landed. -/
def Landed (s : WalletRun) : Prop := s.store.snapshot = s.inFlight.head?

/-- Every event write succeeds, and every snapshot write lands before the next
call or restart. -/
def Prompt (maxRows : Nat) (s : WalletRun) : WalletAction → Prop
  | .handle env now outcome =>
      Fits maxRows s (.handle env now outcome) ∧ outcome = .applied ∧ Landed s
  | .land _ => True
  | .stop | .loadSnapshot _ | .loadEvents _ _ => Landed s

/-- The thousandth event after the stored snapshot is committed by an actor that
has committed all the others as well. -/
def CommitsAlone (s : WalletRun) : WalletAction → Prop
  | .handle env _ _ => ∀ b, s.phase = .live b → b.Admits env →
      s.store.afterSnapshot.length + 1 = snapshotThreshold →
      b.eventCount + 1 = snapshotThreshold
  | _ => True

/-- The steps that keep the log after the snapshot short. -/
def InTime (maxRows : Nat) (s : WalletRun) (action : WalletAction) : Prop :=
  Prompt maxRows s action ∧ CommitsAlone s action

/-- The log beyond the last snapshot that was launched, and the events of the
live actor in it. -/
structure Short (maxRows : Nat) (s : WalletRun) (ledger : Ledger EventRow) (k : Nat) : Prop where
  tracks : Tracks maxRows s ledger
  settled : ledger.tentative = none
  launched : (s.inFlight.head?.getD ⟨0, 0⟩).lastVersion.toInt = k
  le : k ≤ ledger.settled.length
  bounded : ledger.settled.length < k + snapshotThreshold
  counted : ∀ b, s.phase = .live b → k + b.eventCount ≤ ledger.settled.length

section

variable {tenantID : Int32} {uid : Int64} {maxRows k : Nat} {s t : WalletRun}
variable {ledger : Ledger EventRow}

/-- What a rehydration would replay, once the last snapshot has landed. -/
theorem Short.length_afterSnapshot (h : Short maxRows s ledger k) (hlanded : Landed s) :
    s.store.afterSnapshot.length = ledger.settled.length - k := by
  have hk : (s.store.snapshot.getD ⟨0, 0⟩).lastVersion.toInt = k := by
    rw [hlanded]
    exact h.launched
  rw [WalletStore.afterSnapshot, h.tracks.backs.eventsAfter_eq hk, List.length_drop, Ledger.rows,
    h.settled, Option.toList_none, List.append_nil]

/-- A call by the live actor: nothing, one more event, or a snapshot of it all. -/
theorem Short.handle (hmax : maxRows < 2 ^ 63) (h : Short maxRows s ledger k)
    {env : RemoteEnvelope} {now : Int}
    (hprompt : Prompt maxRows s (.handle env now .applied))
    (halone : CommitsAlone s (.handle env now .applied))
    (hstep : (wallet tenantID uid).step s (.handle env now .applied) = some t) :
    ∃ next k', Short maxRows t next k' := by
  obtain ⟨hfits, _, hlanded⟩ := hprompt
  obtain ⟨next, hmove, htracks⟩ := h.tracks.step hmax hfits hstep
  obtain ⟨b, hphase, rfl⟩ := step_handle hstep
  cases hmove with
  | handle b' hphase' hhandle =>
    cases hphase.symm.trans hphase'
    cases hhandle with
    | unwritten hskip =>
        have hnot : ¬ b.Admits env := hskip.resolve_right Bool.noConfusion
        obtain ⟨_, _, _, heq⟩ := BusinessActor.handle_of_not_admits s.store now .applied hnot
        refine ⟨ledger, k, htracks, h.settled, ?_, h.le, h.bounded, fun b' hb' => ?_⟩
        · rw [heq]
          exact h.launched
        · rw [heq] at hb'
          cases hb'
          exact h.counted b hphase
    | tentative _ hne => exact absurd rfl hne
    | settled hadmits =>
        have hcommitted := (BusinessActor.handle_of_applied s.store now hadmits).2
        have hlength : (ledger.settle (b.eventRow env now)).settled.length =
            ledger.settled.length + 1 := by simp [Ledger.settle]
        have hcounted := h.counted b hphase
        have halone := halone b hphase hadmits
        rw [h.length_afterSnapshot hlanded] at halone
        have hle := h.le
        have hbounded := h.bounded
        have hcount := hcommitted.eventCount
        have hlaunched := hcommitted.launched
        cases hsnap : (b.handle s.store env now .applied).snapshot with
        | some snap =>
            rw [hsnap] at hcount htracks
            have hholds : HoldsLedger (b.handle s.store env now .applied).actor
                (ledger.settle (b.eventRow env now)) := htracks.phase
            refine ⟨_, ledger.settled.length + 1, htracks, rfl, ?_, hlength.ge, ?_, ?_⟩
            · rw [hcommitted.snapshot snap hsnap, ← hlength]
              exact hholds.version
            · rw [hlength]
              exact Nat.lt_add_of_pos_right (by decide)
            · rintro b' hb'
              cases hb'
              rw [hcount, hlength]
              exact Nat.le_refl _
        | none =>
            rw [hsnap] at hcount hlaunched htracks
            have hfew : ¬ snapshotThreshold ≤ b.eventCount + 1 :=
              fun hfull => Bool.false_ne_true (hlaunched.mpr hfull)
            refine ⟨_, k, htracks, rfl, h.launched, ?_, ?_, ?_⟩
            · rw [hlength]
              omega
            · rw [hlength]
              by_contra hfull
              have := halone (by omega)
              omega
            · rintro b' hb'
              cases hb'
              rw [hcount, hlength]
              exact Nat.succ_le_succ hcounted

/-- Every step keeps the log short. -/
theorem Short.step (hmax : maxRows < 2 ^ 63) (h : Short maxRows s ledger k)
    {action : WalletAction} (hprompt : Prompt maxRows s action) (halone : CommitsAlone s action)
    (hstep : (wallet tenantID uid).step s action = some t) :
    ∃ next k', Short maxRows t next k' := by
  have htracks (hfits : Fits maxRows s action) :
      ∃ next, LedgerMove s action ledger next ∧ Tracks maxRows t next :=
    h.tracks.step hmax hfits hstep
  cases action with
  | handle env now outcome =>
      obtain rfl := hprompt.2.1
      exact h.handle hmax hprompt halone hstep
  | land index =>
      obtain ⟨next, hmove, hnext⟩ := htracks trivial
      obtain ⟨snap, _, rfl⟩ := step_land hstep
      cases hmove
      exact ⟨ledger, k, hnext, h.settled, h.launched, h.le, h.bounded, h.counted⟩
  | stop =>
      cases Option.some.inj hstep
      exact ⟨ledger, k, ⟨h.tracks.backs, trivial⟩, h.settled, h.launched, h.le, h.bounded, nofun⟩
  | loadSnapshot closeErr =>
      obtain ⟨next, hmove, hnext⟩ := htracks trivial
      cases hmove
      obtain ⟨_, rfl | ⟨snap, _, _, rfl⟩⟩ := step_loadSnapshot hstep
      · exact ⟨ledger, k, h⟩
      · exact ⟨ledger, k, hnext, h.settled, h.launched, h.le, h.bounded, nofun⟩
  | loadEvents now closeErr =>
      obtain ⟨snap, hphase, rfl | ⟨b, _, hload, rfl⟩⟩ := step_loadEvents hstep
      · exact ⟨ledger, k, ⟨h.tracks.backs, trivial⟩, h.settled, h.launched, h.le, h.bounded, nofun⟩
      · have hagrees : Agrees ledger.settled snap := by
          simpa [hphase, Phase.Tracks] using h.tracks.phase
        obtain ⟨j, recovered, _, _, heq, hseeded, hholds⟩ := h.tracks.backs.loadEvents
          hagrees (show (newBusinessActor tenantID uid now).txCache = ∅ from rfl)
        cases hload.symm.trans heq
        have hadopt : ledger.adopt.settled = ledger.settled := by
          simp [Ledger.adopt, Ledger.rows, h.settled]
        refine ⟨ledger.adopt, k, ⟨h.tracks.backs.adopt, hholds⟩, rfl, h.launched, ?_, ?_, ?_⟩
        · rw [hadopt]
          exact h.le
        · rw [hadopt]
          exact h.bounded
        · rintro b' hb'
          cases hb'
          have hzero : b.eventCount = 0 := by
            rw [hseeded]
            exact BusinessActor.seedAll_eventCount _ _
          rw [hzero, hadopt]
          exact h.le

end

/-! ## Runs of deposits -/

/-- A wallet with `n` events whose stored snapshot is at version `base`, and whose live
actor has counted `k` events. -/
structure Counting (guard : WalletRun → WalletAction → Prop) (s : WalletRun) (b : BusinessActor)
    (base n k : Nat) : Prop where
  counts : Counts s b n
  reachable : (wallet 1 42).ReachableIf guard s
  landed : Landed s
  stored : (s.store.snapshot.getD ⟨0, 0⟩).lastVersion.toInt = base
  count : b.eventCount = k

section

variable {guard : WalletRun → WalletAction → Prop} {s : WalletRun} {b : BusinessActor}
variable {base n k : Nat}

theorem Counting.length_afterSnapshot (h : Counting guard s b base n k) :
    s.store.afterSnapshot.length = n - base := by
  obtain ⟨ledger, hbacks, _, _⟩ := h.counts.tracks
  rw [WalletStore.afterSnapshot, hbacks.eventsAfter_eq h.stored, List.length_drop,
    ← hbacks.events, h.counts.length]

/-- A deposit under an id that is not cached. -/
theorem Counting.commit (h : Counting guard s b base n k) (hn : n + 1 < 2 ^ 31)
    (hguard : ∀ env now, Prompt (2 ^ 31) s (.handle env now .applied) →
      guard s (.handle env now .applied)) :
    ∃ txId, Counts (deposited s b txId)
        (b.handle s.store (depositOne txId) 9 .applied).actor (n + 1) ∧
      (wallet 1 42).ReachableIf guard (deposited s b txId) ∧
      (deposited s b txId).store.snapshot = s.store.snapshot ∧
      BusinessActor.Committed b (depositOne txId)
        (b.handle s.store (depositOne txId) 9 .applied) := by
  have : Infinite String := Infinite.of_injective depositId depositId_injective
  obtain ⟨txId, hfresh⟩ := Infinite.exists_notMem_finset b.txCache
  obtain ⟨hfits, hcounts, _, hsnapshot, hcommitted⟩ := h.counts.deposit hfresh hn
  refine ⟨txId, hcounts, h.reachable.tail ⟨.handle (depositOne txId) 9 .applied,
    hguard _ _ ⟨hfits, rfl, h.landed⟩, ?_⟩, hsnapshot, hcommitted⟩
  simp only [wallet, WalletRun.handleStep, h.counts.live]
  rfl

/-- One more event below the threshold of the actor. -/
theorem Counting.deposit (h : Counting guard s b base n k) (hk : k + 1 < snapshotThreshold)
    (hn : n + 1 < 2 ^ 31)
    (hguard : ∀ env now, Prompt (2 ^ 31) s (.handle env now .applied) →
      guard s (.handle env now .applied)) :
    ∃ t b', Counting guard t b' base (n + 1) (k + 1) := by
  obtain ⟨txId, hcounts, hreachable, hsnapshot, hcommitted⟩ := h.commit hn hguard
  have hnone : (b.handle s.store (depositOne txId) 9 .applied).snapshot = none := by
    rw [← Option.not_isSome_iff_eq_none, hcommitted.launched, h.count]
    omega
  refine ⟨_, _, hcounts, hreachable, ?_, hsnapshot ▸ h.stored, ?_⟩
  · rw [Landed, hsnapshot, h.landed]
    simp [deposited, hnone]
  · rw [hcommitted.eventCount, hnone, h.count]
    rfl

theorem Counting.deposits (h : Counting guard s b base n k) (m : Nat)
    (hk : k + m < snapshotThreshold) (hn : n + m < 2 ^ 31)
    (hguard : ∀ i t b', Counting guard t b' base (n + i) (k + i) → ∀ env now,
      Prompt (2 ^ 31) t (.handle env now .applied) → guard t (.handle env now .applied)) :
    ∃ t b', Counting guard t b' base (n + m) (k + m) := by
  induction m with
  | zero => exact ⟨s, b, h⟩
  | succ m ih =>
      obtain ⟨t, b', h'⟩ := ih (by omega) (by omega)
      exact h'.deposit hk hn (hguard m t b' h')

/-- The event at the threshold launches a snapshot of the whole log, which lands. -/
theorem Counting.snapshot (h : Counting guard s b base n k) (hk : k + 1 = snapshotThreshold)
    (hn : n + 1 < 2 ^ 31)
    (hguard : ∀ env now, Prompt (2 ^ 31) s (.handle env now .applied) →
      guard s (.handle env now .applied))
    (hland : ∀ t index, guard t (.land index)) :
    ∃ t b', Counting guard t b' (n + 1) (n + 1) 0 := by
  obtain ⟨txId, hcounts, hreachable, _, hcommitted⟩ := h.commit hn hguard
  have hsome := hcommitted.launched.mpr (by rw [h.count, hk])
  obtain ⟨snap, hsnap⟩ := Option.isSome_iff_exists.mp hsome
  have hstep : (wallet 1 42).step (deposited s b txId) (.land 0) =
      some { deposited s b txId with
        store := (deposited s b txId).store.upsertSnapshot snap } := by
    simp [wallet, deposited, hsnap]
  refine ⟨_, _, { hcounts with reachable := hcounts.reachable.tail ⟨.land 0, trivial, hstep⟩ },
    hreachable.tail ⟨.land 0, hland _ 0, hstep⟩, ?_, ?_, ?_⟩
  · simp [Landed, WalletStore.upsertSnapshot, deposited, hsnap]
  · rw [show snap = _ from hcommitted.snapshot snap hsnap]
    exact hcounts.version
  · rw [hcommitted.eventCount, if_pos hsome]

/-- A restart replays the events after the snapshot, and counts none of them. -/
theorem Counting.restart (h : Counting guard s b base n k)
    (hguard : ∀ phase action, action = .stop ∨ action = .loadSnapshot none ∨
      action = .loadEvents 0 none → guard { s with phase := phase } action) :
    ∃ t b', Counting guard t b' base n 0 := by
  obtain ⟨snap, hsnap⟩ : ∃ snap,
      BusinessActor.loadSnapshot ⟨s.store.snapshot.toList, none⟩ = .ok snap := ⟨_, rfl⟩
  obtain ⟨recovered, j, hstep, hcounts, _, hseeded⟩ := h.counts.restart hsnap
  have hdown : (wallet 1 42).ReachableIf guard { s with phase := .down } :=
    h.reachable.tail ⟨.stop, hguard s.phase .stop (.inl rfl), rfl⟩
  have hloading : (wallet 1 42).ReachableIf guard { s with phase := .loading snap } := by
    refine hdown.tail ⟨.loadSnapshot none, hguard .down _ (.inr (.inl rfl)), ?_⟩
    simp only [wallet, WalletRun.loadSnapshotStep, hsnap]
  refine ⟨_, recovered, hcounts,
    hloading.tail ⟨.loadEvents 0 none, hguard _ _ (.inr (.inr rfl)), hstep⟩, h.landed, h.stored, ?_⟩
  rw [hseeded]
  exact BusinessActor.seedAll_eventCount _ _

theorem counting_first (hguard : ∀ phase action, action = .loadSnapshot none ∨
      action = .loadEvents 0 none → guard ⟨WalletStore.empty, [], phase⟩ action) :
    Counting guard ⟨WalletStore.empty, [], .live (newBusinessActor 1 42 0)⟩
      (newBusinessActor 1 42 0) 0 0 0 where
  counts := ⟨reachable_first_live 1 42 (2 ^ 31) 0, rfl, rfl, rfl, rfl⟩
  reachable := .tail (.tail .refl ⟨.loadSnapshot none, hguard _ _ (.inl rfl), rfl⟩)
    ⟨.loadEvents 0 none, hguard _ _ (.inr rfl), rfl⟩
  landed := rfl
  stored := rfl
  count := rfl

end

/-! ## Snapshots in time -/

section

variable {tenantID : Int32} {uid : Int64} {maxRows : Nat} {s : WalletRun}

/-- If the thousandth event after a snapshot is always committed by an actor that
has committed the others as well, then fewer than a thousand events are stored
after the snapshot whenever a call or a rehydration begins. -/
theorem replay_short (hmax : maxRows < 2 ^ 63)
    (hs : (wallet tenantID uid).ReachableIf (InTime maxRows) s)
    (hlanded : Landed s) : s.store.afterSnapshot.length < snapshotThreshold := by
  have hshort : ∃ ledger k, Short maxRows s ledger k := by
    refine System.ReachableIf.invariant (P := fun s => ∃ ledger k, Short maxRows s ledger k)
      ⟨Ledger.empty, 0, tracks_init maxRows, rfl, rfl, Nat.le_refl _, by decide, nofun⟩ ?_ hs
    rintro s action t ⟨ledger, k, h⟩ ⟨hprompt, halone⟩ hstep
    exact h.step hmax hprompt halone hstep
  obtain ⟨ledger, k, h⟩ := hshort
  rw [h.length_afterSnapshot hlanded]
  have hle := h.le
  have hbounded := h.bounded
  omega

/-- An actor that has counted every event after the snapshot commits the next one in time. -/
theorem Counting.inTime {b : BusinessActor} {base n k : Nat}
    (h : Counting (InTime (2 ^ 31)) s b base n k) (hall : n = base + k) (env : RemoteEnvelope)
    (now : Int) (hprompt : Prompt (2 ^ 31) s (.handle env now .applied)) :
    InTime (2 ^ 31) s (.handle env now .applied) := by
  refine ⟨hprompt, fun b' hlive _ hfull => ?_⟩
  cases h.counts.live.symm.trans hlive
  rw [h.length_afterSnapshot] at hfull
  rw [h.count]
  omega

/-- A thousand events in one life, a snapshot of them all, a restart, and one more event. -/
theorem replay_short_restarted :
    ∃ s b, (wallet 1 42).ReachableIf (InTime (2 ^ 31)) s ∧ s.phase = .live b ∧
      s.store.events.length = 1001 ∧ s.store.afterSnapshot.length = 1 ∧
      s.store.afterSnapshot.length < snapshotThreshold := by
  have hinit : Counting (InTime (2 ^ 31)) _ _ 0 0 0 :=
    counting_first (by rintro _ _ (rfl | rfl) <;> exact ⟨rfl, trivial⟩)
  obtain ⟨_, _, hfirst⟩ := hinit.deposits 999 (by decide) (by decide)
    fun i _ _ h => h.inTime (by omega)
  obtain ⟨_, _, hsnapshot⟩ := hfirst.snapshot (by decide) (by decide) (hfirst.inTime (by omega))
    fun _ _ => ⟨trivial, trivial⟩
  obtain ⟨_, _, hrestarted⟩ := hsnapshot.restart
    (by rintro _ _ (rfl | rfl | rfl) <;> exact ⟨hsnapshot.landed, trivial⟩)
  obtain ⟨s, b, h⟩ := hrestarted.deposit (by decide) (by decide) (hrestarted.inTime (by omega))
  exact ⟨s, b, h.reachable, h.counts.live, h.counts.length, h.length_afterSnapshot,
    replay_short (by decide) h.reachable h.landed⟩

/-- Two lives of five hundred events each leave a thousand events to replay, and
no snapshot was ever launched. -/
theorem replay_grows :
    ∃ s b, (wallet 1 42).ReachableIf (Prompt (2 ^ 31)) s ∧ Landed s ∧ s.phase = .live b ∧
      s.store.afterSnapshot.length = snapshotThreshold := by
  obtain ⟨_, _, hfirst⟩ := (counting_first (by rintro _ _ (rfl | rfl) <;> rfl)).deposits 500
    (by decide) (by decide) fun _ _ _ _ _ _ => id
  obtain ⟨_, _, hrestarted⟩ := hfirst.restart
    (by rintro _ _ (rfl | rfl | rfl) <;> exact hfirst.landed)
  obtain ⟨s, b, h⟩ := hrestarted.deposits 500 (by decide) (by decide) fun _ _ _ _ _ _ => id
  exact ⟨s, b, h.reachable, h.landed, h.counts.live, h.length_afterSnapshot⟩

end

end ActorCluster.Wallet
