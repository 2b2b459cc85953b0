import ActorCluster.Foundation.Transition
import ActorCluster.Wallet.Recovery

/-! # One wallet across restarts

A wallet is served by at most one live actor. The actor handles envelopes, its
event writes may fail or be applied in spite of an error, its snapshot writes
land in any order or never, and it may be dropped and rehydrated at any time.
The two queries of a rehydration are separate steps, so a snapshot write may
land between them.
-/

namespace ActorCluster.Wallet

open Remote Transition

/-- Where the wallet's actor is in its life. -/
inductive Phase where
  | down
  | loading (snapshot : Snapshot)
  | live (actor : BusinessActor)

/-- The stored wallet, the snapshot writes launched so far, and the actor. -/
structure WalletRun where
  store : WalletStore
  inFlight : List Snapshot
  phase : Phase

/-- The steps of a wallet. Snapshot statements are marked idempotent, so the
driver may apply a launched one more than once. -/
inductive WalletAction where
  | handle (env : RemoteEnvelope) (now : Int) (outcome : WriteOutcome)
  | land (index : Nat)
  | stop
  | loadSnapshot (closeErr : Option String)
  | loadEvents (now : Int) (closeErr : Option String)

namespace WalletRun

def handleStep (s : WalletRun) (env : RemoteEnvelope) (now : Int) (outcome : WriteOutcome) :
    Option WalletRun :=
  match s.phase with
  | .live b =>
      let h := b.handle s.store env now outcome
      some ⟨h.store, h.snapshot.toList ++ s.inFlight, .live h.actor⟩
  | _ => none

def loadSnapshotStep (s : WalletRun) (closeErr : Option String) : Option WalletRun :=
  match s.phase with
  | .down =>
      match BusinessActor.loadSnapshot ⟨s.store.snapshot.toList, closeErr⟩ with
      | .error _ => some s
      | .ok snapshot => some { s with phase := .loading snapshot }
  | _ => none

def loadEventsStep (tenantID : Int32) (uid : Int64) (s : WalletRun) (now : Int)
    (closeErr : Option String) : Option WalletRun :=
  match s.phase with
  | .loading snapshot =>
      match (newBusinessActor tenantID uid now).loadEvents snapshot
          ⟨s.store.eventsAfter snapshot.lastVersion, closeErr⟩ with
      | (_, some _) => some { s with phase := .down }
      | (b, none) => some { s with phase := .live b }
  | _ => none

end WalletRun

/-- The wallet `(tenantID, uid)`, starting from an empty store. -/
def wallet (tenantID : Int32) (uid : Int64) : System WalletRun WalletAction where
  init := ⟨WalletStore.empty, [], .down⟩
  step s
    | .handle env now outcome => s.handleStep env now outcome
    | .land index => s.inFlight[index]?.map fun snap =>
        { s with store := s.store.upsertSnapshot snap }
    | .stop => some { s with phase := .down }
    | .loadSnapshot closeErr => s.loadSnapshotStep closeErr
    | .loadEvents now closeErr => s.loadEventsStep tenantID uid now closeErr

/-- The store's partition limit: a write takes effect only where the partition
can hold its row. -/
def Fits (maxRows : Nat) (s : WalletRun) : WalletAction → Prop
  | .handle _ _ outcome => ∀ b, s.phase = .live b → WriteFits maxRows s.store b outcome
  | _ => True

/-- What the phase knows of the ledger. -/
def Phase.Tracks (ledger : Ledger EventRow) : Phase → Prop
  | .down => True
  | .loading snapshot => Agrees ledger.settled snapshot
  | .live b => HoldsLedger b ledger

/-- The run presents a ledger. -/
structure Tracks (maxRows : Nat) (s : WalletRun) (ledger : Ledger EventRow) : Prop where
  backs : Backs maxRows s.store s.inFlight ledger
  phase : s.phase.Tracks ledger

/-- The ledger step behind one action of the wallet. -/
inductive LedgerMove (s : WalletRun) :
    WalletAction → Ledger EventRow → Ledger EventRow → Prop
  | handle {env now outcome ledger next} (b : BusinessActor) (hphase : s.phase = .live b)
      (hhandle : HandleStep b env now outcome ledger next) :
      LedgerMove s (.handle env now outcome) ledger next
  | land (index ledger) : LedgerMove s (.land index) ledger ledger
  | stop (ledger) : LedgerMove s .stop ledger ledger
  | loadSnapshot (closeErr ledger) : LedgerMove s (.loadSnapshot closeErr) ledger ledger
  | giveUp (now closeErr ledger) : LedgerMove s (.loadEvents now closeErr) ledger ledger
  | adopt (now closeErr ledger) : LedgerMove s (.loadEvents now closeErr) ledger ledger.adopt

theorem LedgerMove.ledger_step {s : WalletRun} {action : WalletAction}
    {ledger next : Ledger EventRow} (h : LedgerMove s action ledger next) :
    Ledger.Step ledger next := by
  cases h with
  | handle b _ hhandle => exact hhandle.ledger_step
  | land | stop | loadSnapshot | giveUp => exact .stay _
  | adopt => exact .adopt _

section

variable {tenantID : Int32} {uid : Int64} {maxRows : Nat} {s t : WalletRun}
variable {ledger : Ledger EventRow}

theorem tracks_init (maxRows : Nat) : Tracks maxRows (wallet tenantID uid).init Ledger.empty :=
  ⟨Backs.empty maxRows, trivial⟩

theorem step_handle {env : RemoteEnvelope} {now : Int} {outcome : WriteOutcome}
    (hstep : (wallet tenantID uid).step s (.handle env now outcome) = some t) :
    ∃ b, s.phase = .live b ∧
      t = ⟨(b.handle s.store env now outcome).store,
        (b.handle s.store env now outcome).snapshot.toList ++ s.inFlight,
        .live (b.handle s.store env now outcome).actor⟩ := by
  simp only [wallet, WalletRun.handleStep] at hstep
  split at hstep
  next b hphase => exact ⟨b, hphase, (Option.some.inj hstep).symm⟩
  next => cases hstep

theorem step_land {index : Nat}
    (hstep : (wallet tenantID uid).step s (.land index) = some t) :
    ∃ snap ∈ s.inFlight, t = { s with store := s.store.upsertSnapshot snap } := by
  simp only [wallet, Option.map_eq_some_iff] at hstep
  obtain ⟨snap, hsnap, rfl⟩ := hstep
  exact ⟨snap, List.mem_of_getElem? hsnap, rfl⟩

theorem step_loadSnapshot {closeErr : Option String}
    (hstep : (wallet tenantID uid).step s (.loadSnapshot closeErr) = some t) :
    s.phase = .down ∧ (t = s ∨ ∃ snap, closeErr = none ∧
      BusinessActor.loadSnapshot ⟨s.store.snapshot.toList, none⟩ = .ok snap ∧
      t = { s with phase := .loading snap }) := by
  simp only [wallet, WalletRun.loadSnapshotStep] at hstep
  split at hstep
  next hphase =>
    refine ⟨hphase, ?_⟩
    split at hstep
    next => exact Or.inl (Option.some.inj hstep).symm
    next snap hsnap =>
      obtain rfl := BusinessActor.loadSnapshot_eq_ok hsnap
      exact Or.inr ⟨snap, rfl, hsnap, (Option.some.inj hstep).symm⟩
  next => cases hstep

theorem step_loadEvents {now : Int} {closeErr : Option String}
    (hstep : (wallet tenantID uid).step s (.loadEvents now closeErr) = some t) :
    ∃ snap, s.phase = .loading snap ∧ (t = { s with phase := .down } ∨
      ∃ b, closeErr = none ∧ (newBusinessActor tenantID uid now).loadEvents snap
          ⟨s.store.eventsAfter snap.lastVersion, none⟩ = (b, none) ∧
        t = { s with phase := .live b }) := by
  simp only [wallet, WalletRun.loadEventsStep] at hstep
  split at hstep
  next snap hphase =>
    refine ⟨snap, hphase, ?_⟩
    split at hstep
    next => exact Or.inl (Option.some.inj hstep).symm
    next b hload =>
      obtain rfl := BusinessActor.loadEvents_eq_none hload
      exact Or.inr ⟨b, rfl, hload, (Option.some.inj hstep).symm⟩
  next => cases hstep

/-- Every step of a wallet is a step of its ledger. -/
theorem Tracks.step (hmax : maxRows < 2 ^ 63) (h : Tracks maxRows s ledger)
    {action : WalletAction} (hfits : Fits maxRows s action)
    (hstep : (wallet tenantID uid).step s action = some t) :
    ∃ next, LedgerMove s action ledger next ∧ Tracks maxRows t next := by
  cases action with
  | handle env now outcome =>
      obtain ⟨b, hphase, rfl⟩ := step_handle hstep
      have hb : HoldsLedger b ledger := by simpa [hphase, Phase.Tracks] using h.phase
      obtain ⟨next, hnext, hholds, hbacks⟩ :=
        hb.handle h.backs hmax env now outcome (hfits b hphase)
      exact ⟨next, .handle b hphase hnext, hbacks, hholds⟩
  | land index =>
      obtain ⟨snap, hsnap, rfl⟩ := step_land hstep
      exact ⟨ledger, .land _ _, h.backs.land hsnap, h.phase⟩
  | stop =>
      cases Option.some.inj hstep
      exact ⟨ledger, .stop _, h.backs, trivial⟩
  | loadSnapshot closeErr =>
      obtain ⟨_, rfl | ⟨snap, _, hsnap, rfl⟩⟩ := step_loadSnapshot hstep
      · exact ⟨ledger, .loadSnapshot _ _, h⟩
      · obtain ⟨snap', hsnap', hagrees⟩ := h.backs.loadSnapshot
        cases hsnap.symm.trans hsnap'
        exact ⟨ledger, .loadSnapshot _ _, h.backs, hagrees⟩
  | loadEvents now closeErr =>
      obtain ⟨snap, hphase, rfl | ⟨b, _, hload, rfl⟩⟩ := step_loadEvents hstep
      · exact ⟨ledger, .giveUp _ _ _, h.backs, trivial⟩
      · have hagrees : Agrees ledger.settled snap := by
          simpa [hphase, Phase.Tracks] using h.phase
        obtain ⟨k, recovered, _, _, heq, _, hholds⟩ := h.backs.loadEvents hagrees
          (show (newBusinessActor tenantID uid now).txCache = ∅ from rfl)
        cases hload.symm.trans heq
        exact ⟨_, .adopt _ _ _, h.backs.adopt, hholds⟩

/-- A run of the wallet is a run of its ledger. -/
theorem Tracks.run (hmax : maxRows < 2 ^ 63) (h : Tracks maxRows s ledger)
    (hrun : (wallet tenantID uid).RunIf (Fits maxRows) s t) :
    ∃ next, Relation.ReflTransGen Ledger.Step ledger next ∧ Tracks maxRows t next := by
  induction hrun with
  | refl => exact ⟨ledger, .refl, h⟩
  | tail _ hlast ih =>
      obtain ⟨middle, hsteps, hmiddle⟩ := ih
      obtain ⟨action, hfits, hstep⟩ := hlast
      obtain ⟨next, hnext, htracks⟩ := hmiddle.step hmax hfits hstep
      exact ⟨next, hsteps.tail hnext.ledger_step, htracks⟩

/-- A relation between a wallet and its ledger that every step preserves holds
of every reachable wallet. -/
theorem tracks_invariant (hmax : maxRows < 2 ^ 63) {P : WalletRun → Ledger EventRow → Prop}
    (hinit : P (wallet tenantID uid).init Ledger.empty)
    (hstep : ∀ s ledger action t next, Tracks maxRows s ledger → P s ledger →
      LedgerMove s action ledger next → (wallet tenantID uid).step s action = some t →
      Tracks maxRows t next → P t next)
    (hs : (wallet tenantID uid).ReachableIf (Fits maxRows) s) :
    ∃ ledger, Tracks maxRows s ledger ∧ P s ledger := by
  refine System.ReachableIf.invariant (P := fun s => ∃ ledger, Tracks maxRows s ledger ∧ P s ledger)
    ⟨Ledger.empty, tracks_init maxRows, hinit⟩ ?_ hs
  rintro s action t ⟨ledger, htracks, hP⟩ hfits h
  obtain ⟨next, hmove, hnext⟩ := htracks.step hmax hfits h
  exact ⟨next, hnext, hstep s ledger action t next htracks hP hmove h hnext⟩

/-- Every reachable wallet presents a ledger. -/
theorem tracks_of_reachable (hmax : maxRows < 2 ^ 63)
    (hs : (wallet tenantID uid).ReachableIf (Fits maxRows) s) :
    ∃ ledger, Tracks maxRows s ledger := by
  obtain ⟨ledger, _, h⟩ := (tracks_init maxRows).run hmax hs
  exact ⟨ledger, h⟩

/-- A rehydration of a store that presents a ledger succeeds and yields the
balance and version of the adopted ledger. -/
theorem Backs.rehydrate {store : WalletStore} {inFlight : List Snapshot}
    (h : Backs maxRows store inFlight ledger) (now : Int) :
    ((newBusinessActor tenantID uid now).rehydrate store).2 = none ∧
      HoldsLedger ((newBusinessActor tenantID uid now).rehydrate store).1 ledger.adopt := by
  obtain ⟨snap, hsnap, hagrees⟩ := h.loadSnapshot
  obtain ⟨k, recovered, _, _, heq, _, hholds⟩ := h.loadEvents hagrees
    (show (newBusinessActor tenantID uid now).txCache = ∅ from rfl)
  have hrehydrate : (newBusinessActor tenantID uid now).rehydrate store = (recovered, none) := by
    rw [BusinessActor.rehydrate, hsnap]
    exact heq
  rw [hrehydrate]
  exact ⟨rfl, hholds⟩

theorem HoldsLedger.version_eq {b other : BusinessActor} (hb : HoldsLedger b ledger)
    (hother : HoldsLedger other ledger) : other.version = b.version :=
  Int64.toInt.inj (hother.version.trans hb.version.symm)

/-- A settled row stays at its version for the rest of the run. -/
theorem Tracks.eventAt_of_settled (hmax : maxRows < 2 ^ 63) (h : Tracks maxRows s ledger)
    {row : EventRow} (hrow : row ∈ ledger.settled)
    (hrun : (wallet tenantID uid).RunIf (Fits maxRows) s t) :
    t.store.eventAt row.version = some row := by
  obtain ⟨later, hsteps, hlater⟩ := h.run hmax hrun
  refine WalletStore.eventAt_eq_some_iff.mpr ⟨?_, rfl⟩
  rw [hlater.backs.events]
  exact ((Ledger.settled_prefix_of_steps hsteps).trans later.settled_prefix_rows).subset hrow

/-- In every state a wallet can reach, a rehydration of its store succeeds. An
acknowledged new event leaves the store such that a rehydration yields the
balance and version in memory, and its row stays in place for the rest of the
run; so does the row a duplicate is acknowledged for. -/
theorem wallet_recovers (hmax : maxRows < 2 ^ 63)
    (hs : (wallet tenantID uid).ReachableIf (Fits maxRows) s) :
    (∀ now, ((newBusinessActor tenantID uid now).rehydrate s.store).2 = none) ∧
    ∀ b env now outcome, s.phase = .live b → Fits maxRows s (.handle env now outcome) →
      let h := b.handle s.store env now outcome
      ∃ t, (wallet tenantID uid).step s (.handle env now outcome) = some t ∧
        t.phase = .live h.actor ∧
        (h.result.success = true → h.result.payload ≠ [] →
          (∀ later, ((newBusinessActor tenantID uid later).rehydrate t.store).2 = none ∧
            ((newBusinessActor tenantID uid later).rehydrate t.store).1.balance = h.actor.balance ∧
            ((newBusinessActor tenantID uid later).rehydrate t.store).1.version =
              h.actor.version) ∧
          ∀ u, (wallet tenantID uid).RunIf (Fits maxRows) t u →
            u.store.eventAt h.actor.version = some (b.eventRow env now)) ∧
        (h.result.success = true → h.result.payload = [] →
          ∃ row : EventRow, row.txID = env.txId ∧
            ∀ u, (wallet tenantID uid).RunIf (Fits maxRows) t u →
              u.store.eventAt row.version = some row) := by
  obtain ⟨ledger, htracks⟩ := tracks_of_reachable hmax hs
  refine ⟨fun now => (htracks.backs.rehydrate now).1, ?_⟩
  intro b env now outcome hphase hfits h
  have hb : HoldsLedger b ledger := by simpa [hphase, Phase.Tracks] using htracks.phase
  obtain ⟨next, hnext, hholds, hbacks⟩ := hb.handle htracks.backs hmax env now outcome
    (hfits b hphase)
  have hafter : Tracks maxRows ⟨h.store, h.snapshot.toList ++ s.inFlight, .live h.actor⟩ next :=
    ⟨hbacks, hholds⟩
  refine ⟨⟨h.store, h.snapshot.toList ++ s.inFlight, .live h.actor⟩, ?_, rfl, ?_, ?_⟩
  · simp only [wallet, WalletRun.handleStep, hphase]
    rfl
  · intro hsuccess hpayload
    obtain ⟨hadmits, rfl⟩ :=
      (BusinessActor.handle_acknowledges_iff s.store now outcome).mp ⟨hsuccess, hpayload⟩
    have hcommitted := (BusinessActor.handle_of_applied s.store now hadmits).2
    cases hnext with
    | unwritten hskip => exact (hskip.elim (absurd hadmits) (fun h => by cases h))
    | tentative _ hne => exact absurd rfl hne
    | settled =>
        -- with no tentative row the adopted ledger is the settled one
        have hadopt : (ledger.settle (b.eventRow env now)).adopt =
            ledger.settle (b.eventRow env now) := by simp [Ledger.adopt, Ledger.settle, Ledger.rows]
        refine ⟨fun later => ?_, fun u hrun => ?_⟩
        · obtain ⟨hnone, hrehydrated⟩ := hbacks.rehydrate later
          rw [hadopt] at hrehydrated
          exact ⟨hnone, hrehydrated.balance.trans hholds.balance.symm,
            hholds.version_eq hrehydrated⟩
        · rw [hcommitted.version]
          exact hafter.eventAt_of_settled hmax
            (List.mem_append_right _ List.mem_cons_self) hrun
  · intro hsuccess hpayload
    have hcached := (BusinessActor.handle_answers_duplicate_iff s.store now outcome).mp
      ⟨hsuccess, hpayload⟩
    obtain ⟨row, hrow, htx⟩ := List.mem_map.mp (hb.cached env.txId hcached)
    refine ⟨row, htx, fun u hrun => ?_⟩
    exact hafter.eventAt_of_settled hmax
      (hnext.ledger_step.settled_prefix.subset hrow) hrun

/-- The first rehydration of a wallet that was never written. -/
theorem reachable_first_live (tenantID : Int32) (uid : Int64) (maxRows : Nat) (now : Int) :
    (wallet tenantID uid).ReachableIf (Fits maxRows)
      ⟨WalletStore.empty, [], .live (newBusinessActor tenantID uid now)⟩ :=
  .tail (.tail .refl ⟨.loadSnapshot none, trivial, rfl⟩) ⟨.loadEvents now none, trivial, rfl⟩

/-- A deposit of ten, as the gateway encodes it. -/
def depositTen : RemoteEnvelope where
  tenantId := 1
  uid := 42
  txId := "7"
  requestId := 7
  opCode := 1
  payload := BigEndian.putUint64 10

/-- The first event of the wallet `(1, 42)`. -/
def firstDeposit : BusinessActor.Handled :=
  (newBusinessActor 1 42 0).handle WalletStore.empty depositTen 5 .applied

/-- The partition limit of the store leaves room for the first event. -/
theorem firstDeposit_fits : Fits (2 ^ 31)
    ⟨WalletStore.empty, [], .live (newBusinessActor 1 42 0)⟩ (.handle depositTen 5 .applied) :=
  fun _ _ _ => Or.inr (by decide)

theorem wallet_recovers_firstDeposit :
    firstDeposit.result.success = true ∧ firstDeposit.result.payload ≠ [] ∧
      ((newBusinessActor 1 42 9).rehydrate firstDeposit.store).1.balance = 10 ∧
      firstDeposit.store.eventAt 1 = some ((newBusinessActor 1 42 0).eventRow depositTen 5) := by
  have hack : firstDeposit.result.success = true ∧ firstDeposit.result.payload ≠ [] := by decide
  obtain ⟨t, hstep, _, hnew, _⟩ := (wallet_recovers (by decide)
    (reachable_first_live 1 42 (2 ^ 31) 0)).2 _ depositTen 5 .applied rfl firstDeposit_fits
  obtain ⟨hrehydrate, hstays⟩ := hnew hack.1 hack.2
  cases Option.some.inj hstep
  exact ⟨hack.1, hack.2, (hrehydrate 9).2.1.trans (by decide), hstays _ .refl⟩

end

end ActorCluster.Wallet
