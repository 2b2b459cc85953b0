import ActorCluster.Foundation.RingBuffer
import ActorCluster.Wallet.Lifetime

/-! # The replay window of an actor

Within one life of an actor the ids it replayed, each by its first occurrence, and
those it committed since form a sliding window over the log. A restart narrows the
window to the events after the snapshot it loads, and a replayed id that occurs
twice keeps the slot of its first occurrence.
-/

namespace ActorCluster.Wallet

open Remote Transition RingBuffer

/-- The ids pushed onto the ring in one life, the newest of which are cached. -/
abbrev BusinessActor.Recalls (b : BusinessActor) (pushed : List String) : Prop :=
  Window "" b.txRing b.txCursor b.txCache pushed

theorem BusinessActor.Recalls.addTxID {b : BusinessActor} {pushed : List String}
    (h : b.Recalls pushed) {txID : String} (hfresh : txID ∉ b.txCache) :
    (b.addTxID txID).Recalls (pushed ++ [txID]) :=
  h.replace hfresh

/-- A committed id enters the window; nothing else moves it. -/
theorem BusinessActor.Recalls.handle {b : BusinessActor} {pushed : List String}
    (h : b.Recalls pushed) (store : WalletStore) (env : RemoteEnvelope) (now : Int)
    (outcome : WriteOutcome) :
    (b.handle store env now outcome).actor.Recalls
      (pushed ++ if b.Admits env ∧ outcome = .applied then [env.txId] else []) := by
  split
  next hacknowledged =>
    obtain ⟨hadmits, rfl⟩ := hacknowledged
    have hcommitted := (BusinessActor.handle_of_applied store now hadmits).2
    unfold BusinessActor.Recalls
    rw [hcommitted.txRing, hcommitted.txCursor, hcommitted.txCache]
    exact h.addTxID hadmits.1
  next hnot =>
    rw [BusinessActor.handle_actor_of_unacknowledged store now outcome hnot, List.append_nil]
    exact h

/-- Seeding pushes the ids that are new and caches all of them. -/
theorem holds_seedAll (rows : List EventRow) {b : BusinessActor} {pushed : List String}
    (hring : Holds "" b.txRing b.txCursor pushed) (hcache : b.txCache = pushed.toFinset) :
    Holds "" (b.seedAll rows).txRing (b.seedAll rows).txCursor
        (pushNew pushed (rows.map EventRow.txID)) ∧
      (b.seedAll rows).txCache = (pushNew pushed (rows.map EventRow.txID)).toFinset := by
  induction rows generalizing b pushed with
  | nil => exact ⟨hring, hcache⟩
  | cons row rest ih =>
      have hmem : row.txID ∈ b.txCache ↔ row.txID ∈ pushed := by rw [hcache, List.mem_toFinset]
      refine ih (b := b.seedTxID row.txID) ?_ ?_ <;>
        simp only [BusinessActor.seedTxID, hmem] <;> split
      · exact hring
      · exact hring.push row.txID
      · exact hcache
      · ext txID
        simp only [hcache, Finset.mem_insert, List.mem_toFinset, List.mem_append,
          List.mem_singleton]
        exact or_comm

theorem holds_newBusinessActor (tenantID : Int32) (uid : Int64) (now : Int)
    (rows : List EventRow) :
    Holds "" ((newBusinessActor tenantID uid now).seedAll rows).txRing
        ((newBusinessActor tenantID uid now).seedAll rows).txCursor
        (pushNew [] (rows.map EventRow.txID)) ∧
      ((newBusinessActor tenantID uid now).seedAll rows).txCache =
        (pushNew [] (rows.map EventRow.txID)).toFinset :=
  holds_seedAll rows (b := newBusinessActor tenantID uid now) (holds_nil "") rfl

/-- A life starts with a window over the first occurrences of the ids it replays. -/
theorem recalls_seedAll (tenantID : Int32) (uid : Int64) (now : Int) (rows : List EventRow) :
    ((newBusinessActor tenantID uid now).seedAll rows).Recalls
      (pushNew [] (rows.map EventRow.txID)) := by
  obtain ⟨hring, hcache⟩ := holds_newBusinessActor tenantID uid now rows
  refine ⟨hring, ?_, (nodup_pushNew List.nodup_nil).sublist (List.drop_sublist _ _)⟩
  intro txID htxID
  rw [hcache, List.mem_toFinset]
  exact List.mem_of_mem_drop htxID

/-- The steps that do not end the life of the actor. -/
def SameLife (maxRows : Nat) (s : WalletRun) (action : WalletAction) : Prop :=
  Fits maxRows s action ∧ action ≠ .stop

/-- The actor is alive, and recalls the replayed ids by their first occurrence and
the ids that it has committed since. -/
def Recalling (maxRows k : Nat) (replayed : List EventRow) (s : WalletRun) : Prop :=
  ∃ ledger b committed, Tracks maxRows s ledger ∧ s.phase = .live b ∧
    k ≤ ledger.settled.length ∧ ledger.settled.drop k = replayed ++ committed ∧
    b.Recalls (pushNew [] (replayed.map EventRow.txID) ++ committed.map EventRow.txID)

section

variable {tenantID : Int32} {uid : Int64} {maxRows k : Nat} {s t : WalletRun}
variable {replayed : List EventRow}

/-- A committed event enters the window with its id; nothing else moves it. -/
theorem HandleStep.recalls {b : BusinessActor} {env : RemoteEnvelope} {now : Int}
    {outcome : WriteOutcome} {ledger next : Ledger EventRow}
    (hhandle : HandleStep b env now outcome ledger next) (store : WalletStore)
    {pushed : List String} (h : b.Recalls pushed) :
    ∃ added, next.settled = ledger.settled ++ added ∧
      (b.handle store env now outcome).actor.Recalls (pushed ++ added.map EventRow.txID) := by
  have hrecalls := h.handle store env now outcome
  cases hhandle with
  | unwritten hskip =>
      have hnot : ¬ (b.Admits env ∧ outcome = .applied) := by
        rintro ⟨hadmits, rfl⟩
        exact hskip.elim (absurd hadmits) Bool.noConfusion
      rw [if_neg hnot] at hrecalls
      exact ⟨[], (List.append_nil _).symm, hrecalls⟩
  | tentative _ hne =>
      rw [if_neg fun hboth => hne hboth.2] at hrecalls
      exact ⟨[], (List.append_nil _).symm, hrecalls⟩
  | settled hadmits happlied =>
      rw [if_pos ⟨hadmits, happlied⟩] at hrecalls
      exact ⟨[b.eventRow env now], rfl, hrecalls⟩

/-- The window slides along with the log for as long as the actor lives. -/
theorem Recalling.step (hmax : maxRows < 2 ^ 63) (h : Recalling maxRows k replayed s)
    {action : WalletAction} (hlife : SameLife maxRows s action)
    (hstep : (wallet tenantID uid).step s action = some t) : Recalling maxRows k replayed t := by
  obtain ⟨ledger, b, committed, htracks, hphase, hk, hsplit, hrecalls⟩ := h
  obtain ⟨next, hmove, hnext⟩ := htracks.step hmax hlife.1 hstep
  cases hmove with
  | handle b' hphase' hhandle =>
      obtain ⟨b'', hphase'', rfl⟩ := step_handle hstep
      cases hphase.symm.trans hphase'
      cases hphase.symm.trans hphase''
      obtain ⟨added, hsettled, hrecalls'⟩ := hhandle.recalls s.store hrecalls
      refine ⟨next, _, committed ++ added, hnext, rfl, ?_, ?_, ?_⟩
      · rw [hsettled, List.length_append]
        exact Nat.le_add_right_of_le hk
      · rw [hsettled, List.drop_append_of_le_length hk, hsplit, List.append_assoc]
      · rw [List.map_append, ← List.append_assoc]
        exact hrecalls'
  | land index =>
      obtain ⟨snap, _, rfl⟩ := step_land hstep
      exact ⟨ledger, b, committed, hnext, hphase, hk, hsplit, hrecalls⟩
  | stop => exact absurd rfl hlife.2
  | loadSnapshot =>
      cases hphase.symm.trans (step_loadSnapshot hstep).1
  | giveUp | adopt =>
      obtain ⟨snap, hloading, _⟩ := step_loadEvents hstep
      cases hphase.symm.trans hloading

/-- A rehydration begins a window over the ids that it replays. -/
theorem recalling_of_loadEvents (hmax : maxRows < 2 ^ 63)
    (hs : (wallet tenantID uid).ReachableIf (Fits maxRows) s) {snap : Snapshot}
    (hphase : s.phase = .loading snap) {now : Int}
    (hstep : (wallet tenantID uid).step s (.loadEvents now none) = some t) :
    ∃ k : Nat, snap.lastVersion.toInt = k ∧
      Recalling maxRows k (s.store.eventsAfter snap.lastVersion) t := by
  obtain ⟨ledger, htracks⟩ := tracks_of_reachable hmax hs
  have hagrees : Agrees ledger.settled snap := by
    simpa [hphase, Phase.Tracks] using htracks.phase
  obtain ⟨k, recovered, hk, hle, heq, hseeded, hholds⟩ := htracks.backs.loadEvents hagrees
    (show (newBusinessActor tenantID uid now).txCache = ∅ from rfl)
  have hlive : t = { s with phase := .live recovered } := by
    simp only [wallet, WalletRun.loadEventsStep, hphase, heq] at hstep
    exact (Option.some.inj hstep).symm
  subst hlive
  rw [htracks.backs.eventsAfter_eq hk]
  refine ⟨k, hk, ledger.adopt, recovered, [], ⟨htracks.backs.adopt, hholds⟩, rfl, ?_, ?_, ?_⟩
  · exact hle.trans (List.IsPrefix.length_le ledger.settled_prefix_rows)
  · exact (List.append_nil _).symm
  · rw [hseeded, List.map_nil, List.append_nil]
    exact recalls_seedAll tenantID uid now _

/-- A settled row above `k` splits the settled rows there. If it is among the newest
stored rows, few rows follow it. -/
theorem settled_split {ledger : Ledger EventRow}
    (hnumbered : Partition.Contiguous EventRow.key 0 ledger.rows) {n : Nat} {row : EventRow}
    (hrow : row ∈ newest n ledger.rows) (hafter : (k : Int) < row.key)
    (hsettled : row.key ≤ ledger.settled.length) :
    ∃ before after, ledger.settled.drop k = before ++ row :: after ∧ after.length + 1 ≤ n ∧
      ∀ other ∈ before, other.key < row.key := by
  obtain ⟨i, hi, hrecent, hget⟩ := mem_newest_iff.mp hrow
  have hkey := hnumbered.key_get (List.getElem?_eq_some_iff.mpr ⟨hi, hget⟩)
  have hlen := List.IsPrefix.length_le ledger.settled_prefix_rows
  have hindex : i < ledger.settled.length := by omega
  have hsame : ledger.settled[i] = row := by
    rw [← hget]
    exact (List.getElem_append_left hindex).symm
  have hsplit : ledger.settled.drop k =
      (ledger.settled.drop k).take (i - k) ++ row :: ledger.settled.drop (i + 1) := by
    rw [← hsame, List.cons_getElem_drop_succ]
    conv_lhs => rw [← List.take_append_drop (i - k) (ledger.settled.drop k), List.drop_drop]
    rw [Nat.add_sub_cancel' (by omega : k ≤ i)]
  refine ⟨_, _, hsplit, by rw [List.length_drop]; omega, fun other hother => ?_⟩
  rw [Ledger.rows, Partition.Contiguous.append_iff, ← List.take_append_drop k ledger.settled,
    Partition.Contiguous.append_iff, hsplit, Partition.Contiguous.append_iff] at hnumbered
  have hbound := (hnumbered.1.2.1.key_bounds hother).2
  have hnext := hnumbered.1.2.2.1
  omega

/-- The id of a row is in the window if few rows follow, unless it was replayed with an
earlier row already. -/
theorem mem_newest_recalled {n : Nat} {committed before after : List EventRow} {row : EventRow}
    (hrows : replayed ++ committed = before ++ row :: after) (hnear : after.length + 1 ≤ n)
    (hnew : ∀ rest, replayed = before ++ row :: rest → row.txID ∉ before.map EventRow.txID) :
    row.txID ∈ newest n
      (pushNew [] (replayed.map EventRow.txID) ++ committed.map EventRow.txID) := by
  rcases List.append_eq_append_iff.mp hrows with ⟨own, rfl, hown⟩ | ⟨own, hown, hafter⟩
  · -- the actor has committed the row itself
    rw [hown, List.map_append, ← List.append_assoc]
    exact mem_newest_append List.mem_cons_self (by simpa using hnear)
  · cases own with
    | nil =>
        rw [show committed = row :: after by simpa using hafter.symm]
        exact mem_newest_append List.mem_cons_self (by simpa using hnear)
    | cons head rest =>
        obtain ⟨rfl, rfl⟩ : row = head ∧ after = rest ++ committed := by simpa using hafter
        have hfirst := hnew rest hown
        rw [hown, List.map_append, List.map_cons]
        refine mem_newest_pushNew hfirst ?_
        rw [List.length_map, List.length_map]
        rw [List.length_append] at hnear
        omega

/-- An envelope that carries the id of one of the newest events which the live
actor replayed or committed writes nothing and changes neither balance nor
version, provided that no earlier event with this id was replayed as well. -/
theorem replay_refused_in_life (hmax : maxRows < 2 ^ 63) {s₀ s₁ : WalletRun}
    (hs₀ : (wallet tenantID uid).ReachableIf (Fits maxRows) s₀) {snap : Snapshot}
    (hphase : s₀.phase = .loading snap) {now : Int}
    (hload : (wallet tenantID uid).step s₀ (.loadEvents now none) = some s₁)
    (hrun : (wallet tenantID uid).RunIf (SameLife maxRows) s₁ s) {b : BusinessActor}
    (hlive : s.phase = .live b) {row : EventRow}
    (hrecent : row ∈ newest txCacheSize s.store.events)
    (hafter : snap.lastVersion < row.version) (hcommitted : row.version ≤ b.version)
    (hfirst : row ∈ s₀.store.eventsAfter snap.lastVersion →
      ∀ other ∈ s₀.store.eventsAfter snap.lastVersion, other.txID = row.txID →
        row.version ≤ other.version)
    {env : RemoteEnvelope} (htx : env.txId = row.txID) (later : Int) (outcome : WriteOutcome) :
    (b.handle s.store env later outcome).store = s.store ∧
      (b.handle s.store env later outcome).actor.balance = b.balance ∧
      (b.handle s.store env later outcome).actor.version = b.version ∧
      (b.handle s.store env later outcome).result.success = true := by
  obtain ⟨k, hk, hrecalling⟩ := recalling_of_loadEvents hmax hs₀ hphase hload
  obtain ⟨ledger, b', committed, htracks, hphase', _, hsplit, hrecalls⟩ :=
    System.RunIf.preserves (fun s action t h hlife hstep => h.step hmax hlife hstep) hrun hrecalling
  cases hlive.symm.trans hphase'
  have hb : HoldsLedger b ledger := by simpa [hlive, Phase.Tracks] using htracks.phase
  rw [htracks.backs.events] at hrecent
  have hkey : (k : Int) < row.key := by
    rw [← hk]
    exact Int64.lt_iff_toInt_lt.mp hafter
  have hsettled : row.key ≤ ledger.settled.length := by
    rw [← hb.version]
    exact Int64.le_iff_toInt_le.mp hcommitted
  obtain ⟨before, after, hrows, hnear, hbefore⟩ :=
    settled_split htracks.backs.numbered hrecent hkey hsettled
  have hdup : env.txId ∈ b.txCache := by
    rw [htx]
    refine hrecalls.cached _ (mem_newest_recalled (hsplit.symm.trans hrows) hnear ?_)
    intro rest hreplayed hmem
    obtain ⟨other, hother, hsame⟩ := List.mem_map.mp hmem
    have hle := hfirst (by rw [hreplayed]; simp) other (by rw [hreplayed]; simp [hother]) hsame
    have hlater : row.key ≤ other.key := Int64.le_iff_toInt_le.mp hle
    have hearlier := hbefore other hother
    omega
  obtain ⟨result, _, hsuccess, heq⟩ :=
    BusinessActor.handle_of_not_admits s.store later outcome fun hadmits => hadmits.1 hdup
  rw [heq]
  exact ⟨rfl, rfl, rfl, hsuccess.mpr hdup⟩

/-- The actor that takes over the wallet after the first deposit. -/
def restarted : BusinessActor := ((newBusinessActor 1 42 7).rehydrate firstDeposit.store).1

theorem replay_refused_restarted :
    firstDeposit.store.events.map EventRow.txID = [depositTen.txId] ∧
      (restarted.handle firstDeposit.store depositTen 8 .applied).store = firstDeposit.store ∧
      (restarted.handle firstDeposit.store depositTen 8 .applied).actor.balance = 10 := by
  have hloading : (wallet 1 42).ReachableIf (Fits (2 ^ 31))
      ⟨firstDeposit.store, [], .loading ⟨0, 0⟩⟩ :=
    .tail (.tail (.tail (reachable_first_live 1 42 (2 ^ 31) 0)
      ⟨.handle depositTen 5 .applied, firstDeposit_fits, rfl⟩) ⟨.stop, trivial, rfl⟩)
      ⟨.loadSnapshot none, trivial, rfl⟩
  have hload : (wallet 1 42).step ⟨firstDeposit.store, [], .loading ⟨0, 0⟩⟩ (.loadEvents 7 none) =
      some ⟨firstDeposit.store, [], .live restarted⟩ := rfl
  have hrecent : (newBusinessActor 1 42 0).eventRow depositTen 5 ∈
      newest txCacheSize firstDeposit.store.events := by decide
  have htx : depositTen.txId = ((newBusinessActor 1 42 0).eventRow depositTen 5).txID := rfl
  obtain ⟨hstore, hbalance, _⟩ := replay_refused_in_life (by decide) hloading rfl hload .refl rfl
    hrecent (by decide) (by decide +kernel) (by decide +kernel) htx 8 .applied
  exact ⟨by decide, hstore, hbalance.trans (by decide +kernel)⟩

end

/-! ## Replays outside the window -/

/-- A deposit of one unit under the given id. -/
def depositOne (txId : String) : RemoteEnvelope where
  tenantId := 1
  uid := 42
  txId := txId
  requestId := 1
  opCode := 1
  payload := BigEndian.putUint64 1

/-- Pairwise different ids. -/
def depositId (n : Nat) : String := String.ofList (List.replicate n 'x')

theorem depositId_injective : Function.Injective depositId := by
  intro m n h
  simpa [depositId] using congrArg (fun id : String => id.toList.length) h

/-- A live actor of `(1, 42)` that knows every stored event, each of which
deposited one unit. -/
structure Counts (s : WalletRun) (b : BusinessActor) (n : Nat) : Prop where
  reachable : (wallet 1 42).ReachableIf (Fits (2 ^ 31)) s
  live : s.phase = .live b
  length : s.store.events.length = n
  version : b.version.toInt = n
  balance : b.balance.toInt = n

section

variable {s : WalletRun} {b : BusinessActor} {n : Nat}

/-- A small balance admits one more unit under an id that is not cached. -/
theorem admits_depositOne {txId : String} (hfresh : txId ∉ b.txCache)
    (hbalance : b.balance.toInt = n) (hn : n + 1 < 2 ^ 31) : b.Admits (depositOne txId) := by
  refine ⟨hfresh, by simp [depositOne], ?_⟩
  change 0 ≤ b.balance + 1
  rw [Int64.le_iff_toInt_le, toInt_add_one hbalance (by omega)]
  exact Int.natCast_nonneg _

/-- Such an actor holds a ledger with no tentative row. -/
theorem Counts.tracks (h : Counts s b n) :
    ∃ ledger, Backs (2 ^ 31) s.store s.inFlight ledger ∧ HoldsLedger b ledger ∧
      ledger.settled = ledger.rows := by
  obtain ⟨ledger, htracks⟩ := tracks_of_reachable (by decide) h.reachable
  have hb : HoldsLedger b ledger := by simpa [h.live, Phase.Tracks] using htracks.phase
  refine ⟨ledger, htracks.backs, hb, ledger.settled_prefix_rows.eq_of_length ?_⟩
  rw [← htracks.backs.events, h.length]
  exact_mod_cast hb.version.symm.trans h.version

theorem Counts.version_le (h : Counts s b n) {row : EventRow} (hrow : row ∈ s.store.events) :
    row.version ≤ b.version := by
  obtain ⟨ledger, hbacks, hb, hrows⟩ := h.tracks
  rw [hbacks.events] at hrow
  rw [Int64.le_iff_toInt_le, hb.version, hrows]
  simpa [EventRow.key] using (hbacks.numbered.key_bounds hrow).2

/-- The state after a deposit whose write is acknowledged. -/
def deposited (s : WalletRun) (b : BusinessActor) (txId : String) : WalletRun :=
  ⟨(b.handle s.store (depositOne txId) 9 .applied).store,
    (b.handle s.store (depositOne txId) 9 .applied).snapshot.toList ++ s.inFlight,
    .live (b.handle s.store (depositOne txId) 9 .applied).actor⟩

/-- One more acknowledged unit is one more event. -/
theorem Counts.deposit (h : Counts s b n) {txId : String} (hfresh : txId ∉ b.txCache)
    (hn : n + 1 < 2 ^ 31) :
    Fits (2 ^ 31) s (.handle (depositOne txId) 9 .applied) ∧
      Counts (deposited s b txId) (b.handle s.store (depositOne txId) 9 .applied).actor (n + 1) ∧
      (deposited s b txId).store.events = s.store.events ++ [b.eventRow (depositOne txId) 9] ∧
      (deposited s b txId).store.snapshot = s.store.snapshot ∧
      BusinessActor.Committed b (depositOne txId)
        (b.handle s.store (depositOne txId) 9 .applied) := by
  obtain ⟨ledger, hbacks, hb, hrows⟩ := h.tracks
  have hlength := h.length
  have hfits : Fits (2 ^ 31) s (.handle (depositOne txId) 9 .applied) :=
    fun _ _ _ => Or.inr (by omega)
  obtain ⟨hstore, hcommitted⟩ :=
    BusinessActor.handle_of_applied s.store 9 (admits_depositOne hfresh h.balance hn)
  obtain ⟨hkey, _⟩ := hbacks.next_version (by decide) hb (hfits b h.live rfl)
  have hevents : (deposited s b txId).store.events =
      s.store.events ++ [b.eventRow (depositOne txId) 9] := by
    change (b.handle s.store (depositOne txId) 9 .applied).store.events = _
    rw [hstore, hbacks.events_upsertEvent (show (b.eventRow _ 9).key = _ from hkey),
      hbacks.events, hrows]
  refine ⟨hfits, ⟨h.reachable.tail ⟨_, hfits, ?_⟩, rfl, ?_, ?_, ?_⟩, hevents, ?_, hcommitted⟩
  · simp only [wallet, WalletRun.handleStep, h.live]
    rfl
  · rw [hevents, List.length_append, hlength, List.length_singleton]
  · rw [hcommitted.version, toInt_add_one h.version (by omega)]
  · rw [hcommitted.balance]
    exact toInt_add_one h.balance (by omega)
  · change (b.handle s.store (depositOne txId) 9 .applied).store.snapshot = _
    rw [hstore, WalletStore.upsertEvent_snapshot]

/-- A restart of an actor that knows every stored event keeps its balance and
version, and seeds the ids after the stored snapshot. -/
theorem Counts.restart (h : Counts s b n) {snap : Snapshot}
    (hsnap : BusinessActor.loadSnapshot ⟨s.store.snapshot.toList, none⟩ = .ok snap) :
    ∃ (recovered : BusinessActor) (k : Nat),
      (wallet 1 42).step { s with phase := .loading snap } (.loadEvents 0 none) =
        some { s with phase := .live recovered } ∧
      Counts { s with phase := .live recovered } recovered n ∧ snap.lastVersion.toInt = k ∧
      recovered = { (newBusinessActor 1 42 0).seedAll (s.store.events.drop k) with
        balance := recovered.balance, version := recovered.version } := by
  obtain ⟨ledger, hbacks, hb, hrows⟩ := h.tracks
  obtain ⟨snap', hsnap', hagrees⟩ := hbacks.loadSnapshot
  cases hsnap.symm.trans hsnap'
  obtain ⟨k, recovered, hk, _, hload, hseeded, hholds⟩ := hbacks.loadEvents
    hagrees (show (newBusinessActor 1 42 0).txCache = ∅ from rfl)
  have hloading : (wallet 1 42).ReachableIf (Fits (2 ^ 31)) { s with phase := .loading snap } := by
    refine .tail (.tail h.reachable ⟨.stop, trivial, rfl⟩) ⟨.loadSnapshot none, trivial, ?_⟩
    simp only [wallet, WalletRun.loadSnapshotStep, hsnap]
  have hstep : (wallet 1 42).step { s with phase := .loading snap } (.loadEvents 0 none) =
      some { s with phase := .live recovered } := by
    simp only [wallet, WalletRun.loadEventsStep, hload]
  refine ⟨recovered, k, hstep,
    ⟨hloading.tail ⟨.loadEvents 0 none, trivial, hstep⟩, rfl, h.length, ?_, ?_⟩, hk, ?_⟩
  · rw [hholds.version, ← h.version, hb.version, hrows]
    rfl
  · rw [hholds.balance, ← h.balance, hb.balance, hrows]
    rfl
  · rw [hbacks.events]
    exact hseeded

end

/-- Every event was acknowledged in the first life of the actor, and no
snapshot write has landed. -/
structure Deposited (s : WalletRun) (b : BusinessActor) (ids : List String) : Prop where
  counts : Counts s b ids.length
  events : s.store.events.map EventRow.txID = ids
  recalls : b.Recalls ids
  exact : b.txCache ⊆ (newest txCacheSize ids).toFinset
  nonempty : "" ∉ ids
  count : b.eventCount = ids.length % snapshotThreshold
  landed : s.store.snapshot = none
  launched : 0 < ids.length → ids.length % snapshotThreshold = 0 →
    b.takeSnapshotAsync ∈ s.inFlight

section

variable {s : WalletRun} {b : BusinessActor} {n : Nat}

/-- One more deposit under an id that has left the window. -/
theorem Deposited.step {ids : List String} (h : Deposited s b ids) {txId : String}
    (hid : txId ≠ "") (hnew : txId ∉ newest txCacheSize ids) (hlen : ids.length + 1 < 2 ^ 31) :
    ∃ t b', Deposited t b' (ids ++ [txId]) := by
  have hfresh : txId ∉ b.txCache := fun hmem => hnew (List.mem_toFinset.mp (h.exact hmem))
  obtain ⟨_, hcounts, hevents, hsnapshot, hcommitted⟩ := h.counts.deposit hfresh hlen
  have hround : ids.length + 1 = (ids ++ [txId]).length := by simp
  refine ⟨_, _, hround ▸ hcounts, ?_, ?_, ?_, by simpa using ⟨h.nonempty, hid⟩, ?_,
    hsnapshot.trans h.landed, ?_⟩
  · rw [hevents, List.map_append, h.events]
    rfl
  · unfold BusinessActor.Recalls
    rw [hcommitted.txRing, hcommitted.txCursor, hcommitted.txCache]
    exact h.recalls.addTxID hfresh
  · rw [hcommitted.txCache]
    exact h.recalls.replace_exact h.exact h.nonempty txId
  · have hcount := h.count
    have hlaunched := hcommitted.launched
    rw [hcommitted.eventCount, ← hround]
    simp only [snapshotThreshold] at hcount hlaunched ⊢
    split
    next hsome =>
      have hfull := hlaunched.mp hsome
      omega
    next hnone =>
      have hpartial := mt hlaunched.mpr hnone
      omega
  · intro _ hfull
    have hcount := h.count
    rw [← hround] at hfull
    obtain ⟨snap, hsnap⟩ := Option.isSome_iff_exists.mp (hcommitted.launched.mpr (by
      simp only [snapshotThreshold] at hcount hfull ⊢
      omega))
    rw [hcommitted.snapshot snap hsnap] at hsnap
    simp [deposited, hsnap]

/-- Any number of deposits under new ids. -/
theorem deposited_range (n : Nat) (hn : n < 2 ^ 31) :
    ∃ s b, Deposited s b ((List.range' 1 n).map depositId) := by
  induction n with
  | zero =>
      refine ⟨_, _, ⟨reachable_first_live 1 42 (2 ^ 31) 0, rfl, rfl, rfl, rfl⟩, rfl,
        ⟨holds_nil "", ?_, ?_⟩, Finset.empty_subset _, ?_, rfl, rfl, ?_⟩ <;> simp [newest]
  | succ n ih =>
      obtain ⟨s, b, h⟩ := ih (by omega)
      have hnew : depositId (1 + n) ∉ (List.range' 1 n).map depositId := by
        intro hmem
        obtain ⟨i, hi, heq⟩ := List.mem_map.mp hmem
        have := List.mem_range'_1.mp hi
        have := depositId_injective heq
        omega
      rw [List.range'_1_concat, List.map_append]
      refine h.step ?_ (fun hmem => hnew (List.mem_of_mem_drop hmem)) (by simpa using hn)
      intro hempty
      have := depositId_injective (hempty.trans (show "" = depositId 0 from rfl))
      omega

/-- An envelope with the id of one of the newest stored events is executed. -/
structure Reexecuted (s : WalletRun) (b : BusinessActor) (row : EventRow) (env : RemoteEnvelope) :
    Prop where
  reachable : (wallet 1 42).ReachableIf (Fits (2 ^ 31)) s
  live : s.phase = .live b
  recent : row ∈ newest txCacheSize s.store.events
  sameId : env.txId = row.txID
  fits : Fits (2 ^ 31) s (.handle env 9 .applied)
  written : (b.handle s.store env 9 .applied).store.events ≠ s.store.events
  version : (b.handle s.store env 9 .applied).actor.version = b.version + 1
  balance : (b.handle s.store env 9 .applied).actor.balance =
    b.balance + BusinessActor.decodeAmount env.payload

/-- An id that is no longer cached is executed again. -/
theorem Counts.reexecuted (h : Counts s b n) (hn : n + 1 < 2 ^ 31) {row : EventRow}
    (hrow : row ∈ newest txCacheSize s.store.events) (hfresh : row.txID ∉ b.txCache) :
    Reexecuted s b row (depositOne row.txID) := by
  obtain ⟨hfits, _, hevents, _, hcommitted⟩ := h.deposit hfresh hn
  refine ⟨h.reachable, h.live, hrow, rfl, hfits, ?_, hcommitted.version, hcommitted.balance⟩
  change (deposited s b row.txID).store.events ≠ _
  rw [hevents]
  simp

end

/-- A snapshot at the last event leaves a restarted actor with no ids at all. -/
theorem reexecuted_after_snapshot :
    ∃ s b row env, Reexecuted s b row env ∧
      ∃ snap, s.store.snapshot = some snap ∧ row.version ≤ snap.lastVersion := by
  obtain ⟨s, b, h⟩ := deposited_range 1000 (by decide)
  have hcounts : Counts s b 1000 := by simpa using h.counts
  have hsnap := h.launched (by simp) (by simp [snapshotThreshold])
  obtain ⟨index, hindex⟩ := List.getElem?_of_mem hsnap
  have hland : (wallet 1 42).step s (.land index) =
      some { s with store := s.store.upsertSnapshot b.takeSnapshotAsync } := by
    simp [wallet, hindex]
  have hlanded : Counts { s with store := s.store.upsertSnapshot b.takeSnapshotAsync } b 1000 :=
    { hcounts with reachable := hcounts.reachable.tail ⟨.land index, trivial, hland⟩ }
  obtain ⟨recovered, k, _, hrecovered, hk, hseeded⟩ := hlanded.restart rfl
  obtain rfl : k = 1000 := by exact_mod_cast hk.symm.trans hcounts.version
  have huncached : recovered.txCache = ∅ := by
    have hnone : s.store.events.drop 1000 = [] := List.drop_eq_nil_of_le hcounts.length.le
    rw [hseeded]
    simp only [WalletStore.upsertSnapshot_events, hnone]
    rfl
  obtain ⟨row, hrow⟩ := List.exists_mem_of_length_pos (by rw [hcounts.length]; decide)
  have hall : newest txCacheSize s.store.events = s.store.events :=
    newest_eq_self hcounts.length.le
  exact ⟨_, recovered, row, _, hrecovered.reexecuted (by decide) (hall.symm ▸ hrow)
    (by simp [huncached]), _, rfl, hcounts.version_le hrow⟩

/-- A row whose write reported an error is overwritten by the retry. -/
theorem reexecuted_after_error :
    ∃ s b row env, Reexecuted s b row env ∧ b.version < row.version := by
  have hreached : (wallet 1 42).ReachableIf (Fits (2 ^ 31))
      ⟨WalletStore.empty.upsertEvent ((newBusinessActor 1 42 0).eventRow depositTen 5), [],
        .live { newBusinessActor 1 42 0 with lastActive := 5 }⟩ := by
    refine (reachable_first_live 1 42 (2 ^ 31) 0).tail
      ⟨.handle depositTen 5 (.failedApplied "timeout"), ?_, rfl⟩
    exact fun _ _ _ => Or.inr (by decide)
  refine ⟨_, _, (newBusinessActor 1 42 0).eventRow depositTen 5, depositTen,
    ⟨hreached, rfl, by decide, rfl, ?_, by decide, by decide, by decide⟩, by decide⟩
  exact fun _ _ _ => Or.inr (by decide)

/-- The ids of the first thousand and one deposits. -/
def firstIds : List String := (List.range' 1 1001).map depositId

theorem firstIds_nodup : firstIds.Nodup :=
  (List.nodup_range').map depositId_injective

/-- The first two ids and the ones after them, which are one short of the
window. -/
theorem firstIds_split :
    ∃ rest : List String, firstIds = depositId 1 :: depositId 2 :: rest ∧ rest.length = 999 := by
  refine ⟨(List.range' 3 999).map depositId, ?_, by simp⟩
  rw [firstIds, List.range'_succ, List.range'_succ, List.map_cons, List.map_cons]

/-- A thousand and one new ids, and then the first two of them again: each has
left the window when it recurs. -/
theorem deposited_twice :
    ∃ s b, Deposited s b (firstIds ++ [depositId 1] ++ [depositId 2]) := by
  obtain ⟨s, b, h⟩ := deposited_range 1001 (by decide)
  have hnodup := firstIds_nodup
  change Deposited s b firstIds at h
  obtain ⟨rest, hsplit, hlen⟩ := firstIds_split
  have hsize : txCacheSize = rest.length + 1 := by rw [hlen, txCacheSize]
  rw [hsplit] at h hnodup ⊢
  simp only [List.nodup_cons, List.mem_cons, not_or] at hnodup
  obtain ⟨⟨hne, hfirst⟩, hsecond, _⟩ := hnodup
  obtain ⟨t, b', h'⟩ := h.step (show depositId 1 ≠ "" by decide)
    (by
      rw [← List.singleton_append]
      refine notMem_newest_append ?_ (by rw [hsize, List.length_cons])
      rw [List.mem_cons, not_or]
      exact ⟨hne, hfirst⟩)
    (by simp [hlen])
  refine h'.step (by decide) ?_ (by simp [hlen])
  change depositId 2 ∉ newest txCacheSize ([depositId 1, depositId 2] ++ (rest ++ [depositId 1]))
  refine notMem_newest_append ?_ (by rw [hsize, List.length_append, List.length_singleton])
  rw [List.mem_append, List.mem_singleton, not_or]
  exact ⟨hsecond, fun heq => hne heq.symm⟩

/-- Replaying those events leaves the ring and the cache as if the last two had
not been there. -/
theorem seedAll_twice {rows : List EventRow}
    (h : rows.map EventRow.txID = firstIds ++ [depositId 1] ++ [depositId 2]) :
    Holds "" ((newBusinessActor 1 42 0).seedAll rows).txRing
        ((newBusinessActor 1 42 0).seedAll rows).txCursor firstIds ∧
      ((newBusinessActor 1 42 0).seedAll rows).txCache = firstIds.toFinset := by
  have hids : pushNew [] (rows.map EventRow.txID) = firstIds := by
    obtain ⟨rest, hsplit, _⟩ := firstIds_split
    have hfirst : pushNew [] firstIds = firstIds := pushNew_of_nodup firstIds_nodup
    rw [h, List.append_assoc, pushNew_append, hfirst]
    refine pushNew_of_subset fun txID htxID => ?_
    simp only [List.mem_append, List.mem_singleton] at htxID
    rw [hsplit]
    rcases htxID with rfl | rfl <;> simp
  rw [← hids]
  exact holds_newBusinessActor 1 42 0 rows

/-- A replayed id that recurs keeps its old slot in the ring, and is evicted
while its newer event is still recent. -/
theorem reexecuted_after_repeat :
    ∃ s b row env, Reexecuted s b row env ∧ row.version ≤ b.version ∧
      s.store.snapshot = none := by
  obtain ⟨s, b, h⟩ := deposited_twice
  have hcounts : Counts s b 1003 := by simpa [firstIds] using h.counts
  obtain ⟨recovered, k, _, hrecovered, hk, hseeded⟩ := hcounts.restart
    (show BusinessActor.loadSnapshot ⟨s.store.snapshot.toList, none⟩ = .ok ⟨0, 0⟩ by
      rw [h.landed]; rfl)
  obtain rfl : k = 0 := Int.ofNat_eq_zero.mp hk.symm
  obtain ⟨hring, hcache⟩ := seedAll_twice h.events
  rw [List.drop_zero] at hseeded
  generalize (newBusinessActor 1 42 0).seedAll s.store.events = seeded at hring hcache hseeded
  -- the slot that the next commit takes is that of the second id
  obtain ⟨rest, hsplit, hrest⟩ := firstIds_split
  have holdest : recovered.txRing[recovered.txCursor] = depositId 2 := by
    rw [hseeded]
    change seeded.txRing[seeded.txCursor] = _
    rw [hsplit] at hring
    have hsize : (depositId 1 :: depositId 2 :: rest).length = 1001 := by simp [hrest]
    obtain ⟨_, hslot⟩ := hring.oldest_of_le (by rw [hsize, txCacheSize]; decide)
    rw [hslot]
    simp only [hsize, txCacheSize]
    rfl
  have hfresh : depositId 1002 ∉ recovered.txCache := by
    rw [hseeded, hcache, List.mem_toFinset]
    intro hmem
    obtain ⟨i, hi, heq⟩ := List.mem_map.mp hmem
    have := List.mem_range'_1.mp hi
    have := depositId_injective heq
    omega
  obtain ⟨_, hafter, hevents, hsnapshot, hcommitted⟩ := hrecovered.deposit hfresh (by decide)
  have hevicted : depositId 2 ∉
      (recovered.handle s.store (depositOne (depositId 1002)) 9 .applied).actor.txCache := by
    rw [hcommitted.txCache]
    simp only [BusinessActor.addTxID, holdest, Finset.mem_insert, not_or]
    refine ⟨depositId_injective.ne (by decide), ?_⟩
    rw [if_pos (by decide)]
    exact Finset.notMem_erase _ _
  obtain ⟨earlier, row, hrows, hid⟩ : ∃ earlier row, s.store.events = earlier ++ [row] ∧
      row.txID = depositId 2 := by
    obtain ⟨earlier, last, hrows, _, hlast⟩ := List.map_eq_append_iff.mp h.events
    obtain ⟨row, rfl, hid⟩ := List.map_eq_singleton_iff.mp hlast
    exact ⟨earlier, row, hrows, hid⟩
  have hrecent : row ∈ newest txCacheSize
      (deposited { s with phase := .live recovered } recovered (depositId 1002)).store.events := by
    rw [hevents, hrows, List.append_assoc]
    exact mem_newest_append List.mem_cons_self (show 2 ≤ txCacheSize by decide)
  rw [← hid] at hevicted
  exact ⟨_, _, row, _, hafter.reexecuted (by decide) hrecent hevicted,
    hafter.version_le (List.mem_of_mem_drop hrecent), hsnapshot.trans h.landed⟩

/-- None of the conditions on the replayed event can be dropped: an event the
loaded snapshot covers, a row whose write reported an error, and an id that was
replayed twice are all executed again. -/
theorem replay_executed :
    (∃ s b row env, Reexecuted s b row env ∧
      ∃ snap, s.store.snapshot = some snap ∧ row.version ≤ snap.lastVersion) ∧
    (∃ s b row env, Reexecuted s b row env ∧ b.version < row.version) ∧
    ∃ s b row env, Reexecuted s b row env ∧ row.version ≤ b.version ∧ s.store.snapshot = none :=
  ⟨reexecuted_after_snapshot, reexecuted_after_error, reexecuted_after_repeat⟩

end ActorCluster.Wallet
