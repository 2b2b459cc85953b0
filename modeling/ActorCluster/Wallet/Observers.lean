import ActorCluster.Foundation.Refinement
import ActorCluster.Wallet.Overdraft

/-! # Reading a wallet that is in use

`computeBalance` of the gateway and `computeTrueBalance` of the audit read the snapshot of a
wallet and then the events after it. Between the two queries the actor goes on: it writes
events, snapshots land in any order, and it may be restarted. A snapshot stays true of the
settled rows, so an answer is exact for the moment of the second query. The audit finds no
negative balance, and a wallet with an audit beside it runs like one without.
-/

namespace ActorCluster.Wallet

open Remote Transition

/-- Who asks for the balance. -/
inductive Query where
  | balance
  | audit
  deriving DecidableEq

/-- Where a reader stands. An audit that has found a negative balance goes on with
`issueCompensatingTransaction`, which looks for the newest version before it writes. -/
inductive Reader where
  | idle
  | loaded (query : Query) (snapshot : Snapshot)
  | deficit (negativeBalance : Int64)
  | insert (negativeBalance : Int64) (seen : WalletStore)

/-- An answer of `computeBalance`, with the tables at its second query. -/
structure Answer where
  balance : Int64
  version : Int64
  store : WalletStore

/-- A wallet and those who read it. The history has the answers given so far. -/
structure ObservedRun where
  run : WalletRun
  reader : Nat → Reader
  answers : List Answer

inductive ObservedAction where
  | act (action : WalletAction)
  | loadSnapshot (i : Nat) (query : Query) (err : Option String)
  | loadEvents (i : Nat) (err : Option String)
  | queryVersion (i : Nat) (err : Option String)
  | insert (i : Nat) (now : Int) (outcome : WriteOutcome)

namespace ObservedRun

def setReader (s : ObservedRun) (i : Nat) (reader : Reader) : ObservedRun :=
  { s with reader := Function.update s.reader i reader }

def loadSnapshotStep (s : ObservedRun) (i : Nat) (query : Query) (err : Option String) :
    Option ObservedRun :=
  match s.reader i, err with
  | .idle, some _ => some s
  | .idle, none =>
      some (s.setReader i (.loaded query (s.run.store.snapshot.toList.getLastD ⟨0, 0⟩)))
  | _, _ => none

def loadEventsStep (s : ObservedRun) (i : Nat) (err : Option String) : Option ObservedRun :=
  match s.reader i, err with
  | .loaded _ _, some _ => some (s.setReader i .idle)
  | .loaded query snapshot, none =>
      let rows := s.run.store.eventsAfter snapshot.lastVersion
      match query with
      | .balance =>
          let (balance, version) := readEvents snapshot rows
          some { s.setReader i .idle with
            answers := s.answers ++ [⟨balance, version, s.run.store⟩] }
      | .audit =>
          let balance := replay snapshot.balance rows
          some (s.setReader i (if balance < 0 then .deficit balance else .idle))
  | _, _ => none

def queryVersionStep (s : ObservedRun) (i : Nat) (err : Option String) : Option ObservedRun :=
  match s.reader i, err with
  | .deficit _, some _ => some (s.setReader i .idle)
  | .deficit negativeBalance, none =>
      some (s.setReader i (.insert negativeBalance s.run.store))
  | _, _ => none

def insertStep (tenantID : Int32) (uid : Int64) (s : ObservedRun) (i : Nat) (now : Int)
    (outcome : WriteOutcome) : Option ObservedRun :=
  match s.reader i with
  | .insert negativeBalance seen =>
      let row := compensatingRow seen tenantID uid negativeBalance now
      some { s.setReader i .idle with
        run := { s.run with store := (s.run.store.executeBatch row outcome).1 } }
  | _ => none

end ObservedRun

/-- The wallet `(tenantID, uid)` with any number of readers. -/
def observed (tenantID : Int32) (uid : Int64) : System ObservedRun ObservedAction where
  init := ⟨(wallet tenantID uid).init, fun _ => .idle, []⟩
  step s
    | .act action => ((wallet tenantID uid).step s.run action).map fun run => { s with run := run }
    | .loadSnapshot i query err => s.loadSnapshotStep i query err
    | .loadEvents i err => s.loadEventsStep i err
    | .queryVersion i err => s.queryVersionStep i err
    | .insert i now outcome => s.insertStep tenantID uid i now outcome

/-- The partition limit for the writes of the actor. -/
def ObservedRun.Fits (maxRows : Nat) (s : ObservedRun) : ObservedAction → Prop
  | .act action => Wallet.Fits maxRows s.run action
  | _ => True

/-! ## Two queries -/

/-- What a successful scan of the events leaves in the actor. -/
theorem loadEvents_reads {b recovered : BusinessActor} {snapshot : Snapshot}
    {rows : List EventRow} (h : b.loadEvents snapshot ⟨rows, none⟩ = (recovered, none)) :
    recovered.balance = replay snapshot.balance rows ∧
      recovered.version = lastRead snapshot.lastVersion rows := by
  unfold BusinessActor.loadEvents at h
  split at h
  next => cases h
  next hscan =>
    obtain ⟨hbalance, hversion⟩ := scanEvents_reads hscan
    cases h
    exact ⟨hbalance, hversion⟩

section

variable {maxRows : Nat} {store : WalletStore} {inFlight : List Snapshot}
variable {ledger : Ledger EventRow} {snapshot : Snapshot}

/-- Any snapshot that agrees with the ledger leads to the balance of the whole log. -/
theorem Backs.readEvents (h : Backs maxRows store inFlight ledger)
    (hsnapshot : Agrees ledger.settled snapshot) :
    replay snapshot.balance (store.eventsAfter snapshot.lastVersion) = replay 0 ledger.rows ∧
      (lastRead snapshot.lastVersion (store.eventsAfter snapshot.lastVersion)).toInt =
        ledger.rows.length := by
  obtain ⟨_, recovered, _, _, hload, _, hholds⟩ :=
    h.loadEvents hsnapshot (show (newBusinessActor 0 0 0).txCache = ∅ from rfl)
  obtain ⟨hbalance, hversion⟩ := loadEvents_reads hload
  exact ⟨hbalance ▸ hholds.balance, hversion ▸ hholds.version⟩

/-- The stored snapshot agrees with the ledger. -/
theorem Backs.agrees (h : Backs maxRows store inFlight ledger) :
    Agrees ledger.settled (store.snapshot.getD ⟨0, 0⟩) := by
  cases hsnapshot : store.snapshot with
  | none => exact agrees_zero _
  | some snapshot => exact h.stored snapshot hsnapshot

end

/-! ## Readers beside the actor -/

/-- The snapshot that a reader has in its hands is true of the settled rows, and no reader is
about to compensate. -/
def Reader.Agrees (settled : List EventRow) : Reader → Prop
  | .idle => True
  | .loaded _ snapshot => Wallet.Agrees settled snapshot
  | _ => False

/-- The answer is the one of the tables at the second query, and adds up the whole log. -/
structure Answer.Exact (answer : Answer) : Prop where
  current : computeBalance answer.store none none = .ok (answer.balance, answer.version)
  sum : answer.balance.toInt = total answer.store.events
  nonneg : 0 ≤ answer.balance.toInt
  version : answer.version.toInt = answer.store.events.length

structure Observes (maxRows : Nat) (s : ObservedRun) (ledger : Ledger EventRow) : Prop where
  tracks : Tracks maxRows s.run ledger
  solvent : Solvent ledger.rows
  readers : ∀ i, (s.reader i).Agrees ledger.settled
  exact : ∀ answer ∈ s.answers, answer.Exact
  earlier : ∀ answer ∈ s.answers, answer.store.events.length ≤ ledger.rows.length
  ordered : s.answers.Pairwise fun early late => early.version ≤ late.version

section

variable {tenantID : Int32} {uid : Int64} {maxRows : Nat} {s t : ObservedRun}
variable {ledger : Ledger EventRow}

theorem observes_init (maxRows : Nat) :
    Observes maxRows (observed tenantID uid).init Ledger.empty where
  tracks := ⟨Backs.empty maxRows, trivial⟩
  solvent first hfirst := by
    obtain rfl := List.prefix_nil.mp hfirst
    exact ⟨le_rfl, by decide⟩
  readers _ := trivial
  exact _ h := absurd h List.not_mem_nil
  earlier _ h := absurd h List.not_mem_nil
  ordered := List.Pairwise.nil

namespace Observes

theorem setReader (h : Observes maxRows s ledger) {i : Nat} {reader : Reader}
    (hreader : reader.Agrees ledger.settled) : Observes maxRows (s.setReader i reader) ledger :=
  { h with
    readers := fun j => by
      change (Function.update s.reader i reader j).Agrees ledger.settled
      by_cases hj : j = i
      · subst hj
        rwa [Function.update_self]
      · rw [Function.update_of_ne hj]
        exact h.readers j }

/-- A balance that is read is the sum of the log. -/
theorem replay_eq (h : Observes maxRows s ledger) {snapshot : Snapshot}
    (hsnapshot : Agrees ledger.settled snapshot) :
    (replay snapshot.balance (s.run.store.eventsAfter snapshot.lastVersion)).toInt =
      total s.run.store.events ∧ InRange (total s.run.store.events) := by
  rw [(h.tracks.backs.readEvents hsnapshot).1, h.solvent.toInt_replay, h.tracks.backs.events]
  exact ⟨rfl, h.solvent _ List.prefix_rfl⟩

/-- The actor takes a step. -/
theorem act (h : Observes maxRows s ledger) (hmax : maxRows < 2 ^ 63) {action : WalletAction}
    {run : WalletRun} (hfits : Fits maxRows s.run action)
    (hstep : (wallet tenantID uid).step s.run action = some run) :
    ∃ next, Observes maxRows { s with run := run } next := by
  obtain ⟨next, hmove, htracks⟩ := h.tracks.step hmax hfits hstep
  have hledger := hmove.ledger_step
  refine ⟨next, htracks, hmove.solvent h.tracks h.solvent, fun i => ?_, h.exact,
    fun answer ha => ?_, h.ordered⟩
  · have hreader := h.readers i
    cases hi : s.reader i with
    | idle => trivial
    | loaded query snapshot =>
        rw [hi] at hreader
        exact Wallet.Agrees.mono hreader hledger.settled_prefix
    | _ =>
        rw [hi] at hreader
        exact hreader
  · exact (h.earlier answer ha).trans hledger.length_rows_le

/-- A reader gives its answer. -/
theorem answer (h : Observes maxRows s ledger) {snapshot : Snapshot}
    (hsnapshot : Agrees ledger.settled snapshot) :
    let read := readEvents snapshot (s.run.store.eventsAfter snapshot.lastVersion)
    Observes maxRows { s with answers := s.answers ++ [⟨read.1, read.2, s.run.store⟩] } ledger := by
  intro read
  obtain ⟨hbalance, hversion⟩ := h.tracks.backs.readEvents hsnapshot
  obtain ⟨hstored, hlast⟩ := h.tracks.backs.readEvents h.tracks.backs.agrees
  obtain ⟨hsum, hrange⟩ := h.replay_eq hsnapshot
  have hread : read = (replay snapshot.balance _, lastRead snapshot.lastVersion _) :=
    readEvents_eq snapshot _
  have hrows : s.run.store.events.length = ledger.rows.length := by rw [h.tracks.backs.events]
  have hexact : Answer.Exact ⟨read.1, read.2, s.run.store⟩ := by
    rw [hread]
    refine ⟨?_, hsum, hsum ▸ hrange.1, by rw [hversion, hrows]⟩
    -- the snapshot that is stored by now leads to the same balance and version
    rw [computeBalance_eq]
    exact congrArg Except.ok (Prod.ext (hstored.trans hbalance.symm)
      (Int64.toInt.inj (hlast.trans hversion.symm)))
  refine { h with exact := ?_, earlier := ?_, ordered := ?_ }
  · intro answer hanswer
    rcases List.mem_append.mp hanswer with hold | hnew
    · exact h.exact answer hold
    · cases List.mem_singleton.mp hnew
      exact hexact
  · intro answer hanswer
    rcases List.mem_append.mp hanswer with hold | hnew
    · exact h.earlier answer hold
    · cases List.mem_singleton.mp hnew
      exact Nat.le_of_eq hrows
  · refine List.pairwise_append.mpr ⟨h.ordered, List.pairwise_singleton _ _, ?_⟩
    intro early hearly late hlate
    cases List.mem_singleton.mp hlate
    rw [Int64.le_iff_toInt_le, (h.exact early hearly).version, hexact.version, hrows]
    exact_mod_cast h.earlier early hearly

theorem step (h : Observes maxRows s ledger) (hmax : maxRows < 2 ^ 63) {action : ObservedAction}
    (hfits : s.Fits maxRows action) (hstep : (observed tenantID uid).step s action = some t) :
    ∃ next, Observes maxRows t next := by
  cases action with
  | act action =>
      obtain ⟨run, hrun, rfl⟩ := Option.map_eq_some_iff.mp hstep
      exact h.act hmax hfits hrun
  | loadSnapshot i query err =>
      simp only [observed, ObservedRun.loadSnapshotStep] at hstep
      split at hstep
      next => exact ⟨ledger, Option.some.inj hstep ▸ h⟩
      next =>
        cases hstep
        refine ⟨ledger, h.setReader ?_⟩
        rw [WalletStore.getLastD_snapshot]
        exact h.tracks.backs.agrees
      next => cases hstep
  | loadEvents i err =>
      simp only [observed, ObservedRun.loadEventsStep] at hstep
      split at hstep
      next =>
        cases hstep
        exact ⟨ledger, h.setReader trivial⟩
      next _ query snapshot hreader =>
        have hsnapshot := h.readers i
        rw [hreader] at hsnapshot
        cases query with
        | balance =>
            cases hstep
            exact ⟨ledger, (h.answer hsnapshot).setReader trivial⟩
        | audit =>
            obtain ⟨hsum, hrange⟩ := h.replay_eq hsnapshot
            have hnonneg : ¬ replay snapshot.balance
                (s.run.store.eventsAfter snapshot.lastVersion) < 0 := by
              rw [Int64.lt_iff_toInt_lt, hsum]
              exact Int.not_lt.mpr hrange.1
            simp only [if_neg hnonneg] at hstep
            cases hstep
            exact ⟨ledger, h.setReader trivial⟩
      next => cases hstep
  | queryVersion i err =>
      have hreader := h.readers i
      simp only [observed, ObservedRun.queryVersionStep] at hstep
      split at hstep
      next hdeficit => exact (hdeficit ▸ hreader).elim
      next hdeficit => exact (hdeficit ▸ hreader).elim
      next => cases hstep
  | insert i now outcome =>
      have hreader := h.readers i
      simp only [observed, ObservedRun.insertStep] at hstep
      split at hstep
      next hinsert => exact (hinsert ▸ hreader).elim
      next => cases hstep

end Observes

theorem observes_of_reachable (hmax : maxRows < 2 ^ 63)
    (hs : (observed tenantID uid).ReachableIf (ObservedRun.Fits maxRows) s) :
    ∃ ledger, Observes maxRows s ledger := by
  refine hs.invariant (P := fun s => ∃ ledger, Observes maxRows s ledger)
    ⟨Ledger.empty, observes_init maxRows⟩ ?_
  rintro s action t ⟨ledger, h⟩ hfits hstep
  exact h.step hmax hfits hstep

/-- Readers of a wallet in use get exact answers. Whatever the actor has done between the two
queries of a `computeBalance`, the answer is the one that the tables at the second query give:
the sum of all events, which is not negative, and their number. A later answer never shows an
older version than an earlier one. -/
theorem answers_exact (hmax : maxRows < 2 ^ 63)
    (hs : (observed tenantID uid).ReachableIf (ObservedRun.Fits maxRows) s) :
    (∀ answer ∈ s.answers, answer.Exact) ∧
      s.answers.Pairwise fun early late => early.version ≤ late.version := by
  obtain ⟨ledger, h⟩ := observes_of_reachable hmax hs
  exact ⟨h.exact, h.ordered⟩

/-- The steps of the readers are not seen by the wallet. -/
theorem refines_wallet : (observed tenantID uid).Refines (ObservedRun.Fits maxRows)
    (wallet tenantID uid) (Fits maxRows) (fun s => ∃ ledger, Observes maxRows s ledger)
    ObservedRun.run where
  init := rfl
  step s action t hobserves hfits hstep := by
    obtain ⟨ledger, h⟩ := hobserves
    cases action with
    | act action =>
        obtain ⟨run, hrun, rfl⟩ := Option.map_eq_some_iff.mp hstep
        exact .inr ⟨action, hfits, hrun⟩
    | loadSnapshot i query err =>
        simp only [observed, ObservedRun.loadSnapshotStep] at hstep
        split at hstep <;> cases hstep <;> exact .inl rfl
    | loadEvents i err =>
        simp only [observed, ObservedRun.loadEventsStep] at hstep
        split at hstep
        next => cases hstep; exact .inl rfl
        next query _ _ => cases query <;> cases hstep <;> exact .inl rfl
        next => cases hstep
    | queryVersion i err =>
        simp only [observed, ObservedRun.queryVersionStep] at hstep
        split at hstep <;> cases hstep <;> exact .inl rfl
    | insert i now outcome =>
        have hreader := h.readers i
        simp only [observed, ObservedRun.insertStep] at hstep
        split at hstep
        next hinsert => exact (hinsert ▸ hreader).elim
        next => cases hstep

/-- The audit of a wallet in use raises no false alarm: it never finds a negative balance and
never writes a compensation, and the wallet is one that could be reached without it. -/
theorem audit_undisturbing (hmax : maxRows < 2 ^ 63)
    (hs : (observed tenantID uid).ReachableIf (ObservedRun.Fits maxRows) s) :
    (∀ i negativeBalance, s.reader i ≠ .deficit negativeBalance ∧
      ∀ seen, s.reader i ≠ .insert negativeBalance seen) ∧
    (wallet tenantID uid).ReachableIf (Fits maxRows) s.run := by
  obtain ⟨ledger, h⟩ := observes_of_reachable hmax hs
  refine ⟨fun i negativeBalance => ⟨fun hi => ?_, fun seen hi => ?_⟩,
    refines_wallet.reachableIf (fun _ => observes_of_reachable hmax) hs⟩
  · have hreader := h.readers i
    rwa [hi] at hreader
  · have hreader := h.readers i
    rwa [hi] at hreader

end

/-- A query for the balance and an audit begin before the first deposit. -/
def querying : List ObservedAction :=
  [.act (.loadSnapshot none), .act (.loadEvents 0 none), .loadSnapshot 0 .balance none,
    .loadSnapshot 1 .audit none]

/-- They end after it. -/
def queried : List ObservedAction :=
  querying ++ [.act (.handle depositTen 5 .applied)] ++
    [.loadEvents 0 none, .loadEvents 1 none]

theorem reachable_queried : (observed 1 42).ReachableIf (ObservedRun.Fits (2 ^ 31))
    ((observed 1 42).after queried) := by
  refine System.ReachableIf.append (System.ReachableIf.concat (System.reachableIf_after ?_) ?_) ?_
  · simp [querying, ObservedRun.Fits, Fits]
  · exact fun _ _ _ => Or.inr (by decide)
  · simp [ObservedRun.Fits]

theorem answers_exact_queried :
    ((observed 1 42).after queried).answers.map (fun answer => (answer.balance, answer.version)) =
        [(10, 1)] ∧
      ∀ answer ∈ ((observed 1 42).after queried).answers, answer.Exact :=
  ⟨by decide +kernel, (answers_exact (by decide) reachable_queried).1⟩

theorem audit_undisturbing_queried :
    (∀ i negativeBalance, ((observed 1 42).after queried).reader i ≠ .deficit negativeBalance) ∧
      (wallet 1 42).ReachableIf (Fits (2 ^ 31)) ((observed 1 42).after queried).run := by
  obtain ⟨hidle, hrun⟩ := audit_undisturbing (by decide) reachable_queried
  exact ⟨fun i negativeBalance => (hidle i negativeBalance).1, hrun⟩

end ActorCluster.Wallet
