import ActorCluster.Wallet.Readers
import ActorCluster.Wallet.Solvency

/-! # Overdrawn wallets

Overlapping owners can leave a log whose sum is negative. The actor of such a wallet
still decides by the sign of a wrapped sum, which is no longer exact once the sum
falls below what 64 bits can hold. The reconciliation repairs the wallet with one
event that brings its balance back to zero.
-/

namespace ActorCluster.Wallet

open Remote

/-! ## The balance guard -/

namespace BusinessActor

section

variable {b : BusinessActor} {env : RemoteEnvelope}
variable (store : WalletStore) (now : Int) (outcome : WriteOutcome)

/-- What the guard answers when it refuses an amount. -/
def refusal (b : BusinessActor) (env : RemoteEnvelope) : RemoteResult :=
  { b.baseResult env with
    errorCode := some .insufficientFunds
    errorMsg := "balance cannot be negative" }

theorem handle_of_guarded (hfresh : env.txId ∉ b.txCache) (hlength : 8 ≤ env.payload.length)
    (hfunds : b.balance + decodeAmount env.payload < 0) :
    b.handle store env now outcome =
      ⟨{ b with lastActive := now }, store, b.refusal env, none⟩ := by
  unfold handle
  dsimp only
  rw [if_neg hfresh, if_neg (Nat.not_lt.mpr hlength), if_pos hfunds]
  rfl

theorem handle_store_of_admits (h : b.Admits env) :
    (b.handle store env now outcome).store =
      (store.executeBatch (b.eventRow env now) outcome).1 := by
  cases herr : outcome.err with
  | none =>
      cases outcome <;> first | exact (handle_of_applied store now h).1 | cases herr
  | some msg =>
      obtain ⟨_, _, _, heq⟩ := handle_of_err store now outcome h herr
      rw [heq]
      rfl

/-- An admitted envelope is answered in another way, whatever becomes of its write. -/
theorem handle_ne_refusal (h : b.Admits env) :
    (b.handle store env now outcome).result ≠ b.refusal env := by
  unfold handle
  dsimp only
  rw [if_neg h.1, if_neg (Nat.not_lt.mpr h.2.1), if_neg (Int64.not_lt.mpr h.2.2)]
  intro heq
  have hcode := congrArg RemoteResult.errorCode heq
  cases herr : outcome.err with
  | none =>
      simp only [WalletStore.executeBatch, herr, Option.map_none] at hcode
      split at hcode <;> cases hcode
  | some msg =>
      simp only [WalletStore.executeBatch, herr, Option.map_some] at hcode
      cases hcode

end

end BusinessActor

/-- The integer sum of the balance that a rehydration reads and the amount of an
envelope. -/
def exactSum (store : WalletStore) (env : RemoteEnvelope) : Int :=
  (replay (store.snapshot.getD ⟨0, 0⟩).balance store.afterSnapshot).toInt +
    (BusinessActor.decodeAmount env.payload).toInt

/-- The guard is exact just as long as the sum of the balance and the amount does not
fall below what 64 bits can hold: then an event is written exactly if the sum is in
range, and otherwise the envelope is refused and nothing but the activity clock moves.
A sum below that is out of range and not refused. -/
theorem guard_exact {tenantID : Int32} {uid : Int64} {start : Int} {store : WalletStore}
    {b : BusinessActor} (hload : (newBusinessActor tenantID uid start).rehydrate store = (b, none))
    {env : RemoteEnvelope} (hlength : 8 ≤ env.payload.length) (hfresh : env.txId ∉ b.txCache)
    (now : Int) (outcome : WriteOutcome) :
    ((InRange (exactSum store env) →
        (b.handle store env now outcome).store =
          (store.executeBatch (b.eventRow env now) outcome).1) ∧
      (¬ InRange (exactSum store env) →
        b.handle store env now outcome =
          ⟨{ b with lastActive := now }, store, b.refusal env, none⟩)) ↔
    -2 ^ 63 ≤ exactSum store env := by
  have hread : exactSum store env =
      b.balance.toInt + (BusinessActor.decodeAmount env.payload).toInt := by
    rw [(rehydrate_reads hload).1, exactSum]
  rw [hread]
  constructor
  · rintro ⟨_, hrefused⟩
    by_contra hlow
    have hadmits : b.Admits env := ⟨hfresh, hlength, guard_of_lt (Int.not_le.mp hlow)⟩
    have hout : ¬ InRange
        (b.balance.toInt + (BusinessActor.decodeAmount env.payload).toInt) :=
      fun hrange => hlow (Int.le_trans (by decide) hrange.1)
    exact BusinessActor.handle_ne_refusal store now outcome hadmits
      (congrArg BusinessActor.Handled.result (hrefused hout))
  · intro hlow
    have hguard := guard_iff_of_le hlow
    refine ⟨fun hrange => ?_, fun hrange => ?_⟩
    · exact BusinessActor.handle_store_of_admits store now outcome
        ⟨hfresh, hlength, hguard.mpr hrange⟩
    · exact BusinessActor.handle_of_guarded store now outcome hfresh hlength
        (Int64.not_le.mp (mt hguard.mp hrange))

/-- The wallet with a deposit of 100 and a withdrawal of 130. -/
def overdrawn : WalletStore :=
  (WalletStore.empty.upsertEvent ⟨1, 5, "W", 100, []⟩).upsertEvent ⟨2, 6, "X", -130, []⟩

/-- Its actor, as it is rehydrated. -/
def overdrawnActor : BusinessActor := ((newBusinessActor 1 42 9).rehydrate overdrawn).1

theorem rehydrate_overdrawn :
    (newBusinessActor 1 42 9).rehydrate overdrawn = (overdrawnActor, none) :=
  Prod.ext rfl (show ((newBusinessActor 1 42 9).rehydrate overdrawn).2 = none by decide +kernel)

/-- A deposit that does not make up for the overdraft is refused. -/
theorem guard_exact_overdrawn :
    exactSum overdrawn (transfer "Y" 10) = -20 ∧
      overdrawnActor.handle overdrawn (transfer "Y" 10) 10 .applied =
        ⟨{ overdrawnActor with lastActive := 10 }, overdrawn,
          overdrawnActor.refusal (transfer "Y" 10), none⟩ := by
  have hsum : exactSum overdrawn (transfer "Y" 10) = -20 := by decide +kernel
  have hrange : ¬ InRange (exactSum overdrawn (transfer "Y" 10)) := by
    rw [hsum]
    exact fun h => absurd h.1 (by decide)
  exact ⟨hsum, ((guard_exact rehydrate_overdrawn (by decide) (by decide +kernel) 10
    .applied).mpr (by rw [hsum]; decide)).2 hrange⟩

/-- From a balance of -30, a withdrawal of `2 ^ 63` wraps to a large positive balance
and is written. -/
theorem guard_misses_underflow :
    (newBusinessActor 1 42 9).rehydrate overdrawn = (overdrawnActor, none) ∧
      (transfer "Y" (-2 ^ 63)).payload.length = 8 ∧
      "Y" ∉ overdrawnActor.txCache ∧
      exactSum overdrawn (transfer "Y" (-2 ^ 63)) = -30 - 2 ^ 63 ∧
      (overdrawnActor.handle overdrawn (transfer "Y" (-2 ^ 63)) 10 .applied).result.success = true ∧
      (overdrawnActor.handle overdrawn (transfer "Y" (-2 ^ 63)) 10 .applied).store.events.length =
        3 ∧
      (overdrawnActor.handle overdrawn (transfer "Y" (-2 ^ 63)) 10 .applied).actor.balance.toInt =
        2 ^ 63 - 30 :=
  ⟨rehydrate_overdrawn, by decide, by decide +kernel, by decide +kernel, by decide +kernel,
    by decide +kernel, by decide +kernel⟩

/-! ## Compensation -/

/-- `SELECT version FROM wallet_events ... ORDER BY version DESC LIMIT 1`, or zero when
there is no row. -/
def WalletStore.maxVersion (store : WalletStore) : Int64 :=
  (store.events.getLast?.map EventRow.version).getD 0

/-- The event that makes up for a negative balance. -/
def compensatingRow (store : WalletStore) (tenantID : Int32) (uid negativeBalance : Int64)
    (now : Int) : EventRow where
  version := store.maxVersion + 1
  createdAt := now
  txID := "reconciliation-" ++ toString tenantID ++ "-" ++ toString uid ++ "-" ++ toString now
  deltaAmount := -negativeBalance
  payload := "reconciliation-compensating-tx".toUTF8.toList

/-- `issueCompensatingTransaction`, given the error that its query reports and what
becomes of its statement. -/
def issueCompensatingTransaction (store : WalletStore) (tenantID : Int32)
    (uid negativeBalance : Int64) (queryErr : Option String) (now : Int)
    (outcome : WriteOutcome) : WalletStore × Option String :=
  if 0 ≤ negativeBalance then (store, none)
  else
    match queryErr with
    | some msg =>
        (store, some ("issueCompensatingTransaction: failed to get max version: " ++
          "persistence: Query failed: " ++ msg))
    | none => store.executeBatch (compensatingRow store tenantID uid negativeBalance now) outcome

/-- What one turn of the reconciliation loop leaves behind, and what it counts. -/
structure Reconciled where
  store : WalletStore
  success : Bool
  discrepancy : Bool

/-- The body of the loop of `RunDailyReconciliation` for one wallet. -/
def reconcile (store : WalletStore) (tenantID : Int32) (uid : Int64)
    (snapshotErr eventsErr queryErr : Option String) (now : Int) (outcome : WriteOutcome) :
    Reconciled :=
  match computeTrueBalance store snapshotErr eventsErr with
  | .error _ => ⟨store, false, false⟩
  | .ok balance =>
      if balance < 0 then
        match issueCompensatingTransaction store tenantID uid balance queryErr now outcome with
        | (store, some _) => ⟨store, false, true⟩
        | (store, none) => ⟨store, true, true⟩
      else ⟨store, true, false⟩

/-- The stored versions are `1` to `n`. -/
def WalletStore.Occupies (store : WalletStore) (n : Nat) : Prop :=
  ∀ version : Int, (∃ row ∈ store.events, row.version.toInt = version) ↔
    1 ≤ version ∧ version ≤ n

section

variable {store : WalletStore} {n : Nat}

theorem WalletStore.Occupies.contiguous (h : store.Occupies n) :
    Partition.Contiguous EventRow.key 0 store.events ∧ store.events.length = n := by
  apply Partition.contiguous_of_keys store.ordered
  · intro row hrow
    exact ((h row.version.toInt).mp ⟨row, hrow, rfl⟩).1
  · intro version hpositive
    rw [Int.zero_add]
    exact (h version).trans (and_iff_right hpositive)

theorem WalletStore.Occupies.toInt_maxVersion (h : store.Occupies n) :
    store.maxVersion.toInt = n := by
  obtain ⟨hcontiguous, rfl⟩ := h.contiguous
  have hlast : store.maxVersion = lastRead 0 store.events := by
    unfold maxVersion lastRead
    induction store.events using List.reverseRecOn with
    | nil => rfl
    | append_singleton rows row _ => simp
  have hread : (lastRead 0 store.events).toInt = (0 : Int64).toInt + store.events.length :=
    toInt_lastRead hcontiguous
  rw [hlast, hread, Int64.toInt_zero, Int.zero_add]

/-- A snapshot within the log leaves an unbroken rest. -/
theorem WalletStore.Occupies.unbroken (h : store.Occupies n)
    (hlow : 0 ≤ (store.snapshot.getD ⟨0, 0⟩).lastVersion.toInt)
    (hhigh : (store.snapshot.getD ⟨0, 0⟩).lastVersion.toInt ≤ n) :
    store.Unbroken (n - (store.snapshot.getD ⟨0, 0⟩).lastVersion.toInt).toNat := by
  intro version hlater
  rw [h version]
  omega

theorem WalletStore.Occupies.newest (h : store.Occupies n) {row : EventRow}
    (hrow : row ∈ store.events) : row.version.toInt ≤ store.maxVersion.toInt := by
  rw [h.toInt_maxVersion]
  exact ((h row.version.toInt).mp ⟨row, hrow, rfl⟩).2

/-- An event at the next version extends the log. -/
theorem WalletStore.Occupies.upsertEvent (h : store.Occupies n) {row : EventRow}
    (hnext : row.version.toInt = store.maxVersion.toInt + 1) :
    (store.upsertEvent row).events = store.events ++ [row] ∧
      (store.upsertEvent row).Occupies (n + 1) := by
  have hevents := events_upsertEvent_of_newest (fun _ => h.newest) hnext
  refine ⟨hevents, ?_⟩
  intro version
  have hold := h version
  have hmax := h.toInt_maxVersion
  simp only [hevents, List.mem_append, List.mem_singleton, or_and_right, exists_or, hold,
    exists_eq_left]
  omega

end

/-- A successful call for a negative balance has stored its event. -/
theorem issueCompensatingTransaction_eq_none {store store' : WalletStore} {tenantID : Int32}
    {uid balance : Int64} {queryErr : Option String} {now : Int} {outcome : WriteOutcome}
    (hnegative : balance < 0)
    (h : issueCompensatingTransaction store tenantID uid balance queryErr now outcome =
      (store', none)) :
    store' = store.upsertEvent (compensatingRow store tenantID uid balance now) := by
  unfold issueCompensatingTransaction at h
  rw [if_neg (Int64.not_le.mpr hnegative)] at h
  cases queryErr with
  | some msg => cases h
  | none =>
      cases outcome with
      | applied => exact (congrArg Prod.fst h).symm
      | failed msg => cases h
      | failedApplied msg => cases h

/-- A wallet whose audited balance is not negative is left alone. -/
theorem reconcile_store_of_nonneg {store : WalletStore} {balance : Int64}
    (hbalance : computeTrueBalance store none none = .ok balance) (hnonneg : 0 ≤ balance)
    (tenantID : Int32) (uid : Int64) (snapshotErr eventsErr queryErr : Option String) (now : Int)
    (outcome : WriteOutcome) :
    (reconcile store tenantID uid snapshotErr eventsErr queryErr now outcome).store = store := by
  cases snapshotErr with
  | some msg => rfl
  | none =>
      cases eventsErr with
      | some msg => rfl
      | none =>
          unfold reconcile
          rw [hbalance]
          dsimp only
          rw [if_neg (Int64.not_lt.mpr hnonneg)]

/-- One compensating event brings a wallet with a negative balance back to zero, for
its actor and for the audit, and a second pass has nothing to do. -/
theorem compensation_repairs {store store' : WalletStore} {n : Nat} (hlog : store.Occupies n)
    (hnext : n + 1 < 2 ^ 63)
    (hlow : 0 ≤ (store.snapshot.getD ⟨0, 0⟩).lastVersion.toInt)
    (hhigh : (store.snapshot.getD ⟨0, 0⟩).lastVersion.toInt ≤ n)
    {balance : Int64} (hbalance : computeTrueBalance store none none = .ok balance)
    (hnegative : balance < 0) {tenantID : Int32} {uid : Int64} {queryErr : Option String}
    {now : Int} {outcome : WriteOutcome}
    (hissue : issueCompensatingTransaction store tenantID uid balance queryErr now outcome =
      (store', none)) :
    (∃ row, store'.events = store.events ++ [row] ∧ store'.snapshot = store.snapshot) ∧
    (∀ b : BusinessActor, ∃ recovered, b.rehydrate store' = (recovered, none) ∧
      recovered.balance = 0 ∧ recovered.version.toInt = n + 1) ∧
    computeTrueBalance store' none none = .ok 0 ∧
    ∀ snapshotErr eventsErr queryErr now outcome,
      (reconcile store' tenantID uid snapshotErr eventsErr queryErr now outcome).store =
        store' := by
  obtain rfl := issueCompensatingTransaction_eq_none hnegative hissue
  have hmax := hlog.toInt_maxVersion
  have hversion : (compensatingRow store tenantID uid balance now).version.toInt =
      store.maxVersion.toInt + 1 := by
    change (store.maxVersion + 1).toInt = _
    rw [toInt_add_one hmax hnext, hmax]
    rfl
  obtain ⟨hevents, hlog'⟩ := hlog.upsertEvent hversion
  -- the deficit cancels the balance, also where its negation wraps
  have haudit : computeTrueBalance (store.upsertEvent
      (compensatingRow store tenantID uid balance now)) none none = .ok 0 := by
    rw [computeTrueBalance_eq] at hbalance
    have hyields : Yields store store.maxVersion balance (store.snapshot.getD ⟨0, 0⟩) :=
      ⟨by rw [hmax]; exact hhigh, Except.ok.inj hbalance⟩
    have hzero := (hyields.upsertEvent (fun _ => hlog.newest) hversion).2
    rw [show balance + (compensatingRow store tenantID uid balance now).deltaAmount = 0 from
      Int64.add_right_neg balance] at hzero
    rw [computeTrueBalance_eq]
    exact congrArg Except.ok hzero
  refine ⟨⟨_, hevents, rfl⟩, ?_, haudit, ?_⟩
  · intro b
    have hunbroken := hlog'.unbroken hlow (by simpa using by omega)
    obtain ⟨recovered, hrecovered, hlast, hread, _⟩ :=
      BusinessActor.rehydrate_of_unbroken hunbroken b
    rw [haudit] at hread
    refine ⟨recovered, hrecovered, (Except.ok.inj hread).symm, ?_⟩
    rw [hlast, WalletStore.upsertEvent_snapshot]
    omega
  · exact reconcile_store_of_nonneg haudit (by decide) tenantID uid

theorem occupies_overdrawn : overdrawn.Occupies 2 := by
  intro version
  have hevents : overdrawn.events = [⟨1, 5, "W", 100, []⟩, ⟨2, 6, "X", -130, []⟩] := rfl
  simp only [hevents, List.exists_mem_cons_iff, List.not_mem_nil, false_and, exists_false,
    or_false]
  have hone : (1 : Int64).toInt = 1 := rfl
  have htwo : (2 : Int64).toInt = 2 := rfl
  omega

theorem compensation_repairs_overdrawn :
    computeTrueBalance overdrawn none none = .ok (-30) ∧
      (issueCompensatingTransaction overdrawn 1 42 (-30) none 10 .applied).1.events.length = 3 ∧
      computeTrueBalance
        (issueCompensatingTransaction overdrawn 1 42 (-30) none 10 .applied).1 none none = .ok 0 ∧
      ∀ b : BusinessActor, ∃ recovered,
        b.rehydrate (issueCompensatingTransaction overdrawn 1 42 (-30) none 10 .applied).1 =
          (recovered, none) ∧ recovered.balance = 0 ∧ recovered.version.toInt = 3 := by
  have hbalance : computeTrueBalance overdrawn none none = .ok (-30) := rfl
  obtain ⟨⟨row, hevents, _⟩, hactor, haudit, _⟩ :=
    compensation_repairs occupies_overdrawn (by decide) (by decide) (by decide) hbalance
      (by decide) (show issueCompensatingTransaction overdrawn 1 42 (-30) none 10 .applied =
        ((issueCompensatingTransaction overdrawn 1 42 (-30) none 10 .applied).1, none) from rfl)
  exact ⟨hbalance, by rw [hevents]; rfl, haudit, hactor⟩

end ActorCluster.Wallet
