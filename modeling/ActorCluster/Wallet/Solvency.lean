import ActorCluster.Wallet.Lifetime
import Mathlib.Algebra.BigOperators.Group.List.Basic

/-! # Solvency and exact balances

The balance guard inspects the sign of a wrapped 64-bit sum. For a balance in
range this decides exactly whether the integer sum is in range, so no prefix of
the log ever sums to a negative number or to one that a balance cannot hold.
-/

namespace ActorCluster.Wallet

open Remote Transition

/-- The integer sum of the amounts of a list of events. -/
def total (rows : List EventRow) : Int := (rows.map fun row => row.deltaAmount.toInt).sum

@[simp] theorem total_nil : total [] = 0 := rfl

@[simp] theorem total_append (first second : List EventRow) :
    total (first ++ second) = total first + total second := by
  simp [total]

@[simp] theorem total_singleton (row : EventRow) : total [row] = row.deltaAmount.toInt := by
  simp [total]

/-- An amount a wallet can hold. -/
def InRange (amount : Int) : Prop := 0 ≤ amount ∧ amount ≤ 2 ^ 63 - 1

theorem toInt_add_of_inRange {x y : Int64} (h : InRange (x.toInt + y.toInt)) :
    (x + y).toInt = x.toInt + y.toInt := by
  rw [Int64.toInt_add]
  apply Int.bmod_eq_of_le
  · exact le_trans (by decide) h.1
  · exact lt_of_le_of_lt h.2 (by decide)

/-- The sign test on the wrapped sum is exact unless the sum falls below what 64 bits
can hold: a sum that is too large wraps to a negative number and is refused as well. -/
theorem guard_iff_of_le {x y : Int64} (hsum : -2 ^ 63 ≤ x.toInt + y.toInt) :
    0 ≤ x + y ↔ InRange (x.toInt + y.toInt) := by
  have hxmax := x.toInt_lt
  have hymax := y.toInt_lt
  constructor
  · intro h
    rw [Int64.le_iff_toInt_le, Int64.toInt_add, Int64.toInt_zero] at h
    rw [Int.bmod_def] at h
    unfold InRange
    split at h <;> omega
  · intro h
    rw [Int64.le_iff_toInt_le, toInt_add_of_inRange h]
    exact h.1

/-- A sum below what 64 bits can hold wraps to one that is not negative. -/
theorem guard_of_lt {x y : Int64} (hsum : x.toInt + y.toInt < -2 ^ 63) : 0 ≤ x + y := by
  have hxmin := x.le_toInt
  have hymin := y.le_toInt
  rw [Int64.le_iff_toInt_le, Int64.toInt_add, Int64.toInt_zero, Int.bmod_def]
  split <;> omega

/-- The sign test is exact for a balance in range. -/
theorem guard_iff_inRange {x y : Int64} (hx : 0 ≤ x.toInt) :
    0 ≤ x + y ↔ InRange (x.toInt + y.toInt) := by
  have hymin := y.le_toInt
  exact guard_iff_of_le (by omega)

/-- Every prefix of the rows sums to an amount in range. -/
def Solvent (rows : List EventRow) : Prop := ∀ first, first <+: rows → InRange (total first)

theorem Solvent.of_prefix {first rows : List EventRow} (h : Solvent rows)
    (hfirst : first <+: rows) : Solvent first :=
  fun shorter hshorter => h shorter (hshorter.trans hfirst)

theorem solvent_snoc {rows : List EventRow} {row : EventRow} (h : Solvent rows)
    (hrow : InRange (total rows + row.deltaAmount.toInt)) : Solvent (rows ++ [row]) := by
  intro first hfirst
  rcases List.prefix_concat_iff.mp hfirst with rfl | hshorter
  · simpa using hrow
  · exact h first hshorter

/-- The wrapped replay of solvent rows is their integer sum. -/
theorem Solvent.toInt_replay {rows : List EventRow} (h : Solvent rows) :
    (replay 0 rows).toInt = total rows := by
  induction rows using List.reverseRecOn with
  | nil => simp
  | append_singleton rows row ih =>
      have hrows := ih (h.of_prefix (List.prefix_append _ _))
      have hsum : InRange ((replay 0 rows).toInt + row.deltaAmount.toInt) := by
        rw [hrows]
        simpa using h _ List.prefix_rfl
      rw [replay_append, replay_singleton, toInt_add_of_inRange hsum, hrows]
      simp

/-- The row written for an admitted envelope keeps the settled rows solvent. -/
theorem HoldsLedger.solvent_eventRow {b : BusinessActor} {ledger : Ledger EventRow}
    (hb : HoldsLedger b ledger) (h : Solvent ledger.settled) {env : RemoteEnvelope}
    (hadmits : b.Admits env) (now : Int) : Solvent (ledger.settled ++ [b.eventRow env now]) := by
  have hbalance : b.balance.toInt = total ledger.settled := by
    rw [hb.balance]
    exact h.toInt_replay
  have hpos : 0 ≤ b.balance.toInt := by
    rw [hbalance]
    exact (h _ List.prefix_rfl).1
  refine solvent_snoc h ?_
  rw [← hbalance]
  exact (guard_iff_inRange hpos).mp hadmits.2.2

/-- Every ledger move keeps the visible rows solvent. -/
theorem LedgerMove.solvent {maxRows : Nat} {s : WalletRun} {action : WalletAction}
    {ledger next : Ledger EventRow} (hmove : LedgerMove s action ledger next)
    (htracks : Tracks maxRows s ledger) (h : Solvent ledger.rows) : Solvent next.rows := by
  cases hmove with
  | land | stop | loadSnapshot | giveUp => exact h
  | adopt => rwa [Ledger.rows_adopt]
  | handle b hphase hhandle =>
      have hb : HoldsLedger b ledger := by simpa [hphase, Phase.Tracks] using htracks.phase
      have hsettled := h.of_prefix ledger.settled_prefix_rows
      cases hhandle with
      | unwritten => exact h
      | tentative hadmits =>
          rw [Ledger.rows_offer]
          exact hb.solvent_eventRow hsettled hadmits _
      | settled hadmits =>
          rw [Ledger.rows_settle]
          exact hb.solvent_eventRow hsettled hadmits _

section

variable {tenantID : Int32} {uid : Int64} {maxRows : Nat} {s : WalletRun}

theorem solvent_of_reachable (hmax : maxRows < 2 ^ 63)
    (hs : (wallet tenantID uid).ReachableIf (Fits maxRows) s) :
    ∃ ledger, Tracks maxRows s ledger ∧ Solvent ledger.rows := by
  refine tracks_invariant hmax (P := fun _ ledger => Solvent ledger.rows) ?_ ?_ hs
  · intro first hfirst
    obtain rfl := List.prefix_nil.mp hfirst
    exact ⟨le_rfl, by decide⟩
  · intro s ledger action t next htracks hsolvent hmove _ _
    exact hmove.solvent htracks hsolvent

/-- Every prefix of the stored log sums to an amount in range, and the balance
decoded from an acknowledgement is the integer sum of the log up to and
including the acknowledged event. -/
theorem wallet_solvent (hmax : maxRows < 2 ^ 63)
    (hs : (wallet tenantID uid).ReachableIf (Fits maxRows) s) :
    (∀ first, first <+: s.store.events → 0 ≤ total first ∧ total first ≤ 2 ^ 63 - 1) ∧
    ∀ b env now outcome, s.phase = .live b → Fits maxRows s (.handle env now outcome) →
      let h := b.handle s.store env now outcome
      h.result.success = true → h.result.payload ≠ [] →
        h.store.eventAt h.actor.version = some (b.eventRow env now) ∧
        (BigEndian.uint64 h.result.payload).toInt64.toInt =
          total (h.store.events.filter fun row => row.version ≤ h.actor.version) := by
  obtain ⟨ledger, htracks, hsolvent⟩ := solvent_of_reachable hmax hs
  refine ⟨fun first hfirst => hsolvent first (htracks.backs.events ▸ hfirst), ?_⟩
  intro b env now outcome hphase hfits h hsuccess hpayload
  obtain ⟨hadmits, rfl⟩ :=
    (BusinessActor.handle_acknowledges_iff s.store now outcome).mp ⟨hsuccess, hpayload⟩
  obtain ⟨hstore, hcommitted⟩ := BusinessActor.handle_of_applied s.store now hadmits
  have hb : HoldsLedger b ledger := by simpa [hphase, Phase.Tracks] using htracks.phase
  have hrows := hb.solvent_eventRow (hsolvent.of_prefix ledger.settled_prefix_rows) hadmits now
  obtain ⟨hkey, _⟩ := htracks.backs.next_version hmax hb (hfits b hphase rfl)
  have hevents : h.store.events = ledger.settled ++ [b.eventRow env now] := by
    rw [hstore]
    exact htracks.backs.events_upsertEvent hkey
  refine ⟨?_, ?_⟩
  · rw [WalletStore.eventAt_eq_some_iff, hevents, hcommitted.version]
    exact ⟨List.mem_append_right _ List.mem_cons_self, rfl⟩
  · -- the acknowledged event is the newest one, so the whole log is summed
    have hall : h.store.events.filter (fun row => row.version ≤ h.actor.version) =
        ledger.settled ++ [b.eventRow env now] := by
      rw [hevents, hcommitted.version]
      apply List.filter_eq_self.mpr
      intro row hrow
      have hnumbered := htracks.backs.numbered_write (show (b.eventRow env now).key = _ from hkey)
      have hbound := (hnumbered.key_bounds hrow).2
      rw [decide_eq_true_eq, Int64.le_iff_toInt_le, hkey]
      change row.key ≤ _
      simpa using hbound
    rw [hall, hcommitted.payload, BusinessActor.encodeBalance, BigEndian.uint64_putUint64,
      Int64.toInt64_toUInt64, ← hrows.toInt_replay, hcommitted.balance, hb.balance]
    simp [BusinessActor.eventRow]

theorem wallet_solvent_firstDeposit :
    firstDeposit.result.success = true ∧ firstDeposit.result.payload ≠ [] ∧
      (BigEndian.uint64 firstDeposit.result.payload).toInt64.toInt =
        total (firstDeposit.store.events.filter fun row => row.version ≤ 1) ∧
      total (firstDeposit.store.events.filter fun row => row.version ≤ 1) = 10 := by
  have hack : firstDeposit.result.success = true ∧ firstDeposit.result.payload ≠ [] := by decide
  have hexact := (wallet_solvent (by decide) (reachable_first_live 1 42 (2 ^ 31) 0)).2 _
    depositTen 5 .applied rfl firstDeposit_fits hack.1 hack.2
  exact ⟨hack.1, hack.2, hexact.2, by decide⟩

end

end ActorCluster.Wallet
