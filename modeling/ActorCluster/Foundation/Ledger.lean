import Mathlib.Logic.Relation
import Mathlib.Data.List.Infix

/-! # Append-only ledgers with a tentative tail

A writer that cannot tell whether its last write took effect leaves the ledger
with at most one row beyond those it has settled. That row may be overwritten
by the next write or adopted by a later reader; a settled row never changes.
-/

/-- The settled rows in order, and the row that may follow them. -/
structure Ledger (α : Type) where
  settled : List α
  tentative : Option α

namespace Ledger

variable {α : Type}

def empty : Ledger α := ⟨[], none⟩

/-- Everything a reader of the ledger sees. -/
def rows (ledger : Ledger α) : List α := ledger.settled ++ ledger.tentative.toList

/-- Write the next row without learning that the write took effect. -/
def offer (ledger : Ledger α) (row : α) : Ledger α := ⟨ledger.settled, some row⟩

/-- Write the next row and learn that the write took effect. -/
def settle (ledger : Ledger α) (row : α) : Ledger α := ⟨ledger.settled ++ [row], none⟩

/-- Take the visible rows as settled. -/
def adopt (ledger : Ledger α) : Ledger α := ⟨ledger.rows, none⟩

@[simp] theorem rows_offer (ledger : Ledger α) (row : α) :
    (ledger.offer row).rows = ledger.settled ++ [row] := rfl

@[simp] theorem rows_settle (ledger : Ledger α) (row : α) :
    (ledger.settle row).rows = ledger.settled ++ [row] := by
  simp [settle, rows]

@[simp] theorem rows_adopt (ledger : Ledger α) : ledger.adopt.rows = ledger.rows := by
  simp [adopt, rows]

theorem settled_prefix_rows (ledger : Ledger α) : ledger.settled <+: ledger.rows :=
  List.prefix_append _ _

/-- One write or one reading of the ledger. -/
inductive Step : Ledger α → Ledger α → Prop
  | stay (ledger) : Step ledger ledger
  | offer (ledger : Ledger α) (row : α) : Step ledger (ledger.offer row)
  | settle (ledger : Ledger α) (row : α) : Step ledger (ledger.settle row)
  | adopt (ledger : Ledger α) : Step ledger ledger.adopt

/-- Settled rows are never removed, changed or reordered. -/
theorem Step.settled_prefix {before after : Ledger α} (h : Step before after) :
    before.settled <+: after.settled := by
  cases h with
  | stay => exact List.prefix_rfl
  | offer row => exact List.prefix_rfl
  | settle row => exact List.prefix_append _ _
  | adopt => exact settled_prefix_rows _

/-- A reader never sees fewer rows than an earlier one. -/
theorem Step.length_rows_le {before after : Ledger α} (h : Step before after) :
    before.rows.length ≤ after.rows.length := by
  have hrows : before.rows.length ≤ before.settled.length + 1 := by
    rw [rows, List.length_append]
    cases before.tentative <;> simp
  cases h with
  | stay => exact Nat.le_refl _
  | offer row | settle row => simpa using hrows
  | adopt => rw [rows_adopt]

/-- The settled rows of a ledger stay in place along every run. -/
theorem settled_prefix_of_steps {before after : Ledger α}
    (h : Relation.ReflTransGen Step before after) : before.settled <+: after.settled := by
  induction h with
  | refl => exact List.prefix_rfl
  | tail _ hlast ih => exact ih.trans hlast.settled_prefix

end Ledger
