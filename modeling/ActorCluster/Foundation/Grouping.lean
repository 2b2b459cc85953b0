import Mathlib.Data.List.Perm.Basic
import Mathlib.Data.List.Dedup

/-! # Grouping and cutting lists

A list that is grouped by a key keeps its elements, whatever the order in which
the groups are visited; a list that is cut into slices keeps them in order.
-/

namespace Grouping

open scoped List

variable {α κ : Type} [DecidableEq κ]

/-- Visiting every group once visits every element once. -/
theorem flatMap_filter_perm (key : α → κ) {order : List κ} (hnodup : order.Nodup)
    {l : List α} (hcover : ∀ x ∈ l, key x ∈ order) :
    (order.flatMap fun k => l.filter fun x => key x = k) ~ l := by
  induction order generalizing l with
  | nil =>
      have hnil : l = [] :=
        List.eq_nil_iff_forall_not_mem.mpr fun x hx => by simpa using hcover x hx
      rw [hnil]
      exact .refl _
  | cons k order ih =>
      rw [List.nodup_cons] at hnodup
      -- the other groups are those of the elements outside the first group
      have hrest : (order.flatMap fun k' => l.filter fun x => key x = k') =
          order.flatMap fun k' => (l.filter fun x => key x ≠ k).filter fun x => key x = k' := by
        apply List.flatMap_congr
        intro k' hk'
        rw [List.filter_filter]
        apply List.filter_congr
        intro x _
        have hne : k' ≠ k := fun heq => hnodup.1 (heq ▸ hk')
        by_cases hx : key x = k' <;> simp [hx, hne]
      have hcover' : ∀ x ∈ l.filter fun x => key x ≠ k, key x ∈ order := by
        intro x hx
        rw [List.mem_filter, decide_eq_true_iff] at hx
        exact (List.mem_cons.mp (hcover x hx.1)).resolve_left hx.2
      rw [List.flatMap_cons, hrest]
      refine ((ih hnodup.2 hcover').append_left _).trans ?_
      simpa using List.filter_append_perm (fun x => decide (key x = k)) l

/-- One group is what the visit of all groups has for its key. -/
theorem filter_flatMap_filter (key : α → κ) {order : List κ} (hnodup : order.Nodup)
    {l : List α} (hcover : ∀ x ∈ l, key x ∈ order) (k : κ) :
    (order.flatMap fun k' => l.filter fun x => key x = k').filter (fun x => key x = k) =
      l.filter fun x => key x = k := by
  -- a visited group is kept as a whole or not at all
  have hgroup : ∀ k', (l.filter fun x => key x = k').filter (fun x => key x = k) =
      if k' = k then l.filter fun x => key x = k else [] := by
    intro k'
    rw [List.filter_filter]
    by_cases hk : k' = k
    · rw [if_pos hk, hk]
      simp
    · rw [if_neg hk, List.filter_eq_nil_iff]
      rintro x _ hx
      simp only [Bool.and_eq_true, decide_eq_true_eq] at hx
      exact hk (hx.2.symm.trans hx.1)
  have hmem : k ∈ order ∨ l.filter (fun x => key x = k) = [] := by
    by_cases hk : k ∈ order
    · exact Or.inl hk
    · refine Or.inr (List.filter_eq_nil_iff.mpr fun x hx heq => hk ?_)
      exact of_decide_eq_true heq ▸ hcover x hx
  rw [List.filter_flatMap]
  simp only [hgroup]
  clear hcover hgroup
  induction order with
  | nil => exact (hmem.resolve_left List.not_mem_nil).symm
  | cons k' order ih =>
      rw [List.nodup_cons] at hnodup
      rw [List.flatMap_cons]
      by_cases hk : k' = k
      · have hrest : (order.flatMap fun k' =>
            if k' = k then l.filter fun x => key x = k else []) = [] := by
          rw [List.flatMap_eq_nil_iff]
          intro k'' hk''
          have hne : k'' ≠ k := by
            rintro rfl
            exact hnodup.1 (hk ▸ hk'')
          exact if_neg hne
        rw [if_pos hk, hrest, List.append_nil]
      · rw [if_neg hk, List.nil_append]
        refine ih hnodup.2 (hmem.imp_left fun h => ?_)
        exact (List.mem_cons.mp h).resolve_left (Ne.symm hk)

theorem flatMap_slices (size count : Nat) (l : List α) :
    ((List.range count).flatMap fun j => (l.drop (j * size)).take size) =
      l.take (count * size) := by
  induction count with
  | zero => simp
  | succ count ih =>
      rw [List.range_succ, List.flatMap_append, ih, Nat.succ_mul, List.take_add]
      simp

/-- Enough slices hold the whole list. -/
theorem flatMap_slices_eq {size : Nat} (hsize : 0 < size) (l : List α) :
    ((List.range ((l.length + (size - 1)) / size)).flatMap fun j =>
      (l.drop (j * size)).take size) = l := by
  rw [flatMap_slices]
  apply List.take_of_length_le
  have hdiv := Nat.div_add_mod (l.length + (size - 1)) size
  have hmod := Nat.mod_lt (l.length + (size - 1)) hsize
  rw [Nat.mul_comm] at hdiv
  omega

end Grouping
