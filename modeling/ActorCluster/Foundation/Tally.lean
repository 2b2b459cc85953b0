import Mathlib.Algebra.BigOperators.Finprod
import Mathlib.Algebra.BigOperators.Group.Finset.Basic
import Mathlib.Algebra.Order.BigOperators.Group.Finset
import Mathlib.Data.Nat.Cast.Order.Ring

/-! # Tallies

The members of a family have weights. The total weight over a finite set of
indices changes with one member exactly as the weight of that member does, and
does not depend on the set as long as the set has every member that weighs something.
A machine word counts such a total as long as it does not wrap. Weights over an
unbounded family that are zero almost everywhere have a total as well; what each
member gains and loses adds up to what the total does.
-/

namespace Tally

variable {ι β : Type*}

/-- The weight of the members at the given indices. -/
def total (weight : β → Nat) (indices : Finset ι) (family : ι → β) : Nat :=
  ∑ i ∈ indices, weight (family i)

variable {weight : β → Nat} {indices : Finset ι} {family : ι → β}

theorem total_le_card_mul {bound : Nat} (h : ∀ i, weight (family i) ≤ bound) :
    total weight indices family ≤ indices.card * bound := by
  have hsum := Finset.sum_le_card_nsmul indices (fun i => weight (family i)) bound fun i _ => h i
  rwa [nsmul_eq_mul, Nat.cast_id] at hsum

/-- Any two sets that have every member of some weight give the same total. -/
theorem total_eq_of_support {others : Finset ι} (h : ∀ i, i ∉ indices → weight (family i) = 0)
    (h' : ∀ i, i ∉ others → weight (family i) = 0) :
    total weight indices family = total weight others family := by
  classical
  have hunion : ∀ i ∈ indices ∪ others, i ∉ indices → weight (family i) = 0 := fun i _ => h i
  have hunion' : ∀ i ∈ indices ∪ others, i ∉ others → weight (family i) = 0 := fun i _ => h' i
  calc total weight indices family
      = total weight (indices ∪ others) family :=
        Finset.sum_subset Finset.subset_union_left hunion
    _ = total weight others family :=
        (Finset.sum_subset Finset.subset_union_right hunion').symm

variable [DecidableEq ι]

/-- The new total has the weight of the new member in place of the old one. -/
theorem total_update (weight : β → Nat) (family : ι → β) {i : ι} (hi : i ∈ indices) (b : β) :
    total weight indices (Function.update family i b) + weight (family i) =
      total weight indices family + weight b := by
  have hold := Finset.add_sum_erase indices (fun j => weight (family j)) hi
  have hnew := Finset.add_sum_erase indices (fun j => weight (Function.update family i b j)) hi
  have hrest : ∑ j ∈ indices.erase i, weight (Function.update family i b j) =
      ∑ j ∈ indices.erase i, weight (family j) := by
    apply Finset.sum_congr rfl
    intro j hj
    rw [Function.update_of_ne (Finset.ne_of_mem_erase hj)]
  rw [Function.update_self, hrest] at hnew
  unfold total
  omega

theorem total_update_le {i : ι} {b : β} (h : weight b ≤ weight (family i)) :
    total weight indices (Function.update family i b) ≤ total weight indices family := by
  apply Finset.sum_le_sum
  intro j _
  by_cases hj : j = i
  · subst hj
    rwa [Function.update_self]
  · rw [Function.update_of_ne hj]

theorem total_update_of_eq {i : ι} {b : β} (h : weight b = weight (family i)) :
    total weight indices (Function.update family i b) = total weight indices family := by
  have hweight : weight ∘ Function.update family i b = weight ∘ family := by
    rw [Function.comp_update, h, ← Function.comp_apply (f := weight), Function.update_eq_self]
  exact congrArg (fun w => ∑ j ∈ indices, w j) hweight

/-- A member is added at the next index. -/
theorem total_range_succ (weight : β → Nat) (family : Nat → β) (count : Nat) (b : β) :
    total weight (Finset.range (count + 1)) (Function.update family count b) =
      total weight (Finset.range count) family + weight b := by
  rw [total, Finset.sum_range_succ, Function.update_self]
  congr 1
  apply Finset.sum_congr rfl
  intro j hj
  rw [Function.update_of_ne (Nat.ne_of_lt (Finset.mem_range.mp hj))]

section Unbounded

open Function

/-- One for the member at the index, if there is one. -/
def mark (i : Option ι) (j : ι) : Nat := if i = some j then 1 else 0

@[simp] theorem mark_some_self (i : ι) : mark (some i) i = 1 := if_pos rfl

theorem mark_some_of_ne {i j : ι} (h : j ≠ i) : mark (some i) j = 0 :=
  if_neg fun hij => h (Option.some.inj hij).symm

theorem finite_support_mark (i : Option ι) : (support (mark i)).Finite := by
  cases i with
  | none => simp [support, mark]
  | some i =>
      apply (Set.finite_singleton i).subset
      intro j hj
      by_contra hne
      exact hj (mark_some_of_ne hne)

theorem finsum_mark (i : Option ι) : ∑ᶠ j, mark i j = i.elim 0 fun _ => 1 := by
  cases i with
  | none => exact finsum_zero
  | some i =>
      rw [finsum_eq_single _ i fun j hj => mark_some_of_ne hj]
      exact mark_some_self i

omit [DecidableEq ι] in
/-- What the members gain and lose, the total gains and loses. -/
theorem finsum_exchange {old new gained lost : ι → Nat} (hold : (support old).Finite)
    (hgained : (support gained).Finite) (h : ∀ i, new i + lost i = old i + gained i) :
    (support new).Finite ∧
      ∑ᶠ i, new i + ∑ᶠ i, lost i = ∑ᶠ i, old i + ∑ᶠ i, gained i := by
  have hsupport {f : ι → Nat} (hf : ∀ i, f i ≤ old i + gained i) : (support f).Finite := by
    apply (hold.union hgained).subset
    intro i hi
    have hle := hf i
    simp only [mem_support, Set.mem_union] at hi ⊢
    omega
  have hnew : (support new).Finite := hsupport fun i => (h i) ▸ Nat.le_add_right _ _
  have hlost : (support lost).Finite := hsupport fun i => (h i) ▸ Nat.le_add_left _ _
  refine ⟨hnew, ?_⟩
  rw [← finsum_add_distrib hnew hlost, ← finsum_add_distrib hold hgained]
  exact finsum_congr h

/-- The new total has the weight of the new member in place of the old one. -/
theorem finsum_update (weight : β → Nat) (hfinite : (support (weight ∘ family)).Finite) (i : ι)
    (b : β) :
    (support (weight ∘ update family i b)).Finite ∧
      ∑ᶠ j, weight (update family i b j) + weight (family i) =
        ∑ᶠ j, weight (family j) + weight b := by
  have hsingle (k : Nat) : ∑ᶠ j, (Pi.single i k : ι → Nat) j = k := by
    rw [finsum_eq_single _ i fun j hj => by simp [hj]]
    simp
  have hexchange : (support (weight ∘ update family i b)).Finite ∧
      ∑ᶠ j, weight (update family i b j) + ∑ᶠ j, (Pi.single i (weight (family i)) : ι → Nat) j =
        ∑ᶠ j, weight (family j) + ∑ᶠ j, (Pi.single i (weight b) : ι → Nat) j := by
    refine finsum_exchange hfinite ((Set.finite_singleton i).subset Pi.support_single_subset) ?_
    intro j
    by_cases hj : j = i
    · subst hj
      simp [Nat.add_comm]
    · simp [hj]
  rwa [hsingle, hsingle] at hexchange

end Unbounded

section Words

theorem toNat_add_ofNat {x : UInt64} {k : Nat} (h : x.toNat + k < UInt64.size) :
    (x + UInt64.ofNat k).toNat = x.toNat + k := by
  rw [UInt64.toNat_add, UInt64.toNat_ofNat', Nat.add_mod_mod]
  exact Nat.mod_eq_of_lt h

theorem toNat_sub_one {x : UInt64} (h : 0 < x.toNat) : (x - 1).toNat = x.toNat - 1 :=
  UInt64.toNat_sub_of_le x 1 h

/-- A word that shows a number still shows it when both gain and lose the same. -/
theorem eq_ofNat_of_exchange {x y : UInt64} {m n gained lost : Nat} (hx : x = UInt64.ofNat m)
    (hword : y + UInt64.ofNat lost = x + UInt64.ofNat gained) (h : n + lost = m + gained) :
    y = UInt64.ofNat n := by
  rw [hx, ← UInt64.ofNat_add, ← h, UInt64.ofNat_add] at hword
  exact (UInt64.add_left_inj _).mp hword

/-- A word that shows a number in range goes down with it, and does not wrap. -/
theorem pos_and_toNat_add_one {x y : UInt64} {m n : Nat} (hx : x = UInt64.ofNat m)
    (hy : y = UInt64.ofNat n) (h : n + 1 = m) (hm : m < UInt64.size) :
    0 < x ∧ y.toNat + 1 = x.toNat := by
  have hxm : x.toNat = m := by
    rw [hx]
    exact UInt64.toNat_ofNat_of_lt hm
  have hyn : y.toNat = n := by
    rw [hy]
    exact UInt64.toNat_ofNat_of_lt (by omega)
  refine ⟨UInt64.lt_iff_toNat_lt.mpr ?_, by omega⟩
  rw [UInt64.toNat_zero]
  omega

end Words

end Tally
