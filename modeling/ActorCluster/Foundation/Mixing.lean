import Mathlib.Data.Int.CardIntervalMod
import Mathlib.Data.UInt
import Mathlib.SetTheory.Cardinal.Finite

/-! # Mixing 64-bit words

The rounds of a hash finalizer are permutations of the 64-bit words: a shift by at
least half the width, exclusive-ored in, undoes itself, and a multiplication is
undone by the inverse of its factor. A residue of a permuted word is then taken
equally often.
-/

namespace Mixing

/-- `x ^= x >> k` -/
def xorShift (k x : UInt64) : UInt64 := x ^^^ (x >>> k)

theorem xorShift_involutive {k : UInt64} (hhalf : 32 ≤ k.toNat) (hwidth : k.toNat < 64) :
    Function.Involutive (xorShift k) := by
  intro x
  apply UInt64.toNat_inj.mp
  have hx := x.toNat_lt
  -- shifted twice, nothing is left of the word
  have htwice : x.toNat >>> k.toNat >>> k.toNat = 0 := by
    rw [← Nat.shiftRight_add]
    apply Nat.shiftRight_eq_zero
    exact hx.trans_le (Nat.pow_le_pow_right (by decide) (by omega))
  simp only [xorShift, UInt64.toNat_xor, UInt64.toNat_shiftRight, Nat.mod_eq_of_lt hwidth,
    Nat.shiftRight_xor_distrib, htwice, Nat.xor_zero, Nat.xor_assoc, Nat.xor_self]

/-- A factor with an inverse permutes the words. -/
theorem mul_bijective {factor inverse : UInt64} (hinverse : factor * inverse = 1) :
    Function.Bijective fun x : UInt64 => x * factor := by
  have hcancel : ∀ x : UInt64, x * factor * inverse = x := by
    intro x
    rw [UInt64.mul_assoc, hinverse, UInt64.mul_one]
  refine Function.bijective_iff_has_inverse.mpr ⟨fun x => x * inverse, hcancel, ?_⟩
  intro x
  show x * inverse * factor = x
  rw [UInt64.mul_assoc, UInt64.mul_comm inverse, ← UInt64.mul_assoc, hcancel]

/-- Exclusive-oring a fixed word permutes the words. -/
theorem xor_involutive (key : UInt64) : Function.Involutive (key ^^^ ·) := by
  intro x
  show key ^^^ (key ^^^ x) = x
  rw [← UInt64.xor_assoc, UInt64.xor_self, UInt64.zero_xor]

/-- How many of the first numbers have a given residue. -/
theorem count_mod_eq {modulus residue : Nat} (hresidue : residue < modulus) (bound : Nat) :
    Nat.count (fun i => i % modulus = residue) bound =
      bound / modulus + if residue < bound % modulus then 1 else 0 := by
  have hcount := Nat.count_modEq_card bound (Nat.zero_lt_of_lt hresidue) residue
  simpa only [Nat.ModEq, Nat.mod_eq_of_lt hresidue] using hcount

/-- The words whose number has a property are as many as the numbers that have it. -/
theorem card_words (p : Nat → Prop) [DecidablePred p] :
    Nat.card {x : UInt64 // p x.toNat} = Nat.count p (2 ^ 64) := by
  have hnumber : ∀ i : Nat, i < 2 ^ 64 → (UInt64.ofNat i).toNat = i := by
    intro i hi
    rw [UInt64.toNat_ofNat', Nat.mod_eq_of_lt hi]
  let numbers : {x : UInt64 // p x.toNat} ≃ {i : Nat // i < 2 ^ 64 ∧ p i} :=
    { toFun := fun x => ⟨x.1.toNat, x.1.toNat_lt, x.2⟩
      invFun := fun i => ⟨UInt64.ofNat i.1, (hnumber i.1 i.2.1).symm ▸ i.2.2⟩
      left_inv := fun x => Subtype.ext UInt64.ofNat_toNat
      right_inv := fun i => Subtype.ext (hnumber i.1 i.2.1) }
  rw [Nat.card_congr numbers, Nat.count_eq_card_fintype]
  exact @Nat.card_eq_fintype_card _ (Nat.CountSet.fintype p (2 ^ 64))

/-- Every residue is taken equally often, if the modulus divides the number of
words. -/
theorem card_residue {modulus residue : Nat} (hresidue : residue < modulus)
    (hdvd : modulus ∣ 2 ^ 64) :
    Nat.card {x : UInt64 // x.toNat % modulus = residue} = 2 ^ 64 / modulus := by
  rw [card_words fun i => i % modulus = residue, count_mod_eq hresidue,
    Nat.mod_eq_zero_of_dvd hdvd, if_neg (Nat.not_lt_zero _), Nat.add_zero]

end Mixing
