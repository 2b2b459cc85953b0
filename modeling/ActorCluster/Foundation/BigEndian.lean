import Mathlib.Algebra.Group.Nat.Defs
import Mathlib.Data.List.Basic

/-! # Big-endian 64-bit words

The eight-byte encoding of an unsigned word, most significant byte first. The
decoder reads the first eight bytes and ignores the rest, so it inverts the
encoder on every word.
-/

namespace BigEndian

/-- Decode the first eight bytes. -/
def uint64 (bytes : List UInt8) : UInt64 :=
  UInt64.ofNat ((bytes.take 8).foldl (fun acc byte => acc * 256 + byte.toNat) 0)

/-- Encode a word in eight bytes. -/
def putUint64 (word : UInt64) : List UInt8 :=
  [7, 6, 5, 4, 3, 2, 1, 0].map fun place => UInt8.ofNat (word.toNat / 256 ^ place)

@[simp] theorem putUint64_length (word : UInt64) : (putUint64 word).length = 8 := rfl

@[simp] theorem uint64_putUint64 (word : UInt64) : uint64 (putUint64 word) = word := by
  -- each byte extends the leading part of the word by one place
  have hplace (place : Nat) : word.toNat / 256 ^ (place + 1) * 256 +
      word.toNat / 256 ^ place % 2 ^ 8 = word.toNat / 256 ^ place := by
    rw [Nat.pow_succ, ← Nat.div_div_eq_div_mul]
    exact Nat.div_add_mod' _ _
  have htop : word.toNat / 256 ^ 7 % 2 ^ 8 = word.toNat / 256 ^ 7 :=
    Nat.mod_eq_of_lt (Nat.div_lt_of_lt_mul word.toNat_lt)
  apply UInt64.toNat_inj.mp
  simp only [uint64, putUint64, List.map_cons, List.map_nil, List.take_succ_cons, List.take_nil,
    List.foldl_cons, List.foldl_nil, UInt8.toNat_ofNat', UInt64.toNat_ofNat', Nat.zero_mul,
    Nat.zero_add, htop]
  rw [hplace 6, hplace 5, hplace 4, hplace 3, hplace 2, hplace 1, hplace 0, Nat.pow_zero,
    Nat.div_one]
  exact Nat.mod_eq_of_lt word.toNat_lt

end BigEndian
