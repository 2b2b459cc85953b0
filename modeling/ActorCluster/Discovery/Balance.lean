import Mathlib.Algebra.Order.Floor.Div
import ActorCluster.Discovery.Table
import ActorCluster.Foundation.Mixing

/-! # How the load is spread

The users of a tenant are hashed to the slots, and the slots are dealt out to the
nodes in turn. Both are even: the hash is a permutation of the 64-bit words whose
low bits are kept, and two nodes own the same number of slots up to one.
-/

namespace ActorCluster.Discovery

open Mixing

/-! ## Users over slots -/

/-- The tenant and the uid as one word. -/
def packKey (tenantID : Int32) (uid : Int64) : UInt64 :=
  (tenantID.toUInt32.toUInt64 <<< 32) ^^^ uid.toUInt64

/-- The SplitMix64 finalizer. -/
def finalize (x : UInt64) : UInt64 :=
  xorShift 33 (xorShift 33 (xorShift 33 x * 0xff51afd7ed558ccd) * 0xc4ceb9fe1a85ec53)

theorem slotOf_eq (tenantID : Int32) (uid : Int64) :
    slotOf tenantID uid = (finalize (packKey tenantID uid)).toNat % partitionSlots := by
  show ((finalize (packKey tenantID uid)) &&& 1023).toNat = _
  rw [UInt64.toNat_and]
  exact Nat.and_two_pow_sub_one_eq_mod _ 10

theorem packKey_bijective (tenantID : Int32) : Function.Bijective (packKey tenantID) := by
  have huid : Function.Bijective Int64.toUInt64 :=
    Function.bijective_iff_has_inverse.mpr ⟨Int64.ofUInt64, fun _ => rfl, fun _ => rfl⟩
  exact (xor_involutive _).bijective.comp huid

theorem finalize_bijective : Function.Bijective finalize := by
  have hshift : Function.Bijective (xorShift 33) :=
    (xorShift_involutive (by decide) (by decide)).bijective
  have hfirst : Function.Bijective fun x : UInt64 => x * 0xff51afd7ed558ccd :=
    @mul_bijective _ 0x4f74430c22a54005 (by decide)
  have hsecond : Function.Bijective fun x : UInt64 => x * 0xc4ceb9fe1a85ec53 :=
    @mul_bijective _ 0x9cb4b2f8129337db (by decide)
  exact hshift.comp (hsecond.comp (hshift.comp (hfirst.comp hshift)))

/-- For every tenant the slot of a uid is the residue of its hash, the hash permutes the
words, and each slot is that of exactly `2 ^ 54` uids. -/
theorem slotOf_even (tenantID : Int32) :
    (∀ uid, slotOf tenantID uid = (finalize (packKey tenantID uid)).toNat % partitionSlots) ∧
      (Function.Bijective fun uid => finalize (packKey tenantID uid)) ∧
      ∀ slot : Fin partitionSlots,
        Nat.card {uid : Int64 // slotOf tenantID uid = slot} = 2 ^ 54 := by
  have hmix : Function.Bijective fun uid => finalize (packKey tenantID uid) :=
    finalize_bijective.comp (packKey_bijective tenantID)
  refine ⟨slotOf_eq tenantID, hmix, fun slot => ?_⟩
  have hfibre : {uid : Int64 // slotOf tenantID uid = slot} ≃
      {x : UInt64 // x.toNat % partitionSlots = slot} :=
    (Equiv.ofBijective _ hmix).subtypeEquiv fun uid => by
      rw [slotOf_eq]
      exact Iff.rfl
  rw [Nat.card_congr hfibre, card_residue slot.isLt (by decide)]
  decide

/-! ## Slots over nodes -/

/-- A node owns the slots whose number has the residue of its place. -/
theorem count_buildRoutingTable {addrs : List String} (hdistinct : addrs.Nodup)
    {i : Nat} {addr : String} (hi : addrs[i]? = some addr) :
    (buildRoutingTable addrs none).count addr =
      partitionSlots / addrs.length + if i < partitionSlots % addrs.length then 1 else 0 := by
  obtain ⟨hlt, rfl⟩ := List.getElem?_eq_some_iff.mp hi
  have hne : addrs ≠ [] := List.ne_nil_of_length_pos (Nat.zero_lt_of_lt hlt)
  have htable : (buildRoutingTable addrs none).toList =
      (List.range partitionSlots).map (moduloSlotOwner addrs) := by
    rw [buildRoutingTable, if_neg (by simpa using hne), Vector.toList_ofFn, List.ofFn_eq_map,
      ← List.map_coe_finRange_eq_range, List.map_map]
    rfl
  -- distinct addresses are told apart by their places
  have hplace : ∀ slot, moduloSlotOwner addrs slot = addrs[i] ↔ slot % addrs.length = i := by
    intro slot
    have hslot := getElem?_moduloSlotOwner hne slot
    obtain ⟨hmod, howner⟩ := List.getElem?_eq_some_iff.mp hslot
    rw [← howner]
    exact hdistinct.getElem_inj_iff
  rw [← count_mod_eq hlt, ← Vector.count_toList, htable, List.count, List.countP_map, Nat.count]
  apply List.countP_congr
  intro slot _
  simp [hplace]

/-- Every node owns the floor or the ceiling of its share of the slots, and every
slot has one of the nodes as its owner, at an index within the list. -/
theorem slots_balanced {addrs : List String} (hne : addrs ≠ []) (hdistinct : addrs.Nodup) :
    (∀ addr ∈ addrs,
        (buildRoutingTable addrs none).count addr = partitionSlots / addrs.length ∨
        (buildRoutingTable addrs none).count addr = partitionSlots ⌈/⌉ addrs.length) ∧
      0 < addrs.length ∧
      ∀ slot : Fin partitionSlots, ∃ h : slot % addrs.length < addrs.length,
        (buildRoutingTable addrs none).get slot = addrs[slot % addrs.length] := by
  have hpos : 0 < addrs.length := List.length_pos_iff.mpr hne
  refine ⟨?_, hpos, ?_⟩
  · intro addr hmem
    obtain ⟨i, hi⟩ := List.getElem?_of_mem hmem
    rw [count_buildRoutingTable hdistinct hi]
    by_cases hextra : i < partitionSlots % addrs.length
    · right
      -- there is a remainder, so the ceiling is one above the floor
      have hsplit := Nat.div_add_mod' partitionSlots addrs.length
      have hmod := Nat.mod_lt partitionSlots hpos
      rw [if_pos hextra, Nat.ceilDiv_eq_add_pred_div]
      apply (Nat.div_eq_of_lt_le _ _).symm
      · rw [Nat.add_one_mul]
        omega
      · rw [Nat.add_one_mul, Nat.add_one_mul]
        omega
    · left
      rw [if_neg hextra, Nat.add_zero]
  · intro slot
    have hslot := getElem?_moduloSlotOwner hne slot
    obtain ⟨hindex, howner⟩ := List.getElem?_eq_some_iff.mp hslot
    exact ⟨hindex, (buildRoutingTable_get hne none slot).trans howner.symm⟩

theorem slots_balanced_threeNodes :
    (∀ addr ∈ ["a:1", "b:1", "c:1"],
        (buildRoutingTable ["a:1", "b:1", "c:1"] none).count addr = 341 ∨
        (buildRoutingTable ["a:1", "b:1", "c:1"] none).count addr = 342) ∧
      (buildRoutingTable ["a:1", "b:1", "c:1"] none).get ⟨1023, by decide⟩ = "a:1" := by
  have hnodes : ["a:1", "b:1", "c:1"].Nodup := by decide
  obtain ⟨hshares, _, howners⟩ := slots_balanced (by simp) hnodes
  refine ⟨fun addr hmem => ?_, ?_⟩
  · exact hshares addr hmem
  · obtain ⟨_, howner⟩ := howners ⟨1023, by decide⟩
    exact howner

end ActorCluster.Discovery
