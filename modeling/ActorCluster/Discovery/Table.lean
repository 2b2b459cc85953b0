import Mathlib.Data.List.GetD

/-! # The routing table

A wallet hashes to one of 1024 slots, and a prebuilt table names the node of each
slot. The table is expanded from the sorted addresses of the nodes, so that every
process that knows the same nodes builds the same table.
-/

namespace ActorCluster.Discovery

def partitionSlots : Nat := 1024

/-- The address of each slot. -/
abbrev Table := Vector String partitionSlots

/-- The SplitMix64 finalizer of the tenant and the uid, cut to ten bits. -/
def slotOf (tenantID : Int32) (uid : Int64) : Nat :=
  let x := (tenantID.toUInt32.toUInt64 <<< 32) ^^^ uid.toUInt64
  let x := x ^^^ (x >>> 33)
  let x := x * 0xff51afd7ed558ccd
  let x := x ^^^ (x >>> 33)
  let x := x * 0xc4ceb9fe1a85ec53
  let x := x ^^^ (x >>> 33)
  (x &&& 1023).toNat

theorem slotOf_lt (tenantID : Int32) (uid : Int64) : slotOf tenantID uid < partitionSlots := by
  refine Nat.lt_succ_of_le ?_
  rw [slotOf, UInt64.toNat_and]
  exact Nat.and_le_right

/-- Which of the sorted addresses a slot belongs to. -/
abbrev SlotOwnerFunc := List String → Nat → String

def moduloSlotOwner : SlotOwnerFunc
  | [], _ => ""
  | addrs, slot => addrs.getD (slot % addrs.length) ""

/-- The expanded table. Without nodes every slot is empty. -/
def buildRoutingTable (sortedNodeAddrs : List String) (owner : Option SlotOwnerFunc) : Table :=
  if sortedNodeAddrs.isEmpty then Vector.replicate partitionSlots ""
  else Vector.ofFn fun slot => owner.getD moduloSlotOwner sortedNodeAddrs slot

inductive DiscoveryError where
  | tableNotInitialized
  | noOwner
  deriving DecidableEq, Repr

def DiscoveryError.text : DiscoveryError → String
  | .tableNotInitialized => "discovery: routing table not initialized"
  | .noOwner => "discovery: slot is not assigned to any node"

def getNodeIP (table : Option Table) (tenantID : Int32) (uid : Int64) :
    Except DiscoveryError String :=
  match table with
  | none => .error .tableNotInitialized
  | some table =>
      let ip := table.get ⟨slotOf tenantID uid, slotOf_lt tenantID uid⟩
      if ip = "" then .error .noOwner else .ok ip

/-- Each slot goes to the address at its number, modulo that of the addresses. -/
theorem getElem?_moduloSlotOwner {addrs : List String} (hne : addrs ≠ []) (slot : Nat) :
    addrs[slot % addrs.length]? = some (moduloSlotOwner addrs slot) := by
  have hindex : slot % addrs.length < addrs.length :=
    Nat.mod_lt _ (List.length_pos_iff.mpr hne)
  cases addrs with
  | nil => exact absurd rfl hne
  | cons addr rest =>
      rw [List.getElem?_eq_getElem hindex]
      exact congrArg some (List.getD_eq_getElem _ _ hindex).symm

/-- The table has the owner of every slot. -/
theorem buildRoutingTable_get {addrs : List String} (hne : addrs ≠ [])
    (owner : Option SlotOwnerFunc) (slot : Fin partitionSlots) :
    (buildRoutingTable addrs owner).get slot = owner.getD moduloSlotOwner addrs slot := by
  rw [buildRoutingTable, if_neg (by simpa using hne)]
  exact Vector.getElem_ofFn _

section

variable (tenantID : Int32) (uid : Int64)

/-- Without nodes no wallet has an owner. -/
theorem getNodeIP_build_nil (owner : Option SlotOwnerFunc) :
    getNodeIP (some (buildRoutingTable [] owner)) tenantID uid = .error .noOwner := by
  simp [getNodeIP, buildRoutingTable, Vector.get]

/-- The owner of a wallet is the address at its slot, modulo their number. -/
theorem getNodeIP_build {addrs : List String} (hne : addrs ≠ []) (hvalid : "" ∉ addrs) :
    ∃ ip, addrs[slotOf tenantID uid % addrs.length]? = some ip ∧
      getNodeIP (some (buildRoutingTable addrs (some moduloSlotOwner))) tenantID uid = .ok ip := by
  have howner := getElem?_moduloSlotOwner hne (slotOf tenantID uid)
  refine ⟨_, howner, ?_⟩
  have hfilled : moduloSlotOwner addrs (slotOf tenantID uid) ≠ "" := fun hempty =>
    hvalid (hempty ▸ List.mem_of_getElem? howner)
  have hslot := buildRoutingTable_get hne (some moduloSlotOwner)
    ⟨slotOf tenantID uid, slotOf_lt tenantID uid⟩
  simp only [Option.getD_some] at hslot
  simp only [getNodeIP, hslot, if_neg hfilled]

end

end ActorCluster.Discovery
