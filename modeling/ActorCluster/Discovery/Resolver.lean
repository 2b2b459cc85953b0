import ActorCluster.Discovery.Table
import ActorCluster.Node.State
import Mathlib.Data.Finset.Sort
import Mathlib.Data.List.DropRight
import Mathlib.Data.String.Basic

/-! # Registration and resolution

A node registers its address under a key, and a resolver lists the keys, strips
them and sorts the addresses. The order of code points in a string is that of
its UTF-8 bytes, by which the addresses are sorted.
-/

namespace ActorCluster.Discovery

open Node
open scoped List

/-- `strings.TrimRight(s, "/")` -/
def trimRight (s : String) : String := String.ofList (s.toList.rdropWhile fun c => c = '/')

def hasPrefix (s pre : String) : Bool := pre.toList.isPrefixOf s.toList

def trimPrefix (s pre : String) : String :=
  if hasPrefix s pre then String.ofList (s.toList.drop pre.toList.length) else s

def normalizeNodePrefix (nodePrefix : String) : String :=
  let trimmed := trimRight nodePrefix
  if trimmed = "" then "/" else trimmed ++ "/"

structure EtcdRegistry where
  nodePrefix : String

def newEtcdRegistry (nodePrefix : String) : EtcdRegistry := ⟨normalizeNodePrefix nodePrefix⟩

/-- The key under which `Register` puts an address. -/
def EtcdRegistry.key (r : EtcdRegistry) (ip : String) : String := r.nodePrefix ++ ip

/-- The address that a listed key stands for, if it is one. -/
def nodeIPFromKey (nodePrefix key : String) : Option String :=
  if hasPrefix key nodePrefix then
    let ip := trimPrefix key nodePrefix
    if ip = "" then none else some ip
  else none

def sortedNodeIPsFromKVs (nodePrefix : String) (keys : List String) : List String :=
  (keys.filterMap (nodeIPFromKey nodePrefix)).mergeSort (· ≤ ·)

structure EtcdResolver where
  tab : Option Table
  nodePrefix : String
  slotOwner : SlotOwnerFunc

def newEtcdResolver (nodePrefix : String) : EtcdResolver where
  tab := none
  nodePrefix := normalizeNodePrefix nodePrefix
  slotOwner := moduloSlotOwner

namespace EtcdResolver

def getNodeIP (r : EtcdResolver) (tenantID : Int32) (uid : Int64) :
    Except DiscoveryError String :=
  Discovery.getNodeIP r.tab tenantID uid

/-- The table built from a listing replaces the old one. -/
def store (r : EtcdResolver) (keys : List String) : EtcdResolver :=
  { r with
    tab := some (buildRoutingTable (sortedNodeIPsFromKVs r.nodePrefix keys) (some r.slotOwner)) }

/-- A failed listing leaves the table as it is. -/
def refreshSnapshot (r : EtcdResolver) (resp : Except String (List String)) :
    EtcdResolver × Option String :=
  match resp with
  | .error err => (r, some err)
  | .ok keys => (r.store keys, none)

/-- What the ownership check of a node is told. -/
def answer (r : EtcdResolver) (tenantID : Int32) (uid : Int64) : Except String String :=
  (r.getNodeIP tenantID uid).mapError DiscoveryError.text

end EtcdResolver

/-- The two strings differ only in trailing slashes. -/
def SlashVariant (base s : String) : Prop :=
  ∃ n, s = base ++ String.ofList (List.replicate n '/')

/-- A listing of the registrations, in any order, and perhaps of other keys that
are not below the prefix. -/
def Lists (nodePrefix : String) (registrations keys : List String) : Prop :=
  ∃ extras : List String, (∀ key ∈ extras, key = nodePrefix ∨ hasPrefix key nodePrefix = false) ∧
    keys ~ registrations ++ extras

section Prefixes

variable {base s : String}

theorem trimRight_of_slashVariant (h : SlashVariant base s) : trimRight s = trimRight base := by
  obtain ⟨n, rfl⟩ := h
  have hdrop (cs : List Char) : (cs ++ List.replicate n '/').rdropWhile (fun c => c = '/') =
      cs.rdropWhile fun c => c = '/' := by
    induction n with
    | zero => simp
    | succ n ih =>
        rw [List.replicate_succ', ← List.append_assoc, List.rdropWhile_concat_pos _ _ _ (by simp),
          ih]
  simp only [trimRight, String.toList_append, String.toList_ofList, hdrop]

/-- Trailing slashes do not matter to registries and resolvers. -/
theorem normalizeNodePrefix_of_slashVariant (h : SlashVariant base s) :
    normalizeNodePrefix s = normalizeNodePrefix base := by
  simp only [normalizeNodePrefix, trimRight_of_slashVariant h]

theorem hasPrefix_append (pre s : String) : hasPrefix (pre ++ s) pre = true := by
  simp [hasPrefix, String.toList_append]

theorem trimPrefix_append (pre s : String) : trimPrefix (pre ++ s) pre = s := by
  rw [trimPrefix, if_pos (hasPrefix_append pre s), String.toList_append, List.drop_left,
    String.ofList_toList]

/-- Stripping a key undoes the registration. -/
theorem nodeIPFromKey_append {ip : String} (hip : ip ≠ "") (nodePrefix : String) :
    nodeIPFromKey nodePrefix (nodePrefix ++ ip) = some ip := by
  simp [nodeIPFromKey, hasPrefix_append, trimPrefix_append, hip]

theorem nodeIPFromKey_extra {nodePrefix key : String}
    (h : key = nodePrefix ∨ hasPrefix key nodePrefix = false) :
    nodeIPFromKey nodePrefix key = none := by
  rcases h with rfl | h
  · have hself : trimPrefix key key = "" := by
      simpa using trimPrefix_append key ""
    simp [nodeIPFromKey, hself]
  · simp [nodeIPFromKey, h]

end Prefixes

theorem mergeSort_eq_sort {ips : List String} {registered : Finset String}
    (h : ips ~ registered.toList) : ips.mergeSort (· ≤ ·) = registered.sort (· ≤ ·) := by
  have hsorted : (ips.mergeSort (· ≤ ·)).Pairwise (· ≤ ·) := List.pairwise_mergeSort' (· ≤ ·) ips
  refine List.Perm.eq_of_pairwise (fun a b _ _ => le_antisymm) hsorted
    (registered.pairwise_sort (· ≤ ·)) ?_
  exact (List.mergeSort_perm ips _).trans (h.trans (registered.sort_perm_toList _).symm)

/-- A listing yields the registered addresses in their canonical order. -/
theorem sortedNodeIPsFromKVs_eq_sort {nodePrefix : String} {registered : Finset String}
    (hvalid : "" ∉ registered) {keys : List String}
    (h : Lists nodePrefix (registered.toList.map (nodePrefix ++ ·)) keys) :
    sortedNodeIPsFromKVs nodePrefix keys = registered.sort (· ≤ ·) := by
  obtain ⟨extras, hextras, hperm⟩ := h
  refine mergeSort_eq_sort ((hperm.filterMap _).trans ?_)
  have hnone : extras.filterMap (nodeIPFromKey nodePrefix) = [] :=
    List.filterMap_eq_nil_iff.mpr fun key hkey => nodeIPFromKey_extra (hextras key hkey)
  have hsome : (registered.toList.map (nodePrefix ++ ·)).filterMap (nodeIPFromKey nodePrefix) =
      registered.toList := by
    rw [List.filterMap_map]
    refine (List.filterMap_congr fun ip hip => ?_).trans List.filterMap_some
    refine nodeIPFromKey_append (fun hempty => hvalid ?_) nodePrefix
    exact hempty ▸ Finset.mem_toList.mp hip
  rw [List.filterMap_append, hnone, hsome, List.append_nil]

/-- The table of a resolver that has listed the registered addresses. -/
theorem store_tab {r : EtcdResolver} (howner : r.slotOwner = moduloSlotOwner)
    {registered : Finset String} (hvalid : "" ∉ registered) {keys : List String}
    (h : Lists r.nodePrefix (registered.toList.map (r.nodePrefix ++ ·)) keys) :
    (r.store keys).tab =
      some (buildRoutingTable (registered.sort (· ≤ ·)) (some moduloSlotOwner)) := by
  rw [EtcdResolver.store, sortedNodeIPsFromKVs_eq_sort hvalid h, howner]

/-- Processes whose resolvers have listed the same registrations agree on the
owner of every wallet: there is none if nothing is registered, and otherwise it
is the registered address at the slot of the wallet, modulo their number, in
their order. Exactly that node passes its own ownership check. -/
theorem routing_agreement {Process : Type} {base : String} {registered : Finset String}
    (hvalid : "" ∉ registered) {via : String → String} (hvia : ∀ ip, SlashVariant base (via ip))
    {pre : Process → String} (hpre : ∀ i, SlashVariant base (pre i)) {keys : Process → List String}
    (hkeys : ∀ i, Lists (newEtcdResolver (pre i)).nodePrefix
      (registered.toList.map fun ip => (newEtcdRegistry (via ip)).key ip) (keys i))
    (old : Process → Option Table) {r : Process → EtcdResolver}
    (hrefresh : ∀ i, EtcdResolver.refreshSnapshot { newEtcdResolver (pre i) with tab := old i }
      (.ok (keys i)) = (r i, none))
    (tenantID : Int32) (uid : Int64) :
    (registered = ∅ → ∀ i, (r i).getNodeIP tenantID uid = .error .noOwner) ∧
    (registered.Nonempty → ∃ ip ∈ registered,
      (registered.sort (· ≤ ·))[slotOf tenantID uid % registered.card]? = some ip ∧
      (∀ i, (r i).getNodeIP tenantID uid = .ok ip) ∧
      ∀ (process : String → Process) (limit : UInt64), ∃! myIP, myIP ∈ registered ∧
        (Config.mk limit true myIP).owns (some ((r (process myIP)).answer tenantID uid)) =
          true) := by
  have hkey (ip : String) (i : Process) :
      (newEtcdRegistry (via ip)).key ip = (newEtcdResolver (pre i)).nodePrefix ++ ip := by
    simp only [newEtcdRegistry, EtcdRegistry.key, newEtcdResolver,
      normalizeNodePrefix_of_slashVariant (hvia ip), normalizeNodePrefix_of_slashVariant (hpre i)]
  have htab (i : Process) : (r i).tab =
      some (buildRoutingTable (registered.sort (· ≤ ·)) (some moduloSlotOwner)) := by
    have hlists := hkeys i
    simp only [hkey _ i] at hlists
    have hstore : r i =
        EtcdResolver.store { newEtcdResolver (pre i) with tab := old i } (keys i) :=
      (congrArg Prod.fst (hrefresh i)).symm
    rw [hstore, EtcdResolver.store]
    dsimp only
    rw [sortedNodeIPsFromKVs_eq_sort hvalid hlists]
    rfl
  refine ⟨fun hempty i => ?_, fun hsome => ?_⟩
  · rw [EtcdResolver.getNodeIP, htab, hempty, Finset.sort_empty]
    exact getNodeIP_build_nil tenantID uid _
  · have hne : registered.sort (· ≤ ·) ≠ [] := by
      rw [← List.length_pos_iff, Finset.length_sort]
      exact hsome.card_pos
    obtain ⟨ip, hindex, hget⟩ := getNodeIP_build tenantID uid hne (by simpa using hvalid)
    rw [Finset.length_sort] at hindex
    have hip : ip ∈ registered := (Finset.mem_sort (· ≤ ·)).mp (List.mem_of_getElem? hindex)
    have hall (i : Process) : (r i).getNodeIP tenantID uid = .ok ip := by
      rw [EtcdResolver.getNodeIP, htab]
      exact hget
    refine ⟨ip, hip, hindex, hall, fun process limit => ⟨ip, ?_, ?_⟩⟩
    · simp [hip, EtcdResolver.answer, hall, Config.owns, Except.mapError]
    · rintro myIP ⟨_, howns⟩
      simpa [EtcdResolver.answer, hall, Config.owns, Except.mapError, eq_comm] using howns

def twoNodes : Finset String := {"10.0.0.1:9000", "10.0.0.2:9000"}

/-- The prefixes of two resolvers. -/
def twoPrefixes : Bool → String
  | false => "/actor_cluster/nodes"
  | true => "/actor_cluster/nodes//"

/-- What they are told, the second one with the bare prefix as a key. -/
def twoListings : Bool → List String
  | false => ["/actor_cluster/nodes/10.0.0.1:9000", "/actor_cluster/nodes/10.0.0.2:9000"]
  | true => ["/actor_cluster/nodes/10.0.0.2:9000", "/actor_cluster/nodes/",
      "/actor_cluster/nodes/10.0.0.1:9000"]

theorem lists_twoListings (i : Bool) :
    Lists (newEtcdResolver (twoPrefixes i)).nodePrefix
      (twoNodes.toList.map fun ip => (newEtcdRegistry "/actor_cluster/nodes").key ip)
      (twoListings i) := by
  have hnodes : twoNodes.toList ~ ["10.0.0.1:9000", "10.0.0.2:9000"] := by
    refine (Finset.toList_insert (by decide)).trans ?_
    rw [Finset.toList_singleton]
  have hkeys := hnodes.map fun ip => (newEtcdRegistry "/actor_cluster/nodes").key ip
  have hfirst : (["10.0.0.1:9000", "10.0.0.2:9000"].map fun ip =>
      (newEtcdRegistry "/actor_cluster/nodes").key ip) = twoListings false := by
    decide +kernel
  rw [hfirst] at hkeys
  cases i with
  | false =>
      refine ⟨[], nofun, ?_⟩
      rw [List.append_nil]
      exact hkeys.symm
  | true =>
      refine ⟨["/actor_cluster/nodes/"], fun key hkey => Or.inl ?_, ?_⟩
      · rw [List.mem_singleton.mp hkey]
        decide +kernel
      · have hsecond : twoListings true ~ twoListings false ++ ["/actor_cluster/nodes/"] := by
          decide +kernel
        exact hsecond.trans (hkeys.symm.append_right _)

theorem routing_agreement_twoNodes :
    ∃ ip ∈ twoNodes, ∀ i, EtcdResolver.getNodeIP
      ((newEtcdResolver (twoPrefixes i)).refreshSnapshot (.ok (twoListings i))).1 1 42 =
        .ok ip := by
  have hpre (i : Bool) : SlashVariant "/actor_cluster/nodes" (twoPrefixes i) := by
    cases i with
    | false => exact ⟨0, by decide +kernel⟩
    | true => exact ⟨2, by decide +kernel⟩
  have hrefresh (i : Bool) : EtcdResolver.refreshSnapshot
      { newEtcdResolver (twoPrefixes i) with tab := none } (.ok (twoListings i)) =
        (((newEtcdResolver (twoPrefixes i)).refreshSnapshot (.ok (twoListings i))).1, none) := by
    have hnew : ({ newEtcdResolver (twoPrefixes i) with tab := none } : EtcdResolver) =
        newEtcdResolver (twoPrefixes i) := by
      simp only [newEtcdResolver]
    rw [hnew]
    generalize newEtcdResolver (twoPrefixes i) = r
    rfl
  have hagree := routing_agreement (by decide +kernel) (fun _ => hpre false) hpre
    lists_twoListings (fun _ => none) hrefresh 1 42
  obtain ⟨ip, hip, _, hall, _⟩ := hagree.2 ⟨_, Finset.mem_insert_self _ _⟩
  exact ⟨ip, hip, hall⟩

end ActorCluster.Discovery
