import ActorCluster.Discovery.Registry
import ActorCluster.Discovery.Watch
import ActorCluster.Foundation.Refinement

/-! # From registrations to routing tables

The nodes of a cluster keep their keys in etcd, and every process follows the keys with a
resolver of its own. A key appears when etcd executes a put and disappears with its lease
or when it is deleted; these are the events that the watches report.
-/

namespace ActorCluster.Discovery

open Transition

/-- The event that a step of a registration is in etcd. -/
def Registration.event (r : Registration) : RegistryAction → Option EventType
  | .execute lease => if lease ∈ r.alive then some .put else none
  | .expire lease => if r.attached = some lease then some .delete else none
  | .deregister => r.attached.map fun _ => .delete
  | _ => none

/-- What the event of an address is to those who watch. -/
def EventType.action (ip : String) : EventType → WatchAction
  | .put => .register ip
  | .delete => .delete ip

/-- Steps of a resolver and of its context. -/
def WatchAction.own : WatchAction → Bool
  | .register _ | .delete _ => false
  | _ => true

/-- A resolver and its watch loop. -/
structure Watching where
  resolver : EtcdResolver
  sync : Sync
  cancelled : Bool

variable {Process : Type}

structure Membership (Process : Type) where
  registration : String → Registration
  etcd : Etcd
  watching : Process → Watching

inductive MembershipAction (Process : Type) where
  | registry (ip : String) (action : RegistryAction)
  | resolver (p : Process) (action : WatchAction)

namespace Membership

variable {m : Membership Process} {p : Process} {ip : String}

/-- What one process sees. -/
def view (m : Membership Process) (p : Process) : WatchState :=
  ⟨m.etcd, (m.watching p).resolver, (m.watching p).sync, (m.watching p).cancelled⟩

def enabled (m : Membership Process) : MembershipAction Process → Bool
  | .registry ip action => ip ≠ "" && (m.registration ip).enabled action
  | .resolver p action => action.own && (m.view p).enabled action

variable [DecidableEq Process]

/-- A step of a registration, with its event if it is one. -/
def apply (m : Membership Process) : MembershipAction Process → Membership Process
  | .registry ip action =>
      { m with
        registration := Function.update m.registration ip ((m.registration ip).apply action)
        etcd := match (m.registration ip).event action with
          | none => m.etcd
          | some .put =>
              { registered := insert ip m.etcd.registered, history := m.etcd.history ++ [.put] }
          | some .delete =>
              { registered := m.etcd.registered.erase ip
                history := m.etcd.history ++ [.delete] } }
  | .resolver p action =>
      let w := (m.view p).apply action
      { m with watching := Function.update m.watching p ⟨w.resolver, w.sync, w.cancelled⟩ }

end Membership

/-- A cluster in which nothing is registered, with the resolvers of all processes. -/
def membership [DecidableEq Process] (nodePrefix : String) :
    System (Membership Process) (MembershipAction Process) :=
  System.guarded ⟨fun _ => newRegistration, ⟨∅, []⟩,
    fun _ => ⟨newEtcdResolver nodePrefix, .initial, false⟩⟩ Membership.enabled Membership.apply

namespace Membership

variable [DecidableEq Process] {m : Membership Process} {nodePrefix : String} {ip : String}
  {p : Process}

/-- The conditions on a whole run: puts are prompt, and the given processes notice every
change. -/
def Watched (ps : Set Process) (m : Membership Process) : MembershipAction Process → Prop
  | .registry ip action => (m.registration ip).Prompt action ∧
      ∀ event, (m.registration ip).event action = some event →
        ∀ p ∈ ps, (m.view p).Noticed (event.action ip)
  | .resolver p action => p ∈ ps → (m.view p).Noticed action

/-- A step of a resolver leaves etcd as it is. -/
theorem etcd_apply_own {s : WatchState} {action : WatchAction} (hown : action.own = true) :
    (s.apply action).etcd = s.etcd := by
  cases action with
  | register | delete => cases hown
  | initialGet resp => cases resp <;> rfl
  | get ch resp => cases resp <;> rfl
  | _ => rfl

theorem view_resolver_self {action : WatchAction} (hown : action.own = true) :
    (m.apply (.resolver p action)).view p = (m.view p).apply action := by
  have hetcd : ((m.view p).apply action).etcd = m.etcd := etcd_apply_own hown
  have hview : (m.apply (.resolver p action)).view p =
      ⟨m.etcd, ((m.view p).apply action).resolver, ((m.view p).apply action).sync,
        ((m.view p).apply action).cancelled⟩ := by
    simp only [apply, view, Function.update_self]
  rw [hview, ← hetcd]

theorem view_resolver_of_ne {q : Process} (hne : q ≠ p) (action : WatchAction) :
    (m.apply (.resolver p action)).view q = m.view q := by
  simp only [apply, view, Function.update_of_ne hne]

theorem view_registry_of_none {action : RegistryAction}
    (hevent : (m.registration ip).event action = none) :
    (m.apply (.registry ip action)).view p = m.view p := by
  simp only [apply, view, hevent]

theorem view_registry_of_some {action : RegistryAction} {event : EventType}
    (hevent : (m.registration ip).event action = some event) :
    (m.apply (.registry ip action)).view p = (m.view p).apply (event.action ip) := by
  cases event <;> simp only [apply, view, hevent] <;> rfl

/-- Each registration takes steps of its own, and its puts are prompt. -/
theorem refines_registry (ps : Set Process) (ip : String) :
    (membership nodePrefix).Refines (Watched ps) registry Registration.Prompt
      (fun _ => True) fun m : Membership Process => m.registration ip where
  init := rfl
  step m action m' _ hguard hstep := by
    obtain ⟨henabled, rfl⟩ := System.guarded_step_eq_some_iff.mp hstep
    cases action with
    | resolver p action => exact Or.inl rfl
    | registry ip' action =>
        by_cases hip : ip = ip'
        · subst hip
          right
          simp only [enabled, Bool.and_eq_true] at henabled
          refine ⟨action, hguard.1, System.guarded_step_eq_some_iff.mpr ⟨henabled.2, ?_⟩⟩
          simp only [apply, Function.update_self]
        · left
          simp only [apply, Function.update_of_ne hip]

/-- The keys that are attached to a lease are those that etcd lists. -/
def Listed (m : Membership Process) : Prop :=
  ∀ ip, ip ∈ m.etcd.registered ↔ (m.registration ip).attached.isSome = true

theorem attached_of_none {r : Registration} {action : RegistryAction}
    (hevent : r.event action = none) : (r.apply action).attached = r.attached := by
  cases action with
  | execute lease =>
      have hdead : lease ∉ r.alive := by
        intro hmem
        simp [Registration.event, hmem] at hevent
      exact if_neg hdead
  | expire lease =>
      have hother : r.attached ≠ some lease := by
        intro hsome
        simp [Registration.event, hsome] at hevent
      exact if_neg hother
  | deregister =>
      have hnone : r.attached = none := Option.map_eq_none_iff.mp hevent
      rw [hnone]
      rfl
  | grantErr first created => cases created <;> rfl
  | _ => rfl

theorem attached_of_put {r : Registration} {action : RegistryAction}
    (hevent : r.event action = some .put) : (r.apply action).attached.isSome = true := by
  cases action with
  | execute lease =>
      have halive : lease ∈ r.alive := by
        by_contra hdead
        simp [Registration.event, hdead] at hevent
      simp [Registration.apply, Registration.setLoop, halive]
  | expire lease => simp [Registration.event] at hevent
  | deregister => simp [Registration.event] at hevent
  | _ => cases hevent

theorem attached_of_delete {r : Registration} {action : RegistryAction}
    (hevent : r.event action = some .delete) :
    r.attached.isSome = true ∧ (r.apply action).attached = none := by
  cases action with
  | execute lease => simp [Registration.event] at hevent
  | expire lease =>
      have hattached : r.attached = some lease := by
        by_contra hother
        simp [Registration.event, hother] at hevent
      exact ⟨by simp [hattached], if_pos hattached⟩
  | deregister =>
      obtain ⟨lease, hlease, _⟩ := Option.map_eq_some_iff.mp hevent
      exact ⟨by simp [hlease], rfl⟩
  | _ => cases hevent

theorem Listed.registry (h : m.Listed) (ip : String) (action : RegistryAction) :
    (m.apply (.registry ip action)).Listed := by
  intro other
  have hother := h other
  cases hevent : (m.registration ip).event action with
  | none =>
      have hsame := attached_of_none hevent
      simp only [apply, hevent]
      rw [hother]
      by_cases hip : other = ip
      · subst hip
        rw [Function.update_self, hsame]
      · rw [Function.update_of_ne hip]
  | some event =>
      cases event with
      | put =>
          have hput := attached_of_put hevent
          simp only [apply, hevent, Finset.mem_insert]
          by_cases hip : other = ip
          · subst hip
            simp only [Function.update_self, hput, true_or]
          · rw [Function.update_of_ne hip, hother]
            simp only [hip, false_or]
      | delete =>
          have hdelete := (attached_of_delete hevent).2
          simp only [apply, hevent, Finset.mem_erase]
          by_cases hip : other = ip
          · subst hip
            simp [hdelete]
          · rw [Function.update_of_ne hip, hother]
            simp only [ne_eq, hip, not_false_eq_true, true_and]

theorem listed_of_reachable {ps : Set Process}
    (hm : (membership nodePrefix).ReachableIf (Watched ps) m) : m.Listed := by
  apply System.ReachableIf.invariant (P := Listed) _ _ hm
  · intro ip
    simp [membership, System.guarded, newRegistration]
  · intro m action t h _ hstep
    obtain ⟨_, rfl⟩ := System.guarded_step_eq_some_iff.mp hstep
    cases action with
    | registry ip action => exact h.registry ip action
    | resolver p action => exact h

/-- What a process sees are runs of a resolver in which it notices every change. -/
theorem refines_watcher {ps : Set Process} (hp : p ∈ ps) :
    (membership nodePrefix).Refines (Watched ps) (watcher nodePrefix) WatchState.Noticed Listed
      fun m => m.view p where
  init := rfl
  step m action m' hlisted hguard hstep := by
    obtain ⟨henabled, rfl⟩ := System.guarded_step_eq_some_iff.mp hstep
    cases action with
    | resolver q action =>
        simp only [enabled, Bool.and_eq_true] at henabled
        by_cases hq : p = q
        · subst hq
          right
          rw [view_resolver_self henabled.1]
          exact ⟨action, hguard hp, System.guarded_step_eq_some_iff.mpr ⟨henabled.2, rfl⟩⟩
        · exact Or.inl (view_resolver_of_ne hq action)
    | registry ip action =>
        simp only [enabled, Bool.and_eq_true] at henabled
        cases hevent : (m.registration ip).event action with
        | none => exact Or.inl (view_registry_of_none hevent)
        | some event =>
            right
            rw [view_registry_of_some hevent]
            refine ⟨event.action ip, hguard.2 event hevent p hp,
              System.guarded_step_eq_some_iff.mpr ⟨?_, rfl⟩⟩
            cases event with
            | put => exact henabled.1
            | delete =>
                have hmem := (hlisted ip).mpr (attached_of_delete hevent).1
                exact decide_eq_true hmem

/-- The node keeps its key: it consumes the responses for a lease that is alive, and has
not deleted the key. -/
def Keeps (m : Membership Process) (ip : String) : Prop :=
  ∃ lease, (m.registration ip).loop = .consume lease ∧ lease ∈ (m.registration ip).alive ∧
    (m.registration ip).deregistered = false

/-- The key of the node is in etcd, under a lease that is alive. -/
def Present (m : Membership Process) (ip : String) : Prop :=
  ∃ lease ∈ (m.registration ip).alive, (m.registration ip).attached = some lease

theorem present_of_keeps {ps : Set Process}
    (hm : (membership nodePrefix).ReachableIf (Watched ps) m) (hkeeps : m.Keeps ip) :
    m.Present ip := by
  obtain ⟨lease, hloop, halive, hnot⟩ := hkeeps
  have hregistry := (refines_registry ps ip).reachableIf (fun _ _ => trivial) hm
  refine ⟨lease, halive, ?_⟩
  apply Registration.kept_of_reachable hregistry lease _ halive hnot
  rw [hloop]
  rfl

/-- Etcd lists the nodes whose key is under a lease that is alive. -/
theorem mem_registered_iff {ps : Set Process}
    (hm : (membership nodePrefix).ReachableIf (Watched ps) m) :
    ip ∈ m.etcd.registered ↔ m.Present ip := by
  have hregistry := (refines_registry ps ip).reachableIf (fun _ _ => trivial) hm
  have hbacked := Registration.backed_of_reachable (hregistry.mono fun _ _ _ => trivial)
  rw [listed_of_reachable hm ip, Option.isSome_iff_exists]
  constructor
  · intro ⟨lease, hlease⟩
    exact ⟨lease, hbacked lease hlease, hlease⟩
  · intro ⟨lease, _, hlease⟩
    exact ⟨lease, hlease⟩

/-- If puts are prompt and some processes notice every change, then as soon as those
processes have nothing left to do they all have the same table. It is made of the nodes
whose key is under a living lease; every node that keeps its key is among them, and while
there is one each wallet is routed to one of them. -/
theorem members_routed {ps : Set Process}
    (hm : (membership nodePrefix).ReachableIf (Watched ps) m)
    (hquiescent : ∀ p ∈ ps, (m.view p).Quiescent) :
    ∃ nodes : Finset String, (∀ ip, ip ∈ nodes ↔ m.Present ip) ∧
      (∀ ip, m.Keeps ip → ip ∈ nodes) ∧
      ∀ p ∈ ps, (m.watching p).resolver.tab =
          some (buildRoutingTable (nodes.sort (· ≤ ·)) (some moduloSlotOwner)) ∧
        (nodes.Nonempty → ∀ tenantID uid, ∃ ip ∈ nodes,
          (m.watching p).resolver.getNodeIP tenantID uid = .ok ip) := by
  refine ⟨m.etcd.registered, fun ip => mem_registered_iff hm, ?_, ?_⟩
  · intro ip hkeeps
    exact (mem_registered_iff hm).mpr (present_of_keeps hm hkeeps)
  · intro p hp
    have hsound : (m.view p).Sound := sound_of_noticed
      ((refines_watcher hp).reachableIf (fun _ => listed_of_reachable) hm)
    have hcurrent : (m.watching p).resolver.tab = some (buildRoutingTable
        (m.etcd.registered.sort (· ≤ ·)) (some moduloSlotOwner)) :=
      hsound.current (hquiescent p hp)
    refine ⟨hcurrent, ?_⟩
    intro hne tenantID uid
    have hsort : m.etcd.registered.sort (· ≤ ·) ≠ [] := by
      obtain ⟨ip, hip⟩ := hne
      exact List.ne_nil_of_mem ((Finset.mem_sort _).mpr hip)
    have hvalid : "" ∉ m.etcd.registered.sort (· ≤ ·) := by
      rw [Finset.mem_sort]
      exact hsound.valid
    obtain ⟨ip, hget, hip⟩ := getNodeIP_build tenantID uid hsort hvalid
    refine ⟨ip, (Finset.mem_sort _).mp (List.mem_of_getElem? hget), ?_⟩
    rw [EtcdResolver.getNodeIP, hcurrent]
    exact hip

/-- One process that watches from the start, and a node that registers. -/
def joined : List (MembershipAction Unit) :=
  [.resolver () (.initialGet (.ok [])), .resolver () (.initialStore []), .resolver () .watch,
    .registry "10.0.0.1:9000" .register, .registry "10.0.0.1:9000" (.check true),
    .registry "10.0.0.1:9000" (.grant true), .registry "10.0.0.1:9000" (.put true 0)]

/-- Etcd executes the put. -/
def putExecuted : MembershipAction Unit := .registry "10.0.0.1:9000" (.execute 0)

/-- The node keeps the lease alive, and the process refreshes its table. -/
def refreshed : List (MembershipAction Unit) :=
  [.registry "10.0.0.1:9000" (.putOk true 0), .registry "10.0.0.1:9000" (.keepAlive true 0),
    .resolver () (.deliver ⟨0, none⟩ 1), .resolver () (.get ⟨1, none⟩
      (.ok ["/nodes/10.0.0.1:9000"])), .resolver () (.store ⟨1, none⟩ ["/nodes/10.0.0.1:9000"])]

theorem members_routed_joined :
    ((membership "/nodes").after (joined ++ [putExecuted] ++ refreshed)).Keeps "10.0.0.1:9000" ∧
      ∀ tenantID uid, ∃ ip, (((membership "/nodes").after
        (joined ++ [putExecuted] ++ refreshed)).watching ()).resolver.getNodeIP tenantID uid =
          .ok ip := by
  have hreachable : (membership "/nodes").ReachableIf (Watched {()})
      ((membership "/nodes").after (joined ++ [putExecuted] ++ refreshed)) := by
    refine System.ReachableIf.append (System.ReachableIf.concat (System.reachableIf_after ?_) ?_) ?_
    · simp [joined, Watched, WatchState.Noticed, Registration.Prompt, Registration.event]
    · have hawaits : (((membership "/nodes").after joined).registration
          "10.0.0.1:9000").loop.awaits = some 0 := by decide +kernel
      have hopen : (((membership "/nodes").after joined).view ()).sync.chan = some ⟨0, none⟩ := by
        decide +kernel
      refine ⟨hawaits, fun event _ p _ => ?_⟩
      cases event <;> exact Or.inr ⟨⟨0, none⟩, hopen, rfl⟩
    · simp [refreshed, Watched, WatchState.Noticed, Registration.Prompt, Registration.event]
  have hkeeps : ((membership "/nodes").after (joined ++ [putExecuted] ++ refreshed)).Keeps
      "10.0.0.1:9000" := ⟨0, by decide +kernel, by decide +kernel, by decide +kernel⟩
  have hquiescent : (((membership "/nodes").after
      (joined ++ [putExecuted] ++ refreshed)).view ()).Quiescent := by
    unfold WatchState.Quiescent
    decide +kernel
  obtain ⟨nodes, _, hnodes, hrouted⟩ := members_routed hreachable fun _ _ => hquiescent
  refine ⟨hkeeps, fun tenantID uid => ?_⟩
  obtain ⟨ip, _, hip⟩ := (hrouted () rfl).2 ⟨_, hnodes _ hkeeps⟩ tenantID uid
  exact ⟨ip, hip⟩

end Membership

end ActorCluster.Discovery
