import ActorCluster.Discovery.Resolver
import ActorCluster.Foundation.Transition

/-! # Following the registrations

`Watch` lists the registrations once and then starts a loop that opens a watch,
lists them again after every reported event, and opens a new watch when one ends.
A watch reports what happens after it was opened, so a change between a listing
and the next watch, or one whose listing fails, is never looked at again.
-/

namespace ActorCluster.Discovery

open Transition
open scoped List

inductive EventType where
  | put
  | delete
  deriving DecidableEq, Repr

/-- The addresses that are registered below the prefix, and the events there. The
revision is the number of events. -/
structure Etcd where
  registered : Finset String
  history : List EventType

def Etcd.revision (e : Etcd) : Nat := e.history.length

/-- An open watch: the revision it has reported, and the last one it will report
if it was closed or has failed. -/
structure WatchChan where
  reported : Nat
  last : Option Nat
  deriving DecidableEq

/-- Where `Watch` and its loop stand. -/
inductive Sync where
  | initial
  | initialStore (keys : List String)
  | failed
  | restart
  | select (ch : WatchChan)
  | get (ch : WatchChan)
  | store (ch : WatchChan) (keys : List String)
  | backoff
  | returned
  deriving DecidableEq

/-- The watch that the loop has opened. -/
def Sync.chan : Sync → Option WatchChan
  | .select ch | .get ch | .store ch _ => some ch
  | _ => none

def Sync.setChan (ch : WatchChan) : Sync → Sync
  | .select _ => .select ch
  | .get _ => .get ch
  | .store _ keys => .store ch keys
  | sync => sync

/-- Positions at which the loop looks at its context. -/
def Sync.looks : Sync → Bool
  | .restart | .select _ | .backoff => true
  | _ => false

structure WatchState where
  etcd : Etcd
  resolver : EtcdResolver
  sync : Sync
  cancelled : Bool

/-- The two halves of `refreshSnapshot` are separate steps: the listing and the
exchange of the table. -/
inductive WatchAction where
  | register (ip : String)
  | delete (ip : String)
  | cancel
  | initialGet (resp : Except String (List String))
  | initialStore (keys : List String)
  | watch
  | deliver (ch : WatchChan) (count : Nat)
  | get (ch : WatchChan) (resp : Except String (List String))
  | store (ch : WatchChan) (keys : List String)
  | sever (ch : WatchChan) (last : Nat)
  | observe (ch : WatchChan)
  | wake
  | leave

def hasNodeTopologyEvent (events : List EventType) : Bool :=
  events.any fun event => event = .put || event = .delete

/-- The answer to a listing: an error, or everything that is registered at the
moment, in any order. -/
def Etcd.answers (e : Etcd) (nodePrefix : String) : Except String (List String) → Bool
  | .error _ => true
  | .ok keys => decide keys.Nodup && keys.toFinset = e.registered.image (nodePrefix ++ ·)

namespace WatchState

/-- A watch reports each event once, in order. It may be closed or fail at any
time, and then reports at most what has happened until then. -/
def enabled (s : WatchState) : WatchAction → Bool
  | .register ip => ip ≠ ""
  | .delete ip => ip ∈ s.etcd.registered
  | .cancel => true
  | .initialGet resp => s.sync = .initial && s.etcd.answers s.resolver.nodePrefix resp
  | .initialStore keys => s.sync = .initialStore keys
  | .watch => s.sync = .restart
  | .deliver ch count =>
      s.sync = .select ch && decide (ch.reported + count ≤ ch.last.getD s.etcd.revision)
  | .get ch resp => s.sync = .get ch && s.etcd.answers s.resolver.nodePrefix resp
  | .store ch keys => s.sync = .store ch keys
  | .sever ch last =>
      s.sync.chan = some ch && ch.last = none && decide (ch.reported ≤ last) &&
        decide (last ≤ s.etcd.revision)
  | .observe ch => s.sync = .select ch && ch.last = some ch.reported
  | .wake => s.sync = .backoff
  | .leave => s.cancelled && s.sync.looks

def apply (s : WatchState) : WatchAction → WatchState
  | .register ip => { s with etcd :=
      { registered := insert ip s.etcd.registered, history := s.etcd.history ++ [EventType.put] } }
  | .delete ip => { s with etcd :=
      { registered := s.etcd.registered.erase ip
        history := s.etcd.history ++ [EventType.delete] } }
  | .cancel => { s with cancelled := true }
  | .initialGet (.error _) => { s with sync := .failed }
  | .initialGet (.ok keys) => { s with sync := .initialStore keys }
  | .initialStore keys => { s with resolver := s.resolver.store keys, sync := .restart }
  | .watch => { s with sync := .select ⟨s.etcd.revision, none⟩ }
  | .deliver ch count =>
      let next := { ch with reported := ch.reported + count }
      { s with sync :=
        if hasNodeTopologyEvent ((s.etcd.history.drop ch.reported).take count) then .get next
        else .select next }
  | .get ch (.error _) => { s with sync := .select ch }
  | .get ch (.ok keys) => { s with sync := .store ch keys }
  | .store ch keys => { s with resolver := s.resolver.store keys, sync := .select ch }
  | .sever ch last => { s with sync := s.sync.setChan { ch with last := some last } }
  | .observe _ => { s with sync := .backoff }
  | .wake => { s with sync := .restart }
  | .leave => { s with sync := .returned }

/-- A watch is open and has reported every event, and no refresh is running. -/
def Quiescent (s : WatchState) : Prop := s.sync = .select ⟨s.etcd.revision, none⟩

end WatchState

/-- A resolver on which `Watch` is called, before anything is registered. -/
def watcher (nodePrefix : String) : System WatchState WatchAction :=
  System.guarded ⟨⟨∅, []⟩, newEtcdResolver nodePrefix, .initial, false⟩ WatchState.enabled
    WatchState.apply

namespace WatchState

/-- The condition on a whole run: a change comes before the first listing or is
seen by an open watch, a watch ends only after it has reported every event, and
a listing of the loop fails only if a further event will be reported. -/
def Noticed (s : WatchState) : WatchAction → Prop
  | .register _ | .delete _ => s.sync = .initial ∨ ∃ ch, s.sync.chan = some ch ∧ ch.last = none
  | .sever _ last => last = s.etcd.revision
  | .get ch (.error _) => ch.reported < s.etcd.revision
  | _ => True

end WatchState

/-- A watch that will report everything up to the present. -/
structure WatchChan.Follows (ch : WatchChan) (revision : Nat) : Prop where
  le : ch.reported ≤ revision
  last : ∀ last, ch.last = some last → last = revision

/-- The table is the one of the addresses that are registered at the moment. -/
def EtcdResolver.Current (r : EtcdResolver) (e : Etcd) : Prop :=
  r.tab = some (buildRoutingTable (e.registered.sort (· ≤ ·)) (some r.slotOwner))

/-- What the resolver knows at each position. -/
def Sync.Informed (e : Etcd) (r : EtcdResolver) : Sync → Prop
  | .initial | .failed | .returned => True
  | .initialStore keys => e.answers r.nodePrefix (.ok keys) = true
  | .restart | .backoff => r.Current e
  | .select ch => ch.Follows e.revision ∧ (ch.reported = e.revision → r.Current e)
  | .get ch => ch.Follows e.revision
  | .store ch keys => ch.Follows e.revision ∧
      (ch.reported = e.revision → e.answers r.nodePrefix (.ok keys) = true)

/-- What holds along a run in which every change is noticed. -/
structure WatchState.Sound (s : WatchState) : Prop where
  owner : s.resolver.slotOwner = moduloSlotOwner
  valid : "" ∉ s.etcd.registered
  informed : s.sync.Informed s.etcd s.resolver

section Step

variable {s : WatchState} {e : Etcd} {r : EtcdResolver} {ch : WatchChan}

/-- A complete listing makes the table current. -/
theorem EtcdResolver.current_store (howner : r.slotOwner = moduloSlotOwner)
    (hvalid : "" ∉ e.registered) {keys : List String}
    (h : e.answers r.nodePrefix (.ok keys) = true) : (r.store keys).Current e := by
  simp only [Etcd.answers, Bool.and_eq_true, decide_eq_true_eq] at h
  have hperm : keys ~ e.registered.toList.map (r.nodePrefix ++ ·) := by
    refine List.perm_of_nodup_nodup_toFinset_eq h.1 ?_ ?_
    · refine (Finset.nodup_toList _).map fun ip ip' heq => ?_
      simpa using heq
    · rw [h.2]
      ext key
      simp
  have hlists : Lists r.nodePrefix (e.registered.toList.map (r.nodePrefix ++ ·)) keys :=
    ⟨[], nofun, by rwa [List.append_nil]⟩
  rw [EtcdResolver.Current, store_tab howner hvalid hlists]
  rw [show (r.store keys).slotOwner = moduloSlotOwner from howner]

/-- A change is reported by the open watch, or comes before the first listing. -/
theorem Sync.Informed.change {sync : Sync} (h : sync.Informed e r)
    (hnoticed : sync = .initial ∨ ∃ ch, sync.chan = some ch ∧ ch.last = none)
    (registered : Finset String) (event : EventType) :
    sync.Informed ⟨registered, e.history ++ [event]⟩ r := by
  have hahead {ch : WatchChan} (hfollows : ch.Follows e.revision) (hlast : ch.last = none) :
      ch.Follows (Etcd.mk registered (e.history ++ [event])).revision ∧
        ch.reported ≠ (Etcd.mk registered (e.history ++ [event])).revision := by
    have hle : ch.reported ≤ e.history.length := hfollows.le
    simp only [Etcd.revision, List.length_append, List.length_singleton]
    exact ⟨⟨by omega, by simp [hlast]⟩, by omega⟩
  rcases hnoticed with rfl | ⟨ch, hch, hlast⟩
  · trivial
  · cases sync with
    | select | store =>
        cases hch
        obtain ⟨hfollows, hne⟩ := hahead h.1 hlast
        exact ⟨hfollows, fun heq => absurd heq hne⟩
    | get =>
        cases hch
        exact (hahead h hlast).1
    | _ => cases hch

/-- A watch that ends has nothing left to report. -/
theorem Sync.Informed.sever {sync : Sync} (h : sync.Informed e r) (hch : sync.chan = some ch) :
    (sync.setChan { ch with last := some e.revision }).Informed e r := by
  have hends (hfollows : ch.Follows e.revision) :
      WatchChan.Follows { ch with last := some e.revision } e.revision :=
    ⟨hfollows.le, fun _ heq => (Option.some.inj heq).symm⟩
  cases sync with
  | select | store =>
      cases hch
      exact ⟨hends h.1, h.2⟩
  | get =>
      cases hch
      exact hends h
  | _ => cases hch

/-- A report of no event changes nothing. -/
theorem hasNodeTopologyEvent_eq_false {events : List EventType}
    (h : hasNodeTopologyEvent events = false) : events = [] := by
  cases events with
  | nil => rfl
  | cons event rest => cases event <;> simp [hasNodeTopologyEvent] at h

/-- A report moves the watch on, and a report of events starts a refresh. -/
theorem Sync.Informed.deliver (h : (Sync.select ch).Informed e r) {count : Nat}
    (hcount : ch.reported + count ≤ ch.last.getD e.revision) :
    Sync.Informed e r
      (if hasNodeTopologyEvent ((e.history.drop ch.reported).take count)
        then .get { ch with reported := ch.reported + count }
        else .select { ch with reported := ch.reported + count }) := by
  have hle : ch.reported + count ≤ e.revision := by
    cases hlast : ch.last with
    | none => simpa [hlast] using hcount
    | some last =>
        rw [hlast, Option.getD_some, h.1.last last hlast] at hcount
        exact hcount
  have hfollows : WatchChan.Follows { ch with reported := ch.reported + count } e.revision :=
    ⟨hle, h.1.last⟩
  split
  next => exact hfollows
  next hnone =>
    have hnil := hasNodeTopologyEvent_eq_false (Bool.eq_false_iff.mpr hnone)
    have hzero : count = 0 := by
      have hlength := congrArg List.length hnil
      rw [List.length_take, List.length_drop, List.length_nil] at hlength
      rw [Etcd.revision] at hle
      omega
    subst hzero
    exact h

theorem WatchState.Sound.step (h : s.Sound) {action : WatchAction}
    (henabled : s.enabled action = true) (hnoticed : s.Noticed action) :
    (s.apply action).Sound := by
  have hinformed := h.informed
  cases action with
  | register ip =>
      refine ⟨h.owner, ?_, hinformed.change hnoticed _ _⟩
      have hip : ip ≠ "" := of_decide_eq_true henabled
      simpa [WatchState.apply, hip.symm] using h.valid
  | delete ip =>
      refine ⟨h.owner, ?_, hinformed.change hnoticed _ _⟩
      exact fun hmem => h.valid (Finset.mem_of_mem_erase hmem)
  | cancel => exact ⟨h.owner, h.valid, hinformed⟩
  | initialGet resp =>
      cases resp with
      | error err => exact ⟨h.owner, h.valid, trivial⟩
      | ok keys =>
          simp only [WatchState.enabled, Bool.and_eq_true] at henabled
          exact ⟨h.owner, h.valid, henabled.2⟩
  | initialStore keys =>
      have hsync : s.sync = .initialStore keys := of_decide_eq_true henabled
      rw [hsync] at hinformed
      exact ⟨h.owner, h.valid, EtcdResolver.current_store h.owner h.valid hinformed⟩
  | watch =>
      have hsync : s.sync = .restart := of_decide_eq_true henabled
      rw [hsync] at hinformed
      exact ⟨h.owner, h.valid, ⟨Nat.le_refl _, nofun⟩, fun _ => hinformed⟩
  | deliver ch count =>
      simp only [WatchState.enabled, Bool.and_eq_true, decide_eq_true_eq] at henabled
      rw [henabled.1] at hinformed
      exact ⟨h.owner, h.valid, hinformed.deliver henabled.2⟩
  | get ch resp =>
      simp only [WatchState.enabled, Bool.and_eq_true, decide_eq_true_eq] at henabled
      rw [henabled.1] at hinformed
      cases resp with
      | error err =>
          have hbehind : ch.reported < s.etcd.revision := hnoticed
          exact ⟨h.owner, h.valid, hinformed, fun heq => absurd heq hbehind.ne⟩
      | ok keys => exact ⟨h.owner, h.valid, hinformed, fun _ => henabled.2⟩
  | store ch keys =>
      have hsync : s.sync = .store ch keys := of_decide_eq_true henabled
      rw [hsync] at hinformed
      exact ⟨h.owner, h.valid, hinformed.1, fun heq =>
        EtcdResolver.current_store h.owner h.valid (hinformed.2 heq)⟩
  | sever ch last =>
      simp only [WatchState.enabled, Bool.and_eq_true, decide_eq_true_eq] at henabled
      obtain rfl : last = s.etcd.revision := hnoticed
      exact ⟨h.owner, h.valid, hinformed.sever henabled.1.1.1⟩
  | observe ch =>
      simp only [WatchState.enabled, Bool.and_eq_true, decide_eq_true_eq] at henabled
      rw [henabled.1] at hinformed
      exact ⟨h.owner, h.valid, hinformed.2 (hinformed.1.last _ henabled.2)⟩
  | wake =>
      have hsync : s.sync = .backoff := of_decide_eq_true henabled
      rw [hsync] at hinformed
      exact ⟨h.owner, h.valid, hinformed⟩
  | leave => exact ⟨h.owner, h.valid, trivial⟩

end Step

/-- What a resolver knows when it notices every change. -/
theorem sound_of_noticed {nodePrefix : String} {s : WatchState}
    (hs : (watcher nodePrefix).ReachableIf WatchState.Noticed s) : s.Sound := by
  refine System.ReachableIf.invariant (P := WatchState.Sound) ?_ ?_ hs
  · exact ⟨rfl, Finset.notMem_empty _, trivial⟩
  · rintro s action t h hnoticed hstep
    obtain ⟨henabled, rfl⟩ := System.guarded_step_eq_some_iff.mp hstep
    exact h.step henabled hnoticed

theorem WatchState.Sound.current {s : WatchState} (h : s.Sound) (hquiescent : s.Quiescent) :
    s.resolver.tab =
      some (buildRoutingTable (s.etcd.registered.sort (· ≤ ·)) (some moduloSlotOwner)) := by
  have hinformed := h.informed
  rw [hquiescent] at hinformed
  have hcurrent : s.resolver.Current s.etcd := hinformed.2 rfl
  rwa [EtcdResolver.Current, h.owner] at hcurrent

/-- If every change comes before the first listing or is seen by an open watch,
no watch ends before it has reported everything, and no listing fails after the
last event, then the table of a resolver that has nothing left to do is the one
of the addresses registered at the moment. -/
theorem quiescent_current {nodePrefix : String} {s : WatchState}
    (hs : (watcher nodePrefix).ReachableIf WatchState.Noticed s) (hquiescent : s.Quiescent) :
    s.resolver.tab =
      some (buildRoutingTable (s.etcd.registered.sort (· ≤ ·)) (some moduloSlotOwner)) :=
  (sound_of_noticed hs).current hquiescent

/-- A resolver that has listed no node, and the loop that it starts. -/
def emptyListing : List WatchAction := [.initialGet (.ok []), .initialStore []]

/-- A node registers while the watch is open, and is found by the refresh. -/
def noticedNode : List WatchAction :=
  [.deliver ⟨0, none⟩ 1, .get ⟨1, none⟩ (.ok ["/nodes/10.0.0.1:9000"]),
    .store ⟨1, none⟩ ["/nodes/10.0.0.1:9000"]]

def followedNode : List WatchAction :=
  emptyListing ++ [WatchAction.watch] ++ [WatchAction.register "10.0.0.1:9000"] ++ noticedNode

theorem quiescent_current_followedNode :
    ((watcher "/nodes").after followedNode).Quiescent ∧
      ((watcher "/nodes").after followedNode).resolver.tab =
        some (buildRoutingTable (({"10.0.0.1:9000"} : Finset String).sort (· ≤ ·))
          (some moduloSlotOwner)) := by
  have hreachable : (watcher "/nodes").ReachableIf WatchState.Noticed
      ((watcher "/nodes").after followedNode) := by
    refine System.ReachableIf.append (System.ReachableIf.concat (System.ReachableIf.append
      (System.reachableIf_after ?_) ?_) ?_) ?_
    · simp [emptyListing, WatchState.Noticed]
    · simp [WatchState.Noticed]
    · exact Or.inr ⟨⟨0, none⟩, by decide +kernel, rfl⟩
    · simp [noticedNode, WatchState.Noticed]
  have hquiescent : ((watcher "/nodes").after followedNode).Quiescent := by
    unfold WatchState.Quiescent
    decide +kernel
  have hregistered : ((watcher "/nodes").after followedNode).etcd.registered =
      {"10.0.0.1:9000"} := by decide +kernel
  refine ⟨hquiescent, ?_⟩
  rw [← hregistered]
  exact quiescent_current hreachable hquiescent

/-- A resolver with nothing left to do that knows no node, although one is
registered. -/
structure Stale (s : WatchState) : Prop where
  reachable : (watcher "/nodes").Reachable s
  quiescent : s.Quiescent
  registered : s.etcd.registered = {"10.0.0.1:9000"}
  unowned : ∀ tenantID uid, s.resolver.getNodeIP tenantID uid = .error .noOwner

theorem stale_of_empty {actions : List WatchAction}
    (hquiescent : ((watcher "/nodes").after actions).sync =
      .select ⟨((watcher "/nodes").after actions).etcd.revision, none⟩)
    (hregistered : ((watcher "/nodes").after actions).etcd.registered = {"10.0.0.1:9000"})
    (htab : ((watcher "/nodes").after actions).resolver.tab =
      ((newEtcdResolver "/nodes").store []).tab) :
    Stale ((watcher "/nodes").after actions) where
  reachable := System.reachable_after _
  quiescent := hquiescent
  registered := hregistered
  unowned tenantID uid := by
    rw [EtcdResolver.getNodeIP, htab, EtcdResolver.store, sortedNodeIPsFromKVs, List.filterMap_nil,
      List.mergeSort_nil]
    exact getNodeIP_build_nil tenantID uid _

/-- A node that registers between the first listing and the watch, one that
registers between two watches, and one whose listing fails are never found. -/
theorem quiescent_stale :
    Stale ((watcher "/nodes").after
      (emptyListing ++ [WatchAction.register "10.0.0.1:9000", .watch])) ∧
    Stale ((watcher "/nodes").after
      (emptyListing ++ [WatchAction.watch, .sever ⟨0, none⟩ 0, .observe ⟨0, some 0⟩,
        .register "10.0.0.1:9000", .wake, .watch])) ∧
    Stale ((watcher "/nodes").after
      (emptyListing ++ [WatchAction.watch, .register "10.0.0.1:9000", .deliver ⟨0, none⟩ 1,
        .get ⟨1, none⟩ (.error "context deadline exceeded")])) := by
  refine ⟨stale_of_empty ?_ ?_ rfl, stale_of_empty ?_ ?_ rfl, stale_of_empty ?_ ?_ rfl⟩ <;>
    decide +kernel

end ActorCluster.Discovery
