import ActorCluster.Foundation.Transition
import Mathlib.Data.Finset.Basic

/-! # Keeping a node registered

`Register` grants a lease, puts the key of the node under it and keeps it alive. One
goroutine then consumes the keep-alive responses; when they end it grants a new lease and
puts the key again. Every failure is retried until the context is cancelled. A lease may
expire at any time, whether it is kept alive or not, and takes the key with it if the key
is attached to it. A put is executed by etcd at some moment after it was sent, perhaps
long after its caller has given up on it or after the process has ended.
-/

namespace ActorCluster.Discovery

open Transition

/-- Where the goroutine of a registration stands. In `establishRegistration` it is the
first round if `Register` has not returned. A put that was sent is answered once etcd has
executed or refused it. -/
inductive Registering where
  | uncalled
  | check (first : Bool)
  | grant (first : Bool)
  | put (first : Bool) (lease : Nat)
  | putting (first : Bool) (lease : Nat) (answer : Option Bool)
  | keepAlive (first : Bool) (lease : Nat)
  | backoff (first : Bool)
  | consume (lease : Nat)
  | pause
  | failed
  | returned
  deriving DecidableEq

/-- The registration of one address: the leases granted for it so far and those that are
alive, the lease that its key is attached to, and the puts that etcd has not executed.
The history has whether `Deregister` has deleted the key in this life of the process. -/
structure Registration where
  granted : Nat
  alive : Finset Nat
  attached : Option Nat
  inFlight : List Nat
  loop : Registering
  cancelled : Bool
  deregistered : Bool

/-- An address that was never registered. -/
def newRegistration : Registration where
  granted := 0
  alive := ∅
  attached := none
  inFlight := []
  loop := .uncalled
  cancelled := false
  deregistered := false

inductive RegistryAction where
  | register
  | cancel
  -- `establishRegistration`
  | check (first : Bool)
  | grant (first : Bool)
  | grantErr (first created : Bool)
  | put (first : Bool) (lease : Nat)
  | putOk (first : Bool) (lease : Nat)
  | putErr (first : Bool) (lease : Nat)
  | keepAlive (first : Bool) (lease : Nat)
  | keepAliveErr (first : Bool) (lease : Nat)
  | wake (first : Bool)
  | leave (first : Bool)
  -- `maintainRegistration`
  | consumed (lease : Nat)
  | consumeDone (lease : Nat)
  | resume
  | pauseDone
  -- etcd
  | execute (lease : Nat)
  | drop (lease : Nat)
  | expire (lease : Nat)
  -- `Deregister`, which the node calls when its context is cancelled after `Register`
  | deregister
  -- the process ends, wherever it stands, and the node is started again
  | restart

/-- What the goroutine does when its context is cancelled: `Register` returns the error,
`maintainRegistration` returns. -/
def Registering.quit (first : Bool) : Registering := if first then .failed else .returned

/-- The answer reaches the goroutine that waits for it. -/
def Registering.answered (lease : Nat) (answer : Bool) : Registering → Registering
  | .putting first lease' none =>
      if lease' = lease then .putting first lease' (some answer) else .putting first lease' none
  | loop => loop

/-- `Register` has returned without an error. -/
def Registering.established : Registering → Bool
  | .uncalled | .failed => false
  | .check first | .grant first | .put first _ | .putting first _ _ | .keepAlive first _
  | .backoff first => !first
  | .consume _ | .pause | .returned => true

/-- The put whose answer the goroutine waits for. -/
def Registering.awaits : Registering → Option Nat
  | .putting _ lease none => some lease
  | _ => none

/-- The lease under which the goroutine knows that the key was put. -/
def Registering.knows : Registering → Option Nat
  | .putting _ lease (some true) | .keepAlive _ lease | .consume lease => some lease
  | _ => none

namespace Registration

/-- A call on a cancelled context is not sent. -/
def enabled (r : Registration) : RegistryAction → Bool
  | .register => r.loop = .uncalled
  | .cancel => true
  | .check first => r.loop = .check first
  | .grant first => r.loop = .grant first && !r.cancelled
  | .grantErr first created => r.loop = .grant first && !(created && r.cancelled)
  | .put first lease => r.loop = .put first lease && !r.cancelled
  | .putOk first lease => r.loop = .putting first lease (some true)
  | .putErr first lease =>
      r.loop = .put first lease || r.loop = .putting first lease none ||
        r.loop = .putting first lease (some true) || r.loop = .putting first lease (some false)
  | .keepAlive first lease => r.loop = .keepAlive first lease
  | .keepAliveErr first lease => r.loop = .keepAlive first lease
  | .wake first => r.loop = .backoff first
  | .leave first => r.loop = .backoff first && r.cancelled
  | .consumed lease => r.loop = .consume lease
  | .consumeDone lease => r.loop = .consume lease && r.cancelled
  | .resume => r.loop = .pause
  | .pauseDone => r.loop = .pause && r.cancelled
  | .execute lease => decide (lease ∈ r.inFlight)
  | .drop lease => decide (lease ∈ r.inFlight)
  | .expire lease => decide (lease ∈ r.alive)
  | .deregister => r.cancelled && r.loop.established
  | .restart => true

def setLoop (r : Registration) (loop : Registering) : Registration := { r with loop := loop }

/-- A new lease. -/
def newLease (r : Registration) : Registration :=
  { r with granted := r.granted + 1, alive := insert r.granted r.alive }

def apply (r : Registration) : RegistryAction → Registration
  | .register => r.setLoop (.check true)
  | .cancel => { r with cancelled := true }
  | .check first => r.setLoop (if r.cancelled then .quit first else .grant first)
  | .grant first => r.newLease.setLoop (.put first r.granted)
  -- the lease may have been granted although the call reports an error
  | .grantErr first created => (if created then r.newLease else r).setLoop (.backoff first)
  | .put first lease =>
      { r with inFlight := lease :: r.inFlight }.setLoop (.putting first lease none)
  | .putOk first lease => r.setLoop (.keepAlive first lease)
  | .putErr first _ => r.setLoop (.backoff first)
  | .keepAlive _ lease => r.setLoop (.consume lease)
  | .keepAliveErr first _ => r.setLoop (.backoff first)
  | .wake first => r.setLoop (.check first)
  | .leave first => r.setLoop (.quit first)
  | .consumed _ => r.setLoop .pause
  | .consumeDone _ => r.setLoop .returned
  | .resume => r.setLoop (.check false)
  | .pauseDone => r.setLoop .returned
  -- a put under a lease that has expired is refused
  | .execute lease =>
      { r with
        inFlight := r.inFlight.erase lease
        attached := if lease ∈ r.alive then some lease else r.attached }.setLoop
        (r.loop.answered lease (decide (lease ∈ r.alive)))
  | .drop lease => { r with inFlight := r.inFlight.erase lease }
  | .expire lease =>
      { r with
        alive := r.alive.erase lease
        attached := if r.attached = some lease then none else r.attached }
  | .deregister => { r with attached := none, deregistered := true }
  -- the leases and the puts of the old process remain
  | .restart => { r with loop := .uncalled, cancelled := false, deregistered := false }

end Registration

/-- The registration of one address. -/
def registry : System Registration RegistryAction :=
  System.guarded newRegistration Registration.enabled Registration.apply

namespace Registration

variable {r : Registration} {action : RegistryAction}

/-- A step of the goroutine, of its context or of etcd. -/
theorem step_eq_some {t : Registration} (hstep : registry.step r action = some t) :
    r.enabled action = true ∧ r.apply action = t :=
  System.guarded_step_eq_some_iff.mp hstep

/-- The key is attached to a lease that is alive. -/
def Backed (r : Registration) : Prop := ∀ lease, r.attached = some lease → lease ∈ r.alive

theorem Backed.step (h : r.Backed) (action : RegistryAction) : (r.apply action).Backed := by
  intro lease hlease
  cases action with
  | grant first => exact Finset.mem_insert_of_mem (h lease hlease)
  | grantErr first created =>
      cases created with
      | true => exact Finset.mem_insert_of_mem (h lease hlease)
      | false => exact h lease hlease
  | execute other =>
      by_cases halive : other ∈ r.alive
      · rw [apply, setLoop, if_pos halive] at hlease
        cases hlease
        exact halive
      · rw [apply, setLoop, if_neg halive] at hlease
        exact h lease hlease
  | expire other =>
      by_cases hattached : r.attached = some other
      · rw [apply, if_pos hattached] at hlease
        cases hlease
      · rw [apply, if_neg hattached] at hlease
        refine Finset.mem_erase.mpr ⟨?_, h lease hlease⟩
        rintro rfl
        exact hattached hlease
  | deregister => cases hlease
  | _ => exact h lease hlease

theorem backed_of_reachable (hr : registry.Reachable r) : r.Backed := by
  apply System.Reachable.invariant (P := Backed) _ _ hr
  · intro lease hlease
    cases hlease
  · intro r action t h hstep
    obtain ⟨_, rfl⟩ := step_eq_some hstep
    exact h.step action

/-- The goroutine gives up only when its context is cancelled. -/
def Persistent (r : Registration) : Prop :=
  r.cancelled = false → r.loop ≠ .failed ∧ r.loop ≠ .returned

theorem Persistent.step (h : r.Persistent) (henabled : r.enabled action = true) :
    (r.apply action).Persistent := by
  intro hlive
  cases action with
  | cancel => cases hlive
  | check first =>
      have hnot : r.cancelled = false := hlive
      simp [apply, setLoop, hnot]
  | leave | consumeDone | pauseDone =>
      have hnot : r.cancelled = false := hlive
      simp [enabled, hnot] at henabled
  | execute lease =>
      have hloop := h hlive
      simp only [apply, setLoop, Registering.answered]
      split
      · split <;> simp
      · exact hloop
  | drop | expire | deregister => exact h hlive
  | _ => simp [apply, setLoop]

theorem persistent_of_reachable (hr : registry.Reachable r) : r.Persistent := by
  apply System.Reachable.invariant (P := Persistent) _ _ hr
  · intro _
    simp [registry, System.guarded, newRegistration]
  · intro r action t h hstep
    obtain ⟨henabled, rfl⟩ := step_eq_some hstep
    exact h.step henabled

/-- The condition on a whole run: etcd executes a put only while its caller waits for the
answer. -/
def Prompt (r : Registration) : RegistryAction → Prop
  | .execute lease => r.loop.awaits = some lease
  | _ => True

/-- The key is attached to the lease that the goroutine has put it under, as long as that
lease is alive. -/
def Kept (r : Registration) : Prop :=
  ∀ lease, r.loop.knows = some lease → lease ∈ r.alive → r.deregistered = false →
    r.attached = some lease

theorem Kept.moved {loop : Registering} (h : r.Kept)
    (hloop : ∀ lease, loop.knows = some lease → r.loop.knows = some lease) :
    (r.setLoop loop).Kept :=
  fun lease hknows => h lease (hloop lease hknows)

theorem Kept.moved_of_none {loop : Registering} (hloop : loop.knows = none) :
    (r.setLoop loop).Kept := by
  intro lease hknows
  rw [setLoop, hloop] at hknows
  cases hknows

theorem knows_quit (first : Bool) : (Registering.quit first).knows = none := by
  cases first <;> rfl

theorem Kept.execute {lease : Nat} (hprompt : r.loop.awaits = some lease) :
    (r.apply (.execute lease)).Kept := by
  intro other hknows halive _
  cases hloop : r.loop with
  | putting first lease' answer =>
      rw [hloop] at hprompt
      cases answer with
      | some answer => cases hprompt
      | none =>
          obtain rfl : lease' = lease := Option.some.inj hprompt
          simp only [apply, hloop, Registering.answered, if_true] at hknows ⊢
          by_cases hmem : lease' ∈ r.alive
          · rw [decide_eq_true hmem] at hknows
            rw [if_pos hmem]
            exact hknows
          · rw [decide_eq_false hmem] at hknows
            cases hknows
  | _ =>
      rw [hloop] at hprompt
      cases hprompt

theorem Kept.expire (h : r.Kept) (lease : Nat) : (r.apply (.expire lease)).Kept := by
  intro other hknows halive hnot
  obtain ⟨hne, hmem⟩ := Finset.mem_erase.mp halive
  have hattached := h other hknows hmem hnot
  have hother : r.attached ≠ some lease := by
    rw [hattached]
    exact fun heq => hne (Option.some.inj heq)
  rw [apply, if_neg hother]
  exact hattached

theorem Kept.step (h : r.Kept) (henabled : r.enabled action = true) (hprompt : r.Prompt action) :
    (r.apply action).Kept := by
  cases action with
  | check first =>
      apply Kept.moved_of_none
      split
      · exact knows_quit first
      · rfl
  | leave first => exact Kept.moved_of_none (knows_quit first)
  | putOk first lease =>
      have hloop : r.loop = .putting first lease (some true) := of_decide_eq_true henabled
      apply h.moved
      simp [hloop, Registering.knows]
  | keepAlive first lease =>
      have hloop : r.loop = .keepAlive first lease := of_decide_eq_true henabled
      apply h.moved
      simp [hloop, Registering.knows]
  | execute lease => exact Kept.execute hprompt
  | expire lease => exact h.expire lease
  | deregister =>
      intro lease _ _ hnot
      cases hnot
  | restart =>
      intro lease hknows
      cases hknows
  | cancel | drop => exact h
  | _ => exact Kept.moved_of_none rfl

theorem kept_of_reachable (hr : registry.ReachableIf Prompt r) : r.Kept := by
  apply System.ReachableIf.invariant (P := Kept) _ _ hr
  · intro lease hknows
    cases hknows
  · intro r action t h hprompt hstep
    obtain ⟨henabled, rfl⟩ := step_eq_some hstep
    exact h.step henabled hprompt

section Progress

variable {first : Bool} {P : Registration → Prop}

theorem leadsTo_step (action : RegistryAction) (hprompt : r.Prompt action)
    (henabled : r.enabled action = true)
    (h : registry.LeadsTo Prompt (r.apply action) P) : registry.LeadsTo Prompt r P :=
  h.step hprompt (System.guarded_step_eq_some_iff.mpr ⟨henabled, rfl⟩)

/-- The key is in etcd under a lease that is alive and that the goroutine keeps alive. -/
def Established (r : Registration) : Prop :=
  r.cancelled = false ∧ ∃ lease, r.loop = .consume lease ∧ lease ∈ r.alive ∧
    r.attached = some lease

/-- One round of `establishRegistration` in which no call fails. -/
theorem leadsTo_established (hlive : r.cancelled = false) (hloop : r.loop = .check first) :
    registry.LeadsTo Prompt r Established := by
  refine leadsTo_step (.check first) trivial (by simp [enabled, hloop]) ?_
  refine leadsTo_step (.grant first) trivial (by simp [enabled, apply, setLoop, hlive]) ?_
  refine leadsTo_step (.put first r.granted) trivial
    (by simp [enabled, apply, setLoop, newLease, hlive]) ?_
  refine leadsTo_step (.execute r.granted) rfl (by simp [enabled, apply, setLoop]) ?_
  refine leadsTo_step (.putOk first r.granted) trivial
    (by simp [enabled, apply, setLoop, newLease, Registering.answered]) ?_
  refine leadsTo_step (.keepAlive first r.granted) trivial
    (by simp [enabled, apply, setLoop]) ?_
  refine System.LeadsTo.refl ⟨hlive, r.granted, rfl, ?_, ?_⟩
  · exact Finset.mem_insert_self _ _
  · exact if_pos (Finset.mem_insert_self _ _)

/-- After a failure the goroutine waits and starts a new round. -/
theorem leadsTo_established_of_backoff (hlive : r.cancelled = false)
    (hloop : r.loop = .backoff first) : registry.LeadsTo Prompt r Established :=
  leadsTo_step (.wake first) trivial (by simp [enabled, hloop])
    (leadsTo_established hlive (rfl : _ = Registering.check first))

end Progress

/-- While its context is not cancelled a registration that was started never gives up: it
has not returned, and from wherever it stands it can establish the key again under a lease
that it keeps alive. -/
theorem registration_renewed (hr : registry.Reachable r) (hlive : r.cancelled = false)
    (hcalled : r.loop ≠ .uncalled) :
    r.loop ≠ .failed ∧ r.loop ≠ .returned ∧ registry.LeadsTo Prompt r Established := by
  obtain ⟨hfailed, hreturned⟩ := persistent_of_reachable hr hlive
  refine ⟨hfailed, hreturned, ?_⟩
  cases hloop : r.loop with
  | uncalled => exact absurd hloop hcalled
  | failed => exact absurd hloop hfailed
  | returned => exact absurd hloop hreturned
  | check first => exact leadsTo_established hlive hloop
  | backoff first => exact leadsTo_established_of_backoff hlive hloop
  | grant first =>
      exact leadsTo_step (.grantErr first false) trivial (by simp [enabled, hloop])
        (leadsTo_established_of_backoff hlive rfl)
  | put first lease =>
      exact leadsTo_step (.putErr first lease) trivial (by simp [enabled, hloop])
        (leadsTo_established_of_backoff hlive rfl)
  | putting first lease answer =>
      refine leadsTo_step (.putErr first lease) trivial ?_
        (leadsTo_established_of_backoff hlive rfl)
      cases answer with
      | none => simp [enabled, hloop]
      | some answer => cases answer <;> simp [enabled, hloop]
  | keepAlive first lease =>
      exact leadsTo_step (.keepAliveErr first lease) trivial (by simp [enabled, hloop])
        (leadsTo_established_of_backoff hlive rfl)
  | consume lease =>
      refine leadsTo_step (.consumed lease) trivial (by simp [enabled, hloop]) ?_
      exact leadsTo_step .resume trivial rfl (leadsTo_established hlive rfl)
  | pause =>
      exact leadsTo_step .resume trivial (by simp [enabled, hloop])
        (leadsTo_established hlive rfl)

/-- A registration whose first grant has failed. -/
def refusedGrant : List RegistryAction := [.register, .check true, .grantErr true false]

theorem registration_renewed_refusedGrant :
    (registry.after refusedGrant).loop = .backoff true ∧
      registry.LeadsTo Prompt (registry.after refusedGrant) Established := by
  refine ⟨by decide, ?_⟩
  exact (registration_renewed (System.reachable_after _) (by decide) (by decide)).2.2

section Cancelled

variable {t : Registration}

/-- The process is not started again. -/
def LastLife (_ : Registration) (action : RegistryAction) : Prop := action ≠ .restart

/-- Once the context is cancelled nothing is sent to etcd any more: what is attached or on
its way was so before. -/
structure Winding (r t : Registration) : Prop where
  cancelled : t.cancelled = true
  alive : t.alive ⊆ r.alive
  inFlight : t.inFlight ⊆ r.inFlight
  attached : ∀ lease, t.attached = some lease → r.attached = some lease ∨ lease ∈ r.inFlight

theorem Winding.refl (h : r.cancelled = true) : Winding r r :=
  ⟨h, Finset.Subset.refl _, List.Subset.refl _, fun _ hlease => Or.inl hlease⟩

theorem Winding.moved (h : Winding r t) (loop : Registering) : Winding r (t.setLoop loop) :=
  ⟨h.cancelled, h.alive, h.inFlight, h.attached⟩

theorem Winding.step (h : Winding r t) (henabled : t.enabled action = true)
    (hlast : t.LastLife action) : Winding r (t.apply action) := by
  have hcancelled := h.cancelled
  cases action with
  | cancel => exact ⟨rfl, h.alive, h.inFlight, h.attached⟩
  | grant | put => simp [enabled, hcancelled] at henabled
  | grantErr first created =>
      cases created with
      | true => simp [enabled, hcancelled] at henabled
      | false => exact h.moved _
  | execute lease =>
      have hmem : lease ∈ t.inFlight := of_decide_eq_true henabled
      refine ⟨hcancelled, h.alive, List.Subset.trans List.erase_subset h.inFlight, ?_⟩
      intro other hother
      by_cases halive : lease ∈ t.alive
      · rw [apply, setLoop, if_pos halive] at hother
        cases hother
        exact Or.inr (h.inFlight hmem)
      · rw [apply, setLoop, if_neg halive] at hother
        exact h.attached other hother
  | drop lease =>
      exact ⟨hcancelled, h.alive, List.Subset.trans List.erase_subset h.inFlight, h.attached⟩
  | expire lease =>
      refine ⟨hcancelled, (Finset.erase_subset _ _).trans h.alive, h.inFlight, ?_⟩
      intro other hother
      by_cases hattached : t.attached = some lease
      · rw [apply, if_pos hattached] at hother
        cases hother
      · rw [apply, if_neg hattached] at hother
        exact h.attached other hother
  | deregister => exact ⟨hcancelled, h.alive, h.inFlight, fun _ hother => by cases hother⟩
  | restart => exact absurd rfl hlast
  | _ => exact h.moved _

theorem Winding.run (hcancelled : r.cancelled = true) (hrun : registry.RunIf LastLife r t) :
    Winding r t := by
  apply System.RunIf.preserves (P := Winding r) _ hrun (Winding.refl hcancelled)
  intro s action u h hlast hstep
  obtain ⟨henabled, rfl⟩ := step_eq_some hstep
  exact h.step henabled hlast

end Cancelled

/-- After its context is cancelled a registration can reappear only by a put that was in
flight then. Once none is, or once every lease has expired, a key that is gone stays gone,
unless the node is started again. -/
theorem registration_ends {t : Registration} (hr : registry.Reachable r)
    (hcancelled : r.cancelled = true) (hrun : registry.RunIf LastLife r t) :
    (∀ lease, t.attached = some lease →
      lease ∈ r.alive ∧ (r.attached = some lease ∨ lease ∈ r.inFlight)) ∧
    (r.alive = ∅ ∨ r.attached = none ∧ r.inFlight = [] → t.attached = none) := by
  have hwinding := Winding.run hcancelled hrun
  have hbacked := backed_of_reachable
    (Relation.ReflTransGen.trans hr (hrun.mono fun _ _ _ => trivial))
  have horigin : ∀ lease, t.attached = some lease →
      lease ∈ r.alive ∧ (r.attached = some lease ∨ lease ∈ r.inFlight) :=
    fun lease hlease => ⟨hwinding.alive (hbacked lease hlease), hwinding.attached lease hlease⟩
  refine ⟨horigin, ?_⟩
  intro hgone
  rw [Option.eq_none_iff_forall_ne_some]
  intro lease hlease
  obtain ⟨halive, hsource⟩ := horigin lease hlease
  rcases hgone with hempty | ⟨hnone, hnil⟩
  · rw [hempty] at halive
    exact Finset.notMem_empty _ halive
  · rw [hnone, hnil] at hsource
    simp at hsource

/-- A registration that is cancelled while its second put is on its way. The key is
deleted, and then the put is executed. -/
def latePut : List RegistryAction :=
  [.register, .check true, .grant true, .put true 0, .execute 0, .putOk true 0, .keepAlive true 0,
    .consumed 0, .resume, .check false, .grant false, .put false 1, .cancel]

theorem registration_ends_latePut :
    (registry.after (latePut ++ [.deregister, .execute 1])).attached = some 1 ∧
      (1 ∈ (registry.after latePut).alive ∧
        ((registry.after latePut).attached = some 1 ∨ 1 ∈ (registry.after latePut).inFlight)) := by
  have hattached : (registry.after (latePut ++ [.deregister, .execute 1])).attached = some 1 := by
    decide
  refine ⟨hattached, ?_⟩
  refine (registration_ends (System.reachable_after latePut) (by decide) ?_).1 1 hattached
  have hrun : registry.exec (registry.after latePut) [.deregister, .execute 1] =
      some (registry.after (latePut ++ [.deregister, .execute 1])) := rfl
  exact System.runIf_of_exec (by simp [LastLife]) hrun

end Registration

end ActorCluster.Discovery
