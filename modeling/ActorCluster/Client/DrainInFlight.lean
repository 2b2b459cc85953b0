import ActorCluster.Client.Resend
import ActorCluster.Foundation.Tally

/-! # Draining

When the load is over, `drainInFlight` waits until as many responses and errors have
been counted as requests were sent. It compares totals: an error counted for a request
that was never sent, or a second one for a request that was, makes up for a response
that is missing. It also loads the three counters one after the other. The total is
right as long as every response or error is counted once, for a request that was counted
before, and no batch is counted between the loads.
-/

namespace ActorCluster.Client

open Remote Transition
open scoped List

/-- An envelope on the stream of a streamer. -/
structure Parcel where
  streamer : Nat
  reqID : UInt64
  deriving DecidableEq

/-- The envelopes that a step adds to `reqSent`. -/
def Action.counted : Action → List Parcel
  | .count a batch _ => batch.map fun env => ⟨a, env.requestId⟩
  | _ => []

/-- The envelope whose response, or whose failure by its streamer, a step counts. -/
def Action.handled : Action → List Parcel
  | .tally a res _ => [⟨a, res.requestId⟩]
  | .failEntry a _ _ reqID _ => [⟨a, reqID⟩]
  | _ => []

/-- What a step adds to `respRecv`. -/
def Action.succeeded : Action → Nat
  | .tally _ res _ => if res.success then 1 else 0
  | _ => 0

/-- What a step adds to `errCount`. -/
def Action.erred : Action → Nat
  | .tally _ res _ => if res.success then 0 else 1
  | .failEntry _ _ _ _ _ | .giveUp _ _ _ _ _ | .timeout _ _ _ => 1
  | _ => 0

/-- An error of the caller itself is counted: the dispatch has failed, or the wait has
timed out. -/
def Action.abandons : Action → Bool
  | .giveUp _ _ _ _ _ | .timeout _ _ _ => true
  | _ => false

/-- Where `drainInFlight` stands, with what it has loaded. -/
inductive DrainInFlight where
  | loop
  | sent (sent : UInt64)
  | received (sent respRecv : UInt64)
  | returned (drained : Bool) (unfinished : UInt64)
  deriving DecidableEq

/-- Some counters are loaded and some are not. -/
def DrainInFlight.loading : DrainInFlight → Bool
  | .sent _ | .received _ _ => true
  | .loop | .returned _ _ => false

/-- The client and `drainInFlight`. The history has the envelopes counted as sent, and
those that got a response or were failed by their streamer. -/
structure Audit where
  client : ClientState
  drain : DrainInFlight
  counted : List Parcel
  handled : List Parcel

inductive AuditAction where
  | act (action : Action)
  | loadSent
  | loadRecv (sent : UInt64)
  | loadErr (sent respRecv : UInt64) (late : Bool)

namespace Audit

def enabled (cfg : Config) (r : Audit) : AuditAction → Bool
  | .act action => r.client.enabled cfg action
  | .loadSent => r.drain = .loop
  | .loadRecv sent => r.drain = .sent sent
  | .loadErr sent respRecv _ => r.drain = .received sent respRecv

/-- The last load is followed by the test, and by the check of the deadline. -/
def apply (cfg : Config) (r : Audit) : AuditAction → Audit
  | .act action =>
      { r with
        client := r.client.apply cfg action
        counted := r.counted ++ action.counted
        handled := r.handled ++ action.handled }
  | .loadSent => { r with drain := .sent r.client.reqSent }
  | .loadRecv sent => { r with drain := .received sent r.client.respRecv }
  | .loadErr sent respRecv late =>
      let handled := respRecv + r.client.errCount
      { r with drain := if sent ≤ handled then .returned true 0
          else if late then .returned false (sent - handled) else .loop }

/-- The envelopes counted as sent that got no response and were not failed. -/
def unanswered (r : Audit) : List Parcel := r.counted.diff r.handled

end Audit

def audit (cfg : Config) : System Audit AuditAction :=
  System.guarded ⟨newClient, .loop, [], []⟩ (Audit.enabled cfg) (Audit.apply cfg)

/-- What a step adds to the counters. -/
theorem counters_apply (cfg : Config) (s : ClientState) (action : Action) :
    (s.apply cfg action).reqSent = s.reqSent + UInt64.ofNat action.counted.length ∧
      (s.apply cfg action).respRecv = s.respRecv + UInt64.ofNat action.succeeded ∧
      (s.apply cfg action).errCount = s.errCount + UInt64.ofNat action.erred := by
  have hstay (x : UInt64) : x = x + UInt64.ofNat 0 := (UInt64.add_zero x).symm
  cases action with
  | count a batch last =>
      rw [Action.counted, List.length_map]
      exact ⟨rfl, hstay _, hstay _⟩
  | tally a res rest =>
      simp only [ClientState.apply, Action.succeeded, Action.erred]
      split
      · exact ⟨hstay _, rfl, hstay _⟩
      · exact ⟨hstay _, hstay _, rfl⟩
  | create | demux =>
      simp only [ClientState.apply]
      split <;> exact ⟨hstay _, hstay _, hstay _⟩
  | failEntry a code i reqID entry =>
      obtain ⟨_ | ch⟩ := entry <;> exact ⟨hstay _, hstay _, rfl⟩
  | giveUp | timeout => exact ⟨hstay _, hstay _, rfl⟩
  | _ => exact ⟨hstay _, hstay _, hstay _⟩

/-- What the counters note for a response or a failed callback is one outcome. -/
theorem Action.length_handled {action : Action} (h : action.abandons = false) :
    action.handled.length = action.succeeded + action.erred := by
  cases action with
  | tally a res rest =>
      simp only [handled, succeeded, erred]
      split <;> rfl
  | giveUp | timeout => cases h
  | _ => rfl

theorem Action.nodup_handled (action : Action) : action.handled.Nodup := by
  cases action with
  | tally | failEntry => exact List.nodup_singleton _
  | _ => exact List.nodup_nil

/-- Every response or error is counted once, for a request that was counted before. No
batch is counted between the loads, and fewer than `2^64` requests are sent. -/
def Accounts (r : Audit) : AuditAction → Prop
  | .act action =>
      action.abandons = false ∧
        (∀ x ∈ action.handled, r.handled.count x < r.counted.count x) ∧
        (action.counted ≠ [] → r.drain.loading = false ∧
          r.counted.length + action.counted.length < UInt64.size)
  | _ => True

instance (r : Audit) (action : AuditAction) : Decidable (Accounts r action) := by
  cases action <;> unfold Accounts <;> infer_instance

namespace Audit

/-- The counters have what the history has, and what was loaded is not more. -/
structure Balanced (r : Audit) : Prop where
  sent : r.client.reqSent.toNat = r.counted.length
  outcomes : r.client.respRecv.toNat + r.client.errCount.toNat = r.handled.length
  covered : r.handled <+~ r.counted
  small : r.counted.length < UInt64.size
  loadedSent : ∀ sent, r.drain = .sent sent → sent = r.client.reqSent
  loadedRecv : ∀ sent respRecv, r.drain = .received sent respRecv →
    sent = r.client.reqSent ∧ respRecv.toNat ≤ r.client.respRecv.toNat

namespace Balanced

variable {cfg : Config} {r : Audit}

theorem covered_append (h : r.Balanced) {action : Action}
    (hhandled : ∀ x ∈ action.handled, r.handled.count x < r.counted.count x) :
    r.handled ++ action.handled <+~ r.counted ++ action.counted := by
  rw [List.subperm_iff_count]
  intro x
  have hold : r.handled.count x ≤ r.counted.count x := h.covered.count_le x
  rw [List.count_append, List.count_append]
  by_cases hx : x ∈ action.handled
  · have hroom := hhandled x hx
    have hone := List.nodup_iff_count_le_one.mp action.nodup_handled x
    omega
  · rw [List.count_eq_zero_of_not_mem hx]
    omega

theorem act (h : r.Balanced) {action : Action} (hguard : Accounts r (.act action)) :
    (r.apply cfg (.act action)).Balanced := by
  obtain ⟨habandons, hhandled, hcounted⟩ := hguard
  have hcovered := h.covered_append hhandled
  have hsmall : r.counted.length + action.counted.length < UInt64.size := by
    by_cases hnone : action.counted = []
    · rw [hnone]
      exact h.small
    · exact (hcounted hnone).2
  have hlength : r.handled.length + (action.succeeded + action.erred) ≤
      r.counted.length + action.counted.length := by
    rw [← Action.length_handled habandons, ← List.length_append, ← List.length_append]
    exact hcovered.length_le
  have hsent := h.sent
  have houtcomes := h.outcomes
  obtain ⟨haddSent, haddRecv, haddErr⟩ := counters_apply cfg r.client action
  have hreqSent : (r.client.apply cfg action).reqSent.toNat =
      r.client.reqSent.toNat + action.counted.length := by
    rw [haddSent]
    exact Tally.toNat_add_ofNat (by omega)
  have hrespRecv : (r.client.apply cfg action).respRecv.toNat =
      r.client.respRecv.toNat + action.succeeded := by
    rw [haddRecv]
    exact Tally.toNat_add_ofNat (by omega)
  have herrCount : (r.client.apply cfg action).errCount.toNat =
      r.client.errCount.toNat + action.erred := by
    rw [haddErr]
    exact Tally.toNat_add_ofNat (by omega)
  -- while the counters are loaded, no batch is counted
  have hloading : r.drain.loading = true →
      (r.client.apply cfg action).reqSent = r.client.reqSent := by
    intro hload
    have hnone : action.counted = [] := by
      by_contra hsome
      exact Bool.false_ne_true ((hcounted hsome).1.symm.trans hload)
    rw [haddSent, hnone]
    exact UInt64.add_zero _
  refine ⟨?_, ?_, hcovered, ?_, fun sent hdrain => ?_, fun sent respRecv hdrain => ?_⟩
  · simp only [apply, List.length_append]
    omega
  · simp only [apply, List.length_append, Action.length_handled habandons]
    omega
  · simp only [apply, List.length_append]
    exact hsmall
  · have hload : r.drain.loading = true := by
      rw [show r.drain = .sent sent from hdrain]
      rfl
    exact (h.loadedSent sent hdrain).trans (hloading hload).symm
  · have hload : r.drain.loading = true := by
      rw [show r.drain = .received sent respRecv from hdrain]
      rfl
    obtain ⟨hsame, hle⟩ := h.loadedRecv sent respRecv hdrain
    refine ⟨hsame.trans (hloading hload).symm, ?_⟩
    simp only [apply]
    omega

/-- A step that leaves the client alone. -/
theorem load (h : r.Balanced) {drain : DrainInFlight}
    (hsent : ∀ sent, drain = .sent sent → sent = r.client.reqSent)
    (hrecv : ∀ sent respRecv, drain = .received sent respRecv →
      sent = r.client.reqSent ∧ respRecv.toNat ≤ r.client.respRecv.toNat) :
    Balanced { r with drain := drain } :=
  ⟨h.sent, h.outcomes, h.covered, h.small, hsent, hrecv⟩

theorem step (h : r.Balanced) {action : AuditAction} (hguard : Accounts r action)
    (henabled : r.enabled cfg action = true) : (r.apply cfg action).Balanced := by
  cases action with
  | act action => exact h.act hguard
  | loadSent =>
      refine h.load (fun sent hdrain => ?_) nofun
      cases hdrain
      rfl
  | loadRecv sent =>
      have hdrain : r.drain = .sent sent := by simpa [enabled] using henabled
      refine h.load nofun fun sent' respRecv hdrain' => ?_
      cases hdrain'
      exact ⟨h.loadedSent sent hdrain, Nat.le_refl _⟩
  | loadErr sent respRecv late =>
      simp only [apply]
      split
      next => exact h.load nofun nofun
      next =>
        split
        next => exact h.load nofun nofun
        next => exact h.load nofun nofun

/-- As many outcomes as envelopes: each envelope has its outcome. -/
theorem unanswered_eq_nil (h : r.Balanced) (hle : r.counted.length ≤ r.handled.length) :
    r.unanswered = [] := by
  have hperm : r.handled ++ r.counted.diff r.handled ~ r.counted :=
    List.subperm_append_diff_self_of_count_le fun x _ => h.covered.count_le x
  have hlength := hperm.length_eq
  rw [List.length_append] at hlength
  rw [unanswered, ← List.length_eq_zero_iff]
  omega

/-- The test on counters that were loaded one after the other. -/
theorem drained (h : r.Balanced) {sent respRecv : UInt64} (hsent : sent = r.client.reqSent)
    (hrecv : respRecv.toNat ≤ r.client.respRecv.toNat)
    (htest : sent ≤ respRecv + r.client.errCount) : r.unanswered = [] := by
  apply h.unanswered_eq_nil
  have hlength := h.covered.length_le
  have hsmall := h.small
  have houtcomes := h.outcomes
  have hadd : (respRecv + r.client.errCount).toNat =
      respRecv.toNat + r.client.errCount.toNat := by
    rw [UInt64.toNat_add]
    exact Nat.mod_eq_of_lt (by simp only [UInt64.size] at hsmall; omega)
  have hle := UInt64.le_iff_toNat_le.mp htest
  rw [hsent, h.sent, hadd] at hle
  omega

end Balanced

theorem balanced_of_run {cfg : Config} {r : Audit} (hr : (audit cfg).ReachableIf Accounts r) :
    r.Balanced := by
  have hinit : Balanced ⟨newClient, .loop, [], []⟩ :=
    ⟨rfl, rfl, List.Subperm.refl _, by decide, nofun, nofun⟩
  refine System.ReachableIf.invariant hinit ?_ hr
  intro r action r' h hguard hstep
  obtain ⟨henabled, rfl⟩ := System.guarded_step_eq_some_iff.mp hstep
  exact h.step hguard henabled

end Audit

/-- A reported drain is a real drain as long as the accounts are in order. -/
theorem drain_is_real {cfg : Config} {r : Audit} (hr : (audit cfg).ReachableIf Accounts r) :
    (r.client.reqSent ≤ r.client.respRecv + r.client.errCount → r.unanswered = []) ∧
      ∀ sent respRecv late r', (audit cfg).step r (.loadErr sent respRecv late) = some r' →
        r'.drain = .returned true 0 → r'.unanswered = [] := by
  have h := Audit.balanced_of_run hr
  refine ⟨h.drained rfl (Nat.le_refl _), fun sent respRecv late r' hstep hdrained => ?_⟩
  obtain ⟨henabled, rfl⟩ := System.guarded_step_eq_some_iff.mp hstep
  have hdrain : r.drain = .received sent respRecv := by simpa [Audit.enabled] using henabled
  obtain ⟨hsent, hrecv⟩ := h.loadedRecv sent respRecv hdrain
  refine h.drained hsent hrecv ?_
  by_contra htest
  simp only [Audit.apply, if_neg htest] at hdrained
  split at hdrained <;> cases hdrained

/-- The first request is sent and counted. -/
def sendingFirst : List Action :=
  registering ++ [Action.enqueue 0 (firstAttempt 1) 0, .take 0 [] (request 1) [],
    .send 0 [request 1] false, .count 0 [request 1] false]

/-- It is answered. -/
def answeringFirst : List Action :=
  sendingFirst ++ [Action.recv 0 [appliedResult], .tally 0 appliedResult []]

/-- The drain is reported after the answer. -/
def drainingAnswered : List AuditAction :=
  answeringFirst.map .act ++ [AuditAction.loadSent, .loadRecv 1, .loadErr 1 1 false]

theorem drain_is_real_answered :
    ((audit singles).after drainingAnswered).drain = .returned true 0 ∧
      ((audit singles).after drainingAnswered).counted = [⟨0, 1⟩] ∧
      ((audit singles).after drainingAnswered).unanswered = [] := by
  have hreach : (audit singles).ReachableIf Accounts ((audit singles).after drainingAnswered) :=
    System.reachableIf_of_admits (by decide +kernel)
  exact ⟨by decide +kernel, by decide +kernel, (drain_is_real hreach).1 (by decide +kernel)⟩

/-- The first request is not answered, and the second one is never sent: the resolver
has no table yet. -/
def missingTable : List Action :=
  sendingFirst ++ [Action.emulate 1 (request 2),
    .resolve 1 (request 2) ⟨none⟩ (.error "discovery: routing table not initialized"),
    .giveUp 1 (request 2) ⟨none⟩ .discovery "discovery: routing table not initialized"]

/-- The error makes up for the missing answer. -/
def drainingUnanswered : List AuditAction :=
  missingTable.map .act ++ [AuditAction.loadSent, .loadRecv 1, .loadErr 1 0 false]

theorem false_drain :
    ∃ r, (audit singles).Reachable r ∧ r.drain = .returned true 0 ∧
      r.client.reqSent ≤ r.client.respRecv + r.client.errCount ∧ r.unanswered = [⟨0, 1⟩] :=
  ⟨_, System.reachable_after drainingUnanswered, by decide +kernel, by decide +kernel,
    by decide +kernel⟩

end ActorCluster.Client
