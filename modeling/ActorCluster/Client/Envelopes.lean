import ActorCluster.Client.Replies

/-! # Envelopes and results in the hands of the router

The router makes no envelopes: each one that it holds or has sent was handed to it
by a call. The results that a receiver holds came from its stream. Streamers that
were not created yet hold nothing, so what a streamer has sent only grows.
-/

namespace ActorCluster.Client

open Remote Transition
open scoped List

/-- The envelope of the call that a caller is busy with. -/
def Caller.envelope : Caller → Option RemoteEnvelope
  | .idle => none
  | .resolve env _ | .giveUp env _ _ _ | .wait env _ | .expire env _ | .expireDelete env _ _ =>
      some env
  | .dispatch d _ => some d.env

/-- The call is one of `ExecuteAndWait`. -/
def Caller.waits : Caller → Bool
  | .idle => false
  | .resolve _ entry | .giveUp _ entry _ _ => entry.respCh.isSome
  | .dispatch d _ => d.entry.respCh.isSome
  | .wait _ _ | .expire _ _ | .expireDelete _ _ _ => true

/-- The step ends a call of `ExecuteAndWait`: its caller, and what it returns. -/
def Action.returned : Action → Option (Nat × RemoteResult)
  | .receive p _ _ res => some (p, res)
  | .giveUp p env ⟨some _⟩ code msg => some (p, syntheticResult env code msg)
  | .expireReturn p env =>
      some (p, syntheticResult env .deadlineExceeded "gateway wait timeout")
  | _ => none

/-- The envelopes that a streamer has sent or is to send. -/
def NodeStreamer.envelopes (ns : NodeStreamer) : List RemoteEnvelope :=
  ns.sent ++ ns.flusher.batch ++ ns.envelopeCh

section Moves

variable {s : ClientState} {action : Action}

theorem CallerMove.envelope_back {p : Nat} {c : Caller} (h : CallerMove s action p c)
    {env : RemoteEnvelope} (hc : c.envelope = some env) :
    (s.caller p).envelope = some env ∨ action.Begins p env := by
  cases h with
  | stay => exact .inl hc
  | emulate env' haction =>
      cases hc
      exact .inr (.inl haction)
  | execute env' haction =>
      cases hc
      exact .inr (.inr haction)
  | enqueue d a _ hp =>
      obtain ⟨env', ⟨_ | ch⟩, targetIP, attempts⟩ := d
      · cases hc
      · rw [hp]
        exact .inl hc
  | go _ _ _ hp | resolved _ _ _ hp | unresolved _ _ _ hp | refused _ _ hp | retry _ _ _ hp
  | surrender _ _ _ hp | timeout _ _ hp | visit _ _ _ _ hp | skip _ _ _ hp | expire _ _ _ hp =>
      rw [hp]
      exact .inl hc
  | _ => cases hc

/-- A call that goes on keeps its envelope. -/
theorem CallerMove.envelope_kept {p : Nat} {c : Caller} (h : CallerMove s action p c)
    (hwaits : (s.caller p).waits = true) (hc : c ≠ .idle) :
    c.envelope = (s.caller p).envelope ∧ c.waits = true := by
  cases h with
  | stay => exact ⟨rfl, hwaits⟩
  | emulate _ _ hp | execute _ _ hp =>
      rw [hp] at hwaits
      cases hwaits
  | enqueue d a _ hp =>
      obtain ⟨env, ⟨_ | ch⟩, targetIP, attempts⟩ := d
      · exact absurd rfl hc
      · rw [hp]
        exact ⟨rfl, rfl⟩
  | giveUp | receive | expired => exact absurd rfl hc
  | timeout _ _ hp | visit _ _ _ _ hp | skip _ _ _ hp | expire _ _ _ hp =>
      rw [hp]
      exact ⟨rfl, rfl⟩
  | go _ _ _ hp | resolved _ _ _ hp | unresolved _ _ _ hp | refused _ _ hp | retry _ _ _ hp
  | surrender _ _ _ hp =>
      rw [hp] at hwaits ⊢
      exact ⟨rfl, hwaits⟩

variable {a : Nat} {ns : NodeStreamer}

/-- What a streamer has sent changes only when it sends. -/
theorem StreamerMove.sent (h : StreamerMove s action a ns)
    (hvacant : s.created ≤ a → (s.streamer a).envelopes = [])
    (hsend : ∀ batch last, action ≠ .send a batch last) : ns.sent = (s.streamer a).sent := by
  cases h with
  | create p d haction hp hfresh =>
      have hempty := hvacant (Nat.le_of_eq hfresh.symm)
      simp only [NodeStreamer.envelopes, List.append_eq_nil_iff] at hempty
      exact hempty.1.1.symm
  | send batch last haction => exact absurd haction (hsend batch last)
  | sendErr code | recvErr code => rw [NodeStreamer.startFail_eq]
  | _ => rfl

/-- A streamer gets its envelopes from callers. -/
theorem StreamerMove.envelopes_back (h : StreamerMove s action a ns) {env : RemoteEnvelope}
    (henv : env ∈ ns.envelopes) :
    env ∈ (s.streamer a).envelopes ∨ ∃ p d, s.caller p = .dispatch d (.select a) ∧ d.env = env := by
  cases h with
  | create => cases henv
  | enqueue p d _ hp =>
      rw [NodeStreamer.envelopes, ← List.append_assoc, List.mem_append, List.mem_singleton] at henv
      exact henv.imp_right fun heq => ⟨p, d, hp, heq.symm⟩
  | take batch env' rest flusher hflusher hch hbatch =>
      have hold : (s.streamer a).flusher.batch = batch := by rw [hflusher, Flusher.batch]
      simp only [NodeStreamer.envelopes, hbatch, hold, hch, List.append_assoc,
        List.singleton_append] at henv ⊢
      exact .inl henv
  | flusher flusher hbatch =>
      exact .inl (((hbatch.append_left _).append_right _).subset henv)
  | send batch last _ hflusher =>
      simp only [NodeStreamer.envelopes, hflusher, Flusher.batch, List.append_nil] at henv ⊢
      exact .inl henv
  | sendErr code =>
      rw [NodeStreamer.startFail_eq] at henv
      exact .inl ((((List.nil_sublist _).append_left _).append_right _).subset henv)
  | recvErr code =>
      rw [NodeStreamer.startFail_eq] at henv
      exact .inl henv
  | _ => exact .inl henv

end Moves

namespace ClientState

variable {cfg : Config} {s : ClientState} {action : Action}

/-- A call ends with a result. -/
theorem returned_of_idle (henabled : s.enabled cfg action = true) {p : Nat}
    (hwaits : (s.caller p).waits = true) (hidle : (s.apply cfg action).caller p = .idle) :
    ∃ res, action.returned = some (p, res) := by
  have hbusy : s.caller p ≠ .idle := by
    intro h
    rw [h] at hwaits
    cases hwaits
  have hown {q : Nat} {c : Caller} (h : Function.update s.caller q c p = .idle) :
      p = q ∧ c = .idle := by
    by_cases hpq : p = q
    · subst hpq
      rw [Function.update_self] at h
      exact ⟨rfl, h⟩
    · rw [Function.update_of_ne hpq] at h
      exact absurd h hbusy
  cases action with
  | receive q env ch res =>
      obtain ⟨rfl, _⟩ := hown hidle
      exact ⟨res, rfl⟩
  | expireReturn q env =>
      obtain ⟨rfl, _⟩ := hown hidle
      exact ⟨_, rfl⟩
  | giveUp q env entry code msg =>
      obtain ⟨rfl, _⟩ := hown hidle
      have hp : s.caller p = .giveUp env entry code msg := of_decide_eq_true henabled
      rw [hp] at hwaits
      obtain ⟨_ | ch⟩ := entry
      · cases hwaits
      · exact ⟨_, rfl⟩
  | enqueue q d a =>
      obtain ⟨rfl, haccepted⟩ := hown hidle
      simp only [enabled, Bool.and_eq_true, decide_eq_true_eq] at henabled
      rw [henabled.1] at hwaits
      obtain ⟨env, ⟨_ | ch⟩, targetIP, attempts⟩ := d
      · cases hwaits
      · cases haccepted
  | resolve q env entry answer => cases answer <;> cases (hown hidle).2
  | drop q d a =>
      have hnext := (hown hidle).2
      split at hnext <;> cases hnext
  | expireVisit q env todo ip =>
      have hnext := (hown hidle).2
      cases hentry : s.streamers ip <;> rw [hentry] at hnext <;> cases hnext
  | create q d connected => cases connected <;> cases (hown hidle).2
  | emulate | execute | store | ctxDone | timeout | expireDelete | load | check | evict | lock
  | reload | recheck | reevict | publish =>
      cases (hown hidle).2
  | tally | demux =>
      simp only [apply] at hidle
      split at hidle <;> exact absurd hidle hbusy
  | failEntry a code i reqID entry =>
      obtain ⟨_ | ch⟩ := entry <;> exact absurd hidle hbusy
  | _ => exact absurd hidle hbusy

/-- A receiver has its results from its stream. -/
theorem pending_back (henabled : s.enabled cfg action = true) {a : Nat} {res : RemoteResult}
    (hres : res ∈ ((s.apply cfg action).streamer a).receiver.pending) :
    res ∈ (s.streamer a).receiver.pending ∨
      ∃ results, action = .recv a results ∧ res ∈ results := by
  have hkeep {b : Nat} {ns : NodeStreamer}
      (h : res ∈ (Function.update s.streamer b ns a).receiver.pending)
      (hsub : ns.receiver.pending ⊆ (s.streamer b).receiver.pending) :
      res ∈ (s.streamer a).receiver.pending := by
    by_cases hab : a = b
    · subst hab
      rw [Function.update_self] at h
      exact hsub h
    · rwa [Function.update_of_ne hab] at h
  cases action with
  | recv b results =>
      by_cases hab : a = b
      · subst hab
        rw [show (s.apply cfg (.recv a results)).streamer a =
          { s.streamer a with receiver := .loop results } from Function.update_self _ _ _] at hres
        exact .inr ⟨results, rfl, hres⟩
      · rw [show (s.apply cfg (.recv b results)).streamer a = s.streamer a from
          Function.update_of_ne hab _ _] at hres
        exact .inl hres
  | tally b res' rest =>
      have hb : (s.streamer b).receiver = .loop (res' :: rest) := of_decide_eq_true henabled
      have hsub : (Receiver.demux res' rest).pending ⊆ (s.streamer b).receiver.pending := by
        rw [hb]
        exact List.Subset.refl _
      simp only [apply] at hres
      split at hres <;> exact .inl (hkeep hres hsub)
  | demux b res' rest =>
      simp only [enabled, Bool.and_eq_true, decide_eq_true_eq] at henabled
      have hsub : rest ⊆ (s.streamer b).receiver.pending := by
        rw [henabled.1]
        exact List.subset_cons_self _ _
      simp only [apply] at hres
      split at hres
      · exact .inl (hkeep hres hsub)
      · exact .inl (hkeep hres hsub)
      · refine .inl (hkeep hres ?_)
        rw [henabled.1]
        exact List.Subset.refl _
  | deliver b res' ch rest =>
      simp only [enabled, Bool.and_eq_true, decide_eq_true_eq] at henabled
      refine .inl (hkeep hres ?_)
      rw [henabled.1]
      exact List.subset_cons_self _ _
  | recvErr b =>
      refine .inl (hkeep hres ?_)
      rw [NodeStreamer.startFail_eq]
      exact List.nil_subset _
  | recvEOF b =>
      refine .inl (hkeep hres ?_)
      split
      · exact List.nil_subset _
      · rw [NodeStreamer.startFail_eq]
        exact List.nil_subset _
  | sendErr b batch last =>
      refine .inl (hkeep hres ?_)
      rw [NodeStreamer.startFail_eq]
      exact List.Subset.refl _
  | create p d connected =>
      cases connected with
      | true => exact .inl (hkeep hres (List.nil_subset _))
      | false => exact .inl hres
  | receiverReturn b => exact .inl (hkeep hres (List.nil_subset _))
  | failEntry b code i reqID entry =>
      obtain ⟨_ | ch⟩ := entry <;> exact .inl (hkeep hres (List.Subset.refl _))
  | store | enqueue | drop | expireDelete | take | tick | stopSeen | cancelSeen | send | count
  | closeSend | flusherReturn | mark | evictLoad | evictDelete | failLock | failUnlock
  | closeTransport | stopCheck | stopDone =>
      exact .inl (hkeep hres (List.Subset.refl _))
  | _ => exact .inl hres

/-- Streamers that were not created hold no envelopes. -/
structure Bounded (s : ClientState) : Prop extends s.Placed where
  vacant : ∀ a, s.created ≤ a → (s.streamer a).envelopes = []

theorem bounded_newClient : newClient.Bounded where
  toPlaced := placed_newClient
  vacant _ _ := rfl

theorem Bounded.step (h : s.Bounded) (henabled : s.enabled cfg action = true) :
    (s.apply cfg action).Bounded where
  toPlaced := h.toPlaced.step henabled
  vacant a ha := by
    have hold := Nat.le_trans (created_le cfg s action) ha
    rw [List.eq_nil_iff_forall_not_mem]
    intro env henv
    rcases (streamerMove_apply henabled a).envelopes_back henv with hbefore | ⟨p, d, hp, _⟩
    · rw [h.vacant a hold] at hbefore
      cases hbefore
    · exact absurd (h.stage p d _ a hp rfl) (Nat.not_lt.mpr hold)

end ClientState

/-! ## The failures that the router makes itself -/

/-- The codes that only the client uses. -/
def fromClient : ErrorCode → Bool
  | .transportClosed | .deadlineExceeded | .discovery | .connection | .streamInterrupted => true
  | _ => false

/-- What `fail` reports. -/
def Failure.code : Failure → Option ErrorCode
  | .unstarted | .done => none
  | .mark code | .load code | .evict code | .lock code _ | .scan code _ => some code

namespace ClientState

variable {cfg : Config} {s : ClientState} {action : Action}

/-- What is reported by a call that gives up, or by a stream that fails, is of the client. -/
structure OwnCodes (s : ClientState) : Prop where
  callers : ∀ p env entry code msg, s.caller p = .giveUp env entry code msg →
    fromClient code = true
  failures : ∀ a code, (s.streamer a).failure.code = some code → fromClient code = true

theorem ownCodes_newClient : newClient.OwnCodes where
  callers _ _ _ _ _ h := by cases h
  failures _ _ h := by cases h

theorem OwnCodes.callers_step (h : s.OwnCodes) (henabled : s.enabled cfg action = true) {p : Nat}
    {env : RemoteEnvelope} {entry : CallbackEntry} {code : ErrorCode} {msg : String}
    (hp : (s.apply cfg action).caller p = .giveUp env entry code msg) :
    fromClient code = true := by
  have hmove : CallerMove s action p _ := callerMove_apply henabled p
  rw [hp] at hmove
  generalize hc : Caller.giveUp env entry code msg = c at hmove
  cases hmove with
  | stay => exact h.callers p env entry code msg hc.symm
  | unresolved | refused | surrender =>
      cases hc
      rfl
  | enqueue d a =>
      obtain ⟨env', ⟨_ | ch⟩, targetIP, attempts⟩ := d <;> cases hc
  | _ => cases hc

/-- A stream reports the error that it was failed with. -/
theorem failure_back (henabled : s.enabled cfg action = true) {a : Nat} {code : ErrorCode}
    (hcode : ((s.apply cfg action).streamer a).failure.code = some code) :
    (s.streamer a).failure.code = some code ∨ fromClient code = true := by
  have hupdate {b : Nat} {ns : NodeStreamer}
      (hcode : (Function.update s.streamer b ns a).failure.code = some code)
      (hns : ns.failure.code = some code → (s.streamer b).failure.code = some code ∨
        fromClient code = true) :
      (s.streamer a).failure.code = some code ∨ fromClient code = true := by
    by_cases hab : a = b
    · subst hab
      rw [Function.update_self] at hcode
      exact hns hcode
    · rw [Function.update_of_ne hab] at hcode
      exact .inl hcode
  have hstart {b : Nat} {ns : NodeStreamer} {code' : ErrorCode}
      (hcode : (ns.startFail code').failure.code = some code) (hcode' : fromClient code' = true)
      (hsame : ns.failure = (s.streamer b).failure) :
      (s.streamer b).failure.code = some code ∨ fromClient code = true := by
    unfold NodeStreamer.startFail at hcode
    split at hcode
    · cases hcode
      exact .inr hcode'
    · exact .inl (hsame ▸ hcode)
  cases action with
  | sendErr b batch last => exact hupdate hcode fun hns => hstart hns rfl rfl
  | recvErr b => exact hupdate hcode fun hns => hstart hns rfl rfl
  | recvEOF b =>
      refine hupdate hcode fun hns => ?_
      split at hns
      · exact .inl hns
      · exact hstart hns rfl rfl
  | mark b code' | evictDelete b code' =>
      have hb : (s.streamer b).failure.code = some code' := by
        rw [of_decide_eq_true henabled]
        rfl
      exact hupdate hcode fun hns => .inl (hb.trans hns)
  | evictLoad b code' =>
      have hb : (s.streamer b).failure.code = some code' := by
        rw [of_decide_eq_true henabled]
        rfl
      refine hupdate hcode fun hns => .inl ?_
      split at hns <;> exact hb.trans hns
  | failLock b code' i | failUnlock b code' i =>
      simp only [enabled, Bool.and_eq_true, decide_eq_true_eq] at henabled
      have hb : (s.streamer b).failure.code = some code' := by
        rw [henabled.1]
        rfl
      exact hupdate hcode fun hns => .inl (hb.trans hns)
  | closeTransport b code' => exact hupdate hcode fun hns => by cases hns
  | create p d connected =>
      cases connected with
      | true => exact hupdate hcode fun hns => by cases hns
      | false => exact .inl hcode
  | tally b res rest | demux b res rest =>
      simp only [apply] at hcode
      split at hcode <;> exact hupdate hcode .inl
  | failEntry b code' i reqID entry =>
      obtain ⟨_ | ch⟩ := entry <;> exact hupdate hcode .inl
  | store | enqueue | drop | expireDelete | take | tick | stopSeen | cancelSeen | send | count
  | closeSend | flusherReturn | recv | deliver | receiverReturn | stopCheck | stopDone =>
      exact hupdate hcode .inl
  | _ => exact .inl hcode

theorem OwnCodes.step (h : s.OwnCodes) (henabled : s.enabled cfg action = true) :
    (s.apply cfg action).OwnCodes where
  callers _ _ _ _ _ hp := h.callers_step henabled hp
  failures a code hcode := by
    rcases failure_back henabled hcode with hold | hnew
    · exact h.failures a code hold
    · exact hnew

end ClientState

end ActorCluster.Client
