import ActorCluster.Client.Resend

/-! # The replies to a caller

`ExecuteAndWait` opens a channel and registers it under the id of its request.
Whatever becomes of the streams, whatever results they bring and whichever
attempts fail, a result on the channel is for the request of the call. This
needs no assumption about the request ids.
-/

namespace ActorCluster.Client

open Remote Transition Custody

/-- The response channel of the call that a caller is busy with. -/
def Caller.channel : Caller → Option Nat
  | .resolve _ entry | .giveUp _ entry _ _ => entry.respCh
  | .dispatch d _ => d.entry.respCh
  | .wait _ ch => some ch
  | _ => none

/-- The ways in which a response channel changes in one step of the client. -/
inductive ReplyMove (s : ClientState) (action : Action) (ch : Nat) : Option RemoteResult → Prop
  | stay : ReplyMove s action ch (s.respCh ch)
  | read : ReplyMove s action ch none
  | deliver (a : Nat) (res : RemoteResult) (rest : List RemoteResult)
      (haction : action = .deliver a res ch rest) : ReplyMove s action ch (some res)
  | fail (a : Nat) (code : ErrorCode) (i : Nat) (reqID : UInt64)
      (haction : action = .failEntry a code i reqID ⟨some ch⟩) :
      ReplyMove s action ch (some (failedResult reqID code))

namespace ClientState

variable {cfg : Config} {s : ClientState} {action : Action}

theorem replyMove_update {ch : Nat} {reply : Option RemoteResult}
    (h : ReplyMove s action ch reply) (other : Nat) :
    ReplyMove s action other (Function.update s.respCh ch reply other) := by
  by_cases hother : other = ch
  · subst hother
    rwa [Function.update_self]
  · rw [Function.update_of_ne hother]
    exact .stay

/-- Every step makes one move of every response channel. -/
theorem replyMove_apply (cfg : Config) (s : ClientState) (action : Action) (other : Nat) :
    ReplyMove s action other ((s.apply cfg action).respCh other) := by
  cases action with
  | receive p env ch res => exact replyMove_update .read other
  | deliver a res ch rest => exact replyMove_update (.deliver a res rest rfl) other
  | failEntry a code i reqID entry =>
      obtain ⟨_ | ch⟩ := entry
      · exact .stay
      · exact replyMove_update (.fail a code i reqID rfl) other
  | tally | demux | create =>
      simp only [apply]
      split <;> exact .stay
  | _ => exact .stay

/-- The result was handed to the channel by a receiver, or is the failure that
`FailAll` reports there. -/
def Replied (s : ClientState) (ch : Nat) (res : RemoteResult) : Prop :=
  Event.answered res (some ch) ∈ s.log ∨
    ∃ code, res = failedResult res.requestId code ∧ Event.failed res.requestId (some ch) ∈ s.log

theorem opened_le (cfg : Config) (s : ClientState) (action : Action) :
    s.opened ≤ (s.apply cfg action).opened := by
  have hmove := issueMove_apply cfg s action
  generalize (s.apply cfg action).issued = issued, (s.apply cfg action).opened = opened at hmove ⊢
  cases hmove with
  | stay | emulate => exact Nat.le_refl _
  | execute => exact Nat.le_succ _

theorem log_mono (henabled : s.enabled cfg action = true) : s.log ⊆ (s.apply cfg action).log := by
  have hmove := logMove_apply henabled
  generalize (s.apply cfg action).log = log at hmove ⊢
  cases hmove with
  | stay => exact List.Subset.refl _
  | _ => exact List.subset_append_left _ _

theorem Replied.step {ch : Nat} {res : RemoteResult} (h : s.Replied ch res)
    (henabled : s.enabled cfg action = true) : (s.apply cfg action).Replied ch res := by
  rcases h with hanswered | ⟨code, hres, hfailed⟩
  · exact .inl (log_mono henabled hanswered)
  · exact .inr ⟨code, hres, log_mono henabled hfailed⟩

/-- Whoever has a callback has it from the call that opened its channel. -/
structure Attributed (s : ClientState) : Prop where
  opened : ∀ reqID ch, (reqID, ⟨some ch⟩) ∈ s.issued → ch < s.opened
  channels : ∀ reqID other ch, (reqID, ⟨some ch⟩) ∈ s.issued → (other, ⟨some ch⟩) ∈ s.issued →
    reqID = other
  carried : ∀ p x, (s.caller p).carries = some x → x ∈ s.issued
  awaited : ∀ p env ch, s.caller p = .wait env ch → (env.requestId, ⟨some ch⟩) ∈ s.issued
  held : ∀ place x, s.holds place x → x ∈ s.issued
  replied : ∀ ch res, s.respCh ch = some res → s.Replied ch res
  known : ∀ p ch, (s.caller p).channel = some ch → ch < s.opened
  alone : Sole fun p ch => (s.caller p).channel = some ch

theorem attributed_newClient : newClient.Attributed where
  opened _ _ h := absurd h List.not_mem_nil
  channels _ _ _ h := absurd h List.not_mem_nil
  carried _ _ h := by cases h
  awaited _ _ _ h := by cases h
  held place x h := by
    cases place with
    | hand => cases h
    | map =>
        rw [holds, newClient, NodeStreamer.unused, newNodeStreamer,
          ShardedCallbackMap.lookup_new] at h
        cases h
    | delivery =>
        obtain ⟨_, _, hdelivering, _⟩ := h
        cases hdelivering
    | log =>
        obtain ⟨_, hevent, _⟩ := h
        cases hevent
  replied _ _ h := by cases h
  known _ _ h := by cases h
  alone _ _ _ h := by cases h

/-- A caller gets the channel that its call opens, and no other. -/
theorem channel_back (henabled : s.enabled cfg action = true) {p ch : Nat}
    (hch : ((s.apply cfg action).caller p).channel = some ch) :
    (s.caller p).channel = some ch ∨ (∃ env, action = .execute p env) ∧ ch = s.opened := by
  have hmove : CallerMove s action p _ := callerMove_apply henabled p
  generalize (s.apply cfg action).caller p = c at hmove hch
  cases hmove with
  | stay => exact .inl hch
  | execute env haction =>
      cases hch
      exact .inr ⟨⟨env, haction⟩, rfl⟩
  | resolved _ _ _ hp | unresolved _ _ _ hp | go _ _ _ hp | refused _ _ hp | retry _ _ _ hp
  | surrender _ _ _ hp =>
      rw [hp]
      exact .inl hch
  | enqueue d a _ hp =>
      obtain ⟨env, ⟨_ | ch'⟩, targetIP, attempts⟩ := d
      · cases hch
      · rw [hp]
        exact .inl hch
  | _ => cases hch

namespace Attributed

theorem carried_step (h : s.Attributed) (henabled : s.enabled cfg action = true) {p : Nat}
    {x : UInt64 × CallbackEntry} (hcarries : ((s.apply cfg action).caller p).carries = some x) :
    x ∈ (s.apply cfg action).issued := by
  have hmove : CallerMove s action p _ := callerMove_apply henabled p
  generalize (s.apply cfg action).caller p = c at hmove hcarries
  cases hmove with
  | stay => exact Settled.issued_mono (h.carried p x hcarries)
  | emulate env haction | execute env haction =>
      subst haction
      cases hcarries
      exact List.mem_append_right _ List.mem_cons_self
  | resolved _ _ _ hp | go _ _ _ hp | retry _ _ _ hp =>
      refine Settled.issued_mono (h.carried p x ?_)
      rw [hp]
      exact hcarries
  | enqueue d a =>
      obtain ⟨env, ⟨_ | ch⟩, targetIP, attempts⟩ := d <;> cases hcarries
  | _ => cases hcarries

/-- A caller begins to wait when its envelope is enqueued. -/
theorem awaited_step (h : s.Attributed) (henabled : s.enabled cfg action = true) {p ch : Nat}
    {env : RemoteEnvelope} (hwait : (s.apply cfg action).caller p = .wait env ch) :
    (env.requestId, ⟨some ch⟩) ∈ (s.apply cfg action).issued := by
  have hmove : CallerMove s action p _ := callerMove_apply henabled p
  rw [hwait] at hmove
  generalize hc : Caller.wait env ch = c at hmove
  cases hmove with
  | stay => exact Settled.issued_mono (h.awaited p env ch hc.symm)
  | enqueue d a haction hp =>
      obtain ⟨env', ⟨_ | ch'⟩, targetIP, attempts⟩ := d
      · cases hc
      · cases hc
        refine Settled.issued_mono (h.carried p _ ?_)
        rw [hp]
        rfl
  | _ => cases hc

theorem held_step (h : s.Attributed) (henabled : s.enabled cfg action = true)
    {place : CallbackPlace} {x : UInt64 × CallbackEntry}
    (hholds : (s.apply cfg action).holds place x) : x ∈ (s.apply cfg action).issued := by
  rcases holds_back henabled hholds with hold | harrival
  · exact Settled.issued_mono (h.held place x hold)
  cases harrival with
  | emulate p env haction | execute p env haction =>
      subst haction
      exact List.mem_append_right _ List.mem_cons_self
  | store p d a _ hp | drop p d a _ hp =>
      refine Settled.issued_mono (h.carried p _ ?_)
      rw [hp]
      rfl
  | answer a res rest _ _ hlookup | take a res rest ch _ _ hlookup
  | fail a code i reqID entry _ _ hlookup =>
      exact Settled.issued_mono (h.held (.map a) _ hlookup)
  | deliver a res ch rest _ hreceiver =>
      refine Settled.issued_mono (h.held (.delivery a) _ ⟨res, ch, ?_, rfl⟩)
      rw [hreceiver]
      rfl

theorem replied_step (h : s.Attributed) (henabled : s.enabled cfg action = true) {ch : Nat}
    {res : RemoteResult} (hres : (s.apply cfg action).respCh ch = some res) :
    (s.apply cfg action).Replied ch res := by
  have hmove := replyMove_apply cfg s action ch
  rw [hres] at hmove
  generalize hreply : some res = reply at hmove
  cases hmove with
  | stay => exact (h.replied ch res hreply.symm).step henabled
  | read => cases hreply
  | deliver a res' rest haction =>
      cases hreply
      subst haction
      exact .inl (List.mem_append_right _ List.mem_cons_self)
  | fail a code i reqID haction =>
      cases hreply
      subst haction
      exact .inr ⟨code, rfl, List.mem_append_right _ List.mem_cons_self⟩

/-- A new channel is one that no call has. -/
theorem step (h : s.Attributed) (henabled : s.enabled cfg action = true) :
    (s.apply cfg action).Attributed where
  opened reqID ch hch := by
    have hmove := issueMove_apply cfg s action
    generalize (s.apply cfg action).issued = issued, (s.apply cfg action).opened = opened
      at hmove hch ⊢
    cases hmove with
    | stay => exact h.opened reqID ch hch
    | emulate p env =>
        rcases List.mem_append.mp hch with hold | hnew
        · exact h.opened reqID ch hold
        · cases List.mem_singleton.mp hnew
    | execute p env =>
        rcases List.mem_append.mp hch with hold | hnew
        · exact Nat.lt_succ_of_lt (h.opened reqID ch hold)
        · cases List.mem_singleton.mp hnew
          exact Nat.lt_succ_self _
  channels reqID other ch hreq hother := by
    have hmove := issueMove_apply cfg s action
    generalize (s.apply cfg action).issued = issued, (s.apply cfg action).opened = opened
      at hmove hreq hother
    cases hmove with
    | stay => exact h.channels reqID other ch hreq hother
    | emulate p env =>
        have hold {r : UInt64} (hr : (r, ⟨some ch⟩) ∈ s.issued ++ [(env.requestId, ⟨none⟩)]) :
            (r, ⟨some ch⟩) ∈ s.issued := by
          refine (List.mem_append.mp hr).resolve_right fun hnew => ?_
          cases List.mem_singleton.mp hnew
        exact h.channels reqID other ch (hold hreq) (hold hother)
    | execute p env =>
        rcases List.mem_append.mp hreq with hreq | hreq <;>
          rcases List.mem_append.mp hother with hother | hother
        · exact h.channels reqID other ch hreq hother
        · cases List.mem_singleton.mp hother
          exact absurd (h.opened reqID _ hreq) (Nat.lt_irrefl _)
        · cases List.mem_singleton.mp hreq
          exact absurd (h.opened other _ hother) (Nat.lt_irrefl _)
        · cases List.mem_singleton.mp hreq
          cases List.mem_singleton.mp hother
          rfl
  carried p x hcarries := h.carried_step henabled hcarries
  awaited p env ch hwait := h.awaited_step henabled hwait
  held place x hholds := h.held_step henabled hholds
  replied ch res hres := h.replied_step henabled hres
  known p ch hch := by
    rcases channel_back henabled hch with hold | ⟨⟨env, rfl⟩, rfl⟩
    · exact Nat.lt_of_lt_of_le (h.known p ch hold) (opened_le cfg s action)
    · exact Nat.lt_succ_self _
  alone := by
    by_cases hexecute : ∃ p env, action = .execute p env
    · obtain ⟨p, env, rfl⟩ := hexecute
      refine h.alone.arrive s.opened p (fun q ch hch => ?_) fun q hq => ?_
      · rcases channel_back henabled hch with hold | ⟨⟨_, haction⟩, hopened⟩
        · exact .inl hold
        · cases haction
          exact .inr ⟨rfl, hopened⟩
      · exact absurd (h.known q _ hq) (Nat.lt_irrefl _)
    · refine h.alone.mono fun q ch hch => ?_
      exact (channel_back henabled hch).resolve_right fun ⟨⟨env, haction⟩, _⟩ =>
        hexecute ⟨q, env, haction⟩

/-- A reply uses up a callback, so it is for the request that opened the channel. -/
theorem issued_of_replied (h : s.Attributed) {ch : Nat} {res : RemoteResult}
    (hreplied : s.Replied ch res) : (res.requestId, ⟨some ch⟩) ∈ s.issued := by
  rcases hreplied with hanswered | ⟨code, _, hfailed⟩
  · exact h.held .log _ ⟨_, hanswered, rfl⟩
  · exact h.held .log _ ⟨_, hfailed, rfl⟩

end Attributed

end ClientState

theorem attributed_of_reachable {cfg : Config} {s : ClientState} (hs : (client cfg).Reachable s) :
    s.Attributed := by
  refine System.Reachable.invariant (P := ClientState.Attributed) ?_ ?_ hs
  · exact ClientState.attributed_newClient
  · rintro s action t h hstep
    obtain ⟨henabled, rfl⟩ := System.guarded_step_eq_some_iff.mp hstep
    exact h.step henabled

/-- A caller that waits is the only one on its channel, and finds there only results of its
own request: the one that a receiver has handed to it, or a failure that `FailAll` has
reported. -/
theorem reply_is_own {cfg : Config} {s : ClientState} (hs : (client cfg).Reachable s) {p ch : Nat}
    {env : RemoteEnvelope} (hwait : s.caller p = .wait env ch) :
    (∀ q other, s.caller q = .wait other ch → q = p) ∧
    ∀ res, s.respCh ch = some res → res.requestId = env.requestId ∧
      (Event.answered res (some ch) ∈ s.log ∨
        ∃ code, res = failedResult env.requestId code ∧
          Event.failed env.requestId (some ch) ∈ s.log) := by
  have h := attributed_of_reachable hs
  refine ⟨fun q other hq => ?_, fun res hres => ?_⟩
  · exact h.alone q p ch (congrArg Caller.channel hq) (congrArg Caller.channel hwait)
  · have hreplied := h.replied ch res hres
    have hown : res.requestId = env.requestId :=
      h.channels _ _ ch (h.issued_of_replied hreplied) (h.awaited p env ch hwait)
    rw [← hown]
    exact ⟨rfl, hreplied⟩

/-- A request is sent, and its result is handed to the caller. -/
def answering : List Action :=
  [.execute 0 (request 1), .resolve 0 (request 1) ⟨some 0⟩ (.ok targetA), .load 0 waitingAttempt,
    .lock 0 waitingAttempt, .reload 0 waitingAttempt, .create 0 waitingAttempt true,
    .publish 0 waitingAttempt 0, .store 0 waitingAttempt 0, .enqueue 0 waitingAttempt 0,
    .take 0 [] (request 1) [], .send 0 [request 1] false, .recv 0 [appliedResult],
    .tally 0 appliedResult [], .demux 0 appliedResult [], .deliver 0 appliedResult 0 []]

theorem reply_is_own_answering :
    ((client singles).after answering).respCh 0 = some appliedResult ∧
      appliedResult.requestId = (request 1).requestId := by
  have hreply : ((client singles).after answering).respCh 0 = some appliedResult := by
    decide +kernel
  have hwait : ((client singles).after answering).caller 0 = .wait (request 1) 0 := by
    decide +kernel
  exact ⟨hreply, ((reply_is_own (System.reachable_after answering) hwait).2 _ hreply).1⟩

end ActorCluster.Client
