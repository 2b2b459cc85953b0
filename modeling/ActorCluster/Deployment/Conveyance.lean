import ActorCluster.Deployment.Durability

/-! # Results on their way

A node makes a result, puts it on its result channel and sends it on the stream. A
receiver takes it from there, finds the callback of the request and hands the result
to the response channel of the call. The handler of the request answers its user with
what the call returns. Whatever is true of all results that the nodes make, and of the
failures that the router makes itself, is therefore true of what the handlers see.
-/

namespace ActorCluster.Client

open Remote

/-- A call returns what it finds on its channel, or a failure of the router. -/
theorem Action.returned_cases {action : Action} {p : Nat} {res : RemoteResult}
    (h : action.returned = some (p, res)) :
    (∃ env ch, action = .receive p env ch res) ∨
      ∃ env code msg, res = syntheticResult env code msg ∧
        (code = .deadlineExceeded ∨ ∃ entry, action = .giveUp p env entry code msg) := by
  unfold Action.returned at h
  split at h <;> cases h
  · exact .inl ⟨_, _, rfl⟩
  · exact .inr ⟨_, _, _, rfl, .inr ⟨_, rfl⟩⟩
  · exact .inr ⟨_, _, _, rfl, .inl rfl⟩

/-- An answer is written for the handler whose call has returned. -/
theorem GatewayState.responses_answer {s : GatewayState} {outcome : Option (Nat × RemoteResult)}
    {response : ExecuteResponse} (h : response ∈ (s.answer outcome).responses) :
    response ∈ s.responses ∨ ∃ p res req reqID, outcome = some (p, res) ∧
      s.handler p = .calling req reqID ∧ response = executeResponse req reqID res := by
  unfold answer at h
  split at h
  · exact .inl h
  next p res =>
    split at h
    next req reqID hp =>
      rcases List.mem_append.mp h with hold | hnew
      · exact .inl hold
      · exact .inr ⟨p, res, req, reqID, rfl, hp, List.mem_singleton.mp hnew⟩
    next => exact .inl h

end ActorCluster.Client

namespace ActorCluster.Deployment

open Remote Wallet Transition Client Node ActorCluster.Runtime

variable {clientCfg : MachineID → Client.Config} {nodeCfg : String → Node.Config} {w : World}
variable {cfg : Client.Config}

namespace World

/-- The predicate holds of every result, wherever it is on its way. -/
structure Conveyed (w : World) (P : RemoteResult → Prop) : Prop where
  produced : ∀ ip, ∀ res ∈ (w.node ip).produced, P res
  down : ∀ sender, ∀ results ∈ w.down sender, ∀ res ∈ results, P res
  pending : ∀ machineID a, ∀ res ∈ ((w.gateway machineID).client.streamer a).receiver.pending,
    P res
  held : ∀ machineID ch res, (w.gateway machineID).client.respCh ch = some res → P res

theorem conveyed_newWorld (P : RemoteResult → Prop) : newWorld.Conveyed P where
  produced _ _ h := by cases h
  down _ _ h := by cases h
  pending _ _ _ h := by cases h
  held _ _ _ h := by cases h

/-- What a node makes in a step. -/
def Makes (clientCfg : MachineID → Client.Config) (nodeCfg : String → Node.Config) (w : World)
    (action : WorldAction) (P : RemoteResult → Prop) : Prop :=
  ∀ ip, ∀ res ∈ ((w.apply clientCfg nodeCfg action).node ip).produced,
    res ∈ (w.node ip).produced ∨ P res

/-- Only a node that takes a step makes results. -/
theorem makes_of_node {action : WorldAction} {P : RemoteResult → Prop}
    (h : ∀ ip action', action = .node ip action' →
      ∀ res ∈ ((w.node ip).apply (nodeCfg ip) w.db action').produced,
        res ∈ (w.node ip).produced ∨ P res) : w.Makes clientCfg nodeCfg action P := by
  intro jp res hres
  cases action with
  | gateway | land | sever => exact .inl hres
  | accept ip stream batch =>
      change res ∈ (Function.update w.node ip _ jp).produced at hres
      by_cases hjp : jp = ip
      · subst hjp
        rw [Function.update_self] at hres
        exact .inl hres
      · rw [Function.update_of_ne hjp] at hres
        exact .inl hres
  | node ip action =>
      change res ∈ (Function.update w.node ip _ jp).produced at hres
      by_cases hjp : jp = ip
      · subst hjp
        rw [Function.update_self] at hres
        exact h jp action rfl res hres
      · rw [Function.update_of_ne hjp] at hres
        exact .inl hres
  | crash ip =>
      change res ∈ (Function.update w.node ip newNode jp).produced at hres
      by_cases hjp : jp = ip
      · subst hjp
        rw [Function.update_self] at hres
        cases hres
      · rw [Function.update_of_ne hjp] at hres
        exact .inl hres

namespace Conveyed

variable {P : RemoteResult → Prop}

theorem mono {Q : RemoteResult → Prop} (h : w.Conveyed P) (hPQ : ∀ res, P res → Q res) :
    w.Conveyed Q where
  produced ip res hres := hPQ res (h.produced ip res hres)
  down sender results hresults res hres := hPQ res (h.down sender results hresults res hres)
  pending machineID a res hres := hPQ res (h.pending machineID a res hres)
  held machineID ch res hres := hPQ res (h.held machineID ch res hres)

/-- A step of the router passes on what it was given. -/
theorem router (h : w.Conveyed P) (hw : w.Issuing)
    (hfailed : ∀ reqID code, fromClient code = true → P (failedResult reqID code))
    {machineID : MachineID} {action : Client.Action}
    (henabled : (w.gateway machineID).client.enabled cfg action = true)
    (hrecv : ∀ a results, action = .recv a results →
      (w.down (streamID (machineID, a))).head? = some results) :
    (∀ a, ∀ res ∈
      (((w.gateway machineID).client.apply cfg action).streamer a).receiver.pending,
      P res) ∧
    ∀ ch res, ((w.gateway machineID).client.apply cfg action).respCh ch = some res →
      P res := by
  constructor
  · intro a res hres
    rcases ClientState.pending_back henabled hres with hold | ⟨results, haction, hmem⟩
    · exact h.pending machineID a res hold
    · exact h.down _ results (List.mem_of_head? (hrecv a results haction)) res hmem
  · intro ch res hres
    have hmove := ClientState.replyMove_apply cfg (w.gateway machineID).client action ch
    rw [hres] at hmove
    generalize hreply : some res = reply at hmove
    cases hmove with
    | stay => exact h.held machineID ch res hreply.symm
    | read => cases hreply
    | deliver a res' rest haction =>
        cases hreply
        subst haction
        simp only [ClientState.enabled, Bool.and_eq_true, decide_eq_true_eq] at henabled
        refine h.pending machineID a res ?_
        rw [henabled.1]
        exact List.mem_cons_self
    | fail a code i reqID haction =>
        cases hreply
        subst haction
        simp only [ClientState.enabled, Bool.and_eq_true, decide_eq_true_eq] at henabled
        refine hfailed reqID code ((hw.codes machineID).failures a code ?_)
        rw [henabled.1.1.1]
        rfl

/-- What a process has after a step of its own. -/
theorem process (h : w.Conveyed P) (hw : w.Issuing)
    (hfailed : ∀ reqID code, fromClient code = true → P (failedResult reqID code))
    {machineID : MachineID} {action : GatewayAction}
    (henabled : (w.gateway machineID).enabled cfg action = true)
    (hprovides : w.provides machineID action = true) :
    (∀ a, ∀ res ∈
      (((w.gateway machineID).apply cfg action).client.streamer a).receiver.pending,
      P res) ∧
    ∀ ch res, ((w.gateway machineID).apply cfg action).client.respCh ch = some res →
      P res := by
  cases action with
  | draw p job => exact ⟨h.pending machineID, h.held machineID⟩
  | call p job reqID =>
      simp only [GatewayState.enabled, Bool.and_eq_true] at henabled
      refine h.router hw hfailed henabled.2 fun a results haction => ?_
      cases job <;> cases haction
  | client action =>
      simp only [GatewayState.enabled, Bool.and_eq_true] at henabled
      rw [GatewayState.apply, GatewayState.answer_client]
      refine h.router hw hfailed henabled.2 fun a results haction => ?_
      subst haction
      exact of_decide_eq_true hprovides

theorem gateway (h : w.Conveyed P) (hw : w.Issuing)
    (hfailed : ∀ reqID code, fromClient code = true → P (failedResult reqID code))
    {machineID : MachineID} {action : GatewayAction}
    (henabled : (w.gateway machineID).enabled (clientCfg machineID) action = true)
    (hprovides : w.provides machineID action = true) :
    (w.apply clientCfg nodeCfg (.gateway machineID action)).Conveyed P := by
  obtain ⟨hpending, hheld⟩ := h.process hw hfailed henabled hprovides
  have hself : (w.apply clientCfg nodeCfg (.gateway machineID action)).gateway machineID =
      (w.gateway machineID).apply (clientCfg machineID) action := Function.update_self _ _ _
  have hother {other : MachineID} (hne : other ≠ machineID) :
      (w.apply clientCfg nodeCfg (.gateway machineID action)).gateway other = w.gateway other :=
    Function.update_of_ne hne _ _
  refine ⟨h.produced, fun sender results hresults => ?_, fun other => ?_, fun other => ?_⟩
  · exact h.down sender results (receiving_back hresults)
  · by_cases hne : other = machineID
    · rw [hne, hself]
      exact hpending
    · rw [hother hne]
      exact h.pending other
  · by_cases hne : other = machineID
    · rw [hne, hself]
      exact hheld
    · rw [hother hne]
      exact h.held other

/-- A node sends only results that it has made. -/
theorem node (h : w.Conveyed P) (hr : w.Recorded) (hc : w.Carried) {ip : String}
    {action : Node.Action} (harrive : ∀ p sender batch, action ≠ .arrive p sender batch)
    (henabled : (w.node ip).enabled (nodeCfg ip) action = true)
    (hmakes : w.Makes clientCfg nodeCfg (.node ip action) P) :
    (w.apply clientCfg nodeCfg (.node ip action)).Conveyed P := by
  have hproduced (jp : String) (res : RemoteResult)
      (hres : res ∈ ((w.apply clientCfg nodeCfg (.node ip action)).node jp).produced) : P res :=
    (hmakes jp res hres).elim (h.produced jp res) id
  refine ⟨hproduced, fun sender results hresults res hres => ?_, h.pending, h.held⟩
  rcases responding_back hresults with hold | ⟨rest, last, rfl⟩
  · exact h.down sender results hold res hres
  · have hself : (w.apply clientCfg nodeCfg (.node ip (.respond (sender, results) rest last))).node
        ip = (w.node ip).apply (nodeCfg ip) w.db (.respond (sender, results) rest last) :=
      Function.update_self _ _ _
    have hserved : ((w.node ip).apply (nodeCfg ip) w.db
        (.respond (sender, results) rest last)).Served :=
      (hc.served ip).step henabled (freshRequests_of_not_arrive harrive)
    have hsent : (sender, results) ∈
        ((w.node ip).apply (nodeCfg ip) w.db (.respond (sender, results) rest last)).sent :=
      List.mem_append_right _ (List.mem_singleton_self _)
    refine hproduced ip res ?_
    rw [hself]
    exact ((hr.founded ip).step henabled).queued _ (hserved.sent_subset_put (mem_unpack hsent hres))

theorem step (h : w.Conveyed P) (hr : w.Recorded) (hc : w.Carried) (hw : w.Issuing)
    (hfailed : ∀ reqID code, fromClient code = true → P (failedResult reqID code))
    {action : WorldAction} (henabled : w.enabled clientCfg nodeCfg action = true)
    (hmakes : w.Makes clientCfg nodeCfg action P) :
    (w.apply clientCfg nodeCfg action).Conveyed P := by
  have hmade (ip : String) (res : RemoteResult)
      (hres : res ∈ ((w.apply clientCfg nodeCfg action).node ip).produced) : P res :=
    (hmakes ip res hres).elim (h.produced ip res) id
  cases action with
  | gateway machineID action =>
      simp only [enabled, Bool.and_eq_true] at henabled
      exact h.gateway hw hfailed henabled.1 henabled.2
  | node ip action =>
      obtain ⟨harrive, henabled⟩ := of_enabled_node henabled
      exact h.node hr hc harrive henabled hmakes
  | accept | land | crash => exact ⟨hmade, h.down, h.pending, h.held⟩
  | sever stream =>
      refine ⟨hmade, fun sender results hresults => ?_, h.pending, h.held⟩
      change results ∈ Function.update w.down (streamID stream) [] sender at hresults
      by_cases hsender : sender = streamID stream
      · subst hsender
        rw [Function.update_self] at hresults
        cases hresults
      · rw [Function.update_of_ne hsender] at hresults
        exact h.down sender results hresults

end Conveyed

/-- A result with the id of a request is for that request. -/
theorem eq_of_resultKey (hc : w.Carried) (hw : w.Issuing) {stream : Stream}
    {env env' : RemoteEnvelope} (henv : env ∈ w.received stream) {res : RemoteResult}
    (hkey : routeKey env = resultKey res) {machineID : MachineID}
    (hbegun : env' ∈ (w.gateway machineID).begun) (hid : res.requestId = env'.requestId) :
    env = env' := by
  have hrequest : env.requestId = res.requestId := congrArg ResultRouteKey.req hkey
  exact (hw.begun_unique (hw.begun (hc.sent_of_received henv)) hbegun (hrequest.trans hid)).2

/-- An answer of a handler is for its own request. What it reports came on the channel of the
call, or is a failure of the router. -/
theorem response_back (hw : w.Issuing) {machineID : MachineID} {action : GatewayAction}
    (henabled : (w.gateway machineID).enabled cfg action = true) {response : ExecuteResponse}
    (hresponse : response ∈ ((w.gateway machineID).apply cfg action).responses) :
    response ∈ (w.gateway machineID).responses ∨ ∃ req reqID res,
      response = executeResponse req reqID res ∧
      (Job.execute req).envelope reqID ∈ (w.gateway machineID).begun ∧
      ((∃ ch, (w.gateway machineID).client.respCh ch = some res ∧ res.requestId = reqID) ∨
        res.success = false ∧ ∃ code, res.errorCode = some code ∧ fromClient code = true) := by
  cases action with
  | draw | call => exact .inl hresponse
  | client action =>
      simp only [GatewayState.enabled, Bool.and_eq_true] at henabled
      rcases GatewayState.responses_answer hresponse with
        hold | ⟨p, res, req, reqID, hreturned, hcalling, rfl⟩
      · exact .inl hold
      obtain ⟨henvelope, _⟩ := (hw.confined machineID).calls p req reqID hcalling
      refine .inr ⟨req, reqID, res, rfl, (hw.confined machineID).callers p _ henvelope, ?_⟩
      rcases Action.returned_cases hreturned with ⟨env, ch, rfl⟩ | ⟨env, code, msg, rfl, hcode⟩
      · have hboth := henabled.2
        simp only [ClientState.enabled, Bool.and_eq_true, decide_eq_true_eq] at hboth
        obtain ⟨hwait, hres⟩ := hboth
        rw [hwait] at henvelope
        obtain rfl : env = (Job.execute req).envelope reqID := Option.some.inj henvelope
        -- whoever has put a result on the channel has it for the request that opened it
        have hreplied := (hw.attributed machineID).issued_of_replied
          ((hw.attributed machineID).replied ch res hres)
        exact .inl ⟨ch, hres, (hw.attributed machineID).channels _ _ ch hreplied
          ((hw.attributed machineID).awaited p _ ch hwait)⟩
      · refine .inr ⟨rfl, code, rfl, ?_⟩
        rcases hcode with rfl | ⟨entry, rfl⟩
        · rfl
        · exact (hw.codes machineID).callers p env entry code msg (of_decide_eq_true henabled.2)

/-- A property of answers that steps preserve holds of all of them if it holds of each new
one. -/
theorem responses_step {P : ExecuteResponse → Prop} {action : WorldAction}
    (h : ∀ machineID, ∀ response ∈ (w.gateway machineID).responses, P response)
    (hnew : ∀ machineID action', action = .gateway machineID action' →
      ∀ response ∈ ((w.gateway machineID).apply (clientCfg machineID) action').responses,
        P response)
    (machineID : MachineID) (response : ExecuteResponse)
    (hresponse : response ∈ ((w.apply clientCfg nodeCfg action).gateway machineID).responses) :
    P response := by
  cases action with
  | gateway other action =>
      change response ∈ (Function.update w.gateway other _ machineID).responses at hresponse
      by_cases hne : machineID = other
      · subst hne
        rw [Function.update_self] at hresponse
        exact hnew machineID action rfl response hresponse
      · rw [Function.update_of_ne hne] at hresponse
        exact h machineID response hresponse
  | _ => exact h machineID response hresponse

theorem received_mono (action : WorldAction) (stream : Stream) :
    w.received stream ⊆ (w.apply clientCfg nodeCfg action).received stream := by
  cases action with
  | accept ip other batch => exact fun env henv => received_accept henv
  | _ => exact List.Subset.refl _

theorem written_mono (action : WorldAction) (key : ActorKey) :
    w.written key ⊆ (w.apply clientCfg nodeCfg action).written key := by
  cases action with
  | node ip action => exact fun row hrow => mem_recording.mpr (.inl hrow)
  | _ => exact List.Subset.refl _

end World

end ActorCluster.Deployment
