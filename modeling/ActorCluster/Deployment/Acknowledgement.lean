import ActorCluster.Deployment.Conveyance

/-! # What a gateway acknowledges

A result that reports success is made by an execution that has written the event of
its request, or by one that finds the transaction id in its cache. So the handler of
the request answers with success only if the event was written.
-/

namespace ActorCluster.Client

open Remote

/-- Only a result that reports success is answered with 200. -/
theorem success_of_status {req : ExecuteRequest} {reqID : UInt64} {res : RemoteResult}
    (h : (executeResponse req reqID res).status = 200) : res.success = true := by
  by_contra hfailure
  have hstatus : (executeResponse req reqID res).status = mapErrorToHTTPStatus res.errorCode :=
    if_neg hfailure
  rw [hstatus] at h
  unfold mapErrorToHTTPStatus at h
  split at h <;> cases h

end ActorCluster.Client

namespace ActorCluster.Deployment

open Remote Wallet Transition Client Node ActorCluster.Runtime

variable {clientCfg : MachineID → Client.Config} {nodeCfg : String → Node.Config} {w : World}

namespace World

/-- A result that reports success is for a request whose event was written. -/
def Backed (w : World) (res : RemoteResult) : Prop :=
  res.success = true → ∃ stream, ∃ env ∈ w.received stream,
    routeKey env = resultKey res ∧ w.Wrote env

/-- The answer of a gateway that reports success is for an event that was written. -/
def Acknowledged (w : World) (response : ExecuteResponse) : Prop :=
  response.status = 200 → ∃ row ∈ w.written ⟨1, response.uid⟩,
    row.txID = response.requestID ∧ row.deltaAmount = response.amount

theorem Backed.step {res : RemoteResult} (h : w.Backed res) (action : WorldAction) :
    (w.apply clientCfg nodeCfg action).Backed res := by
  intro hsuccess
  obtain ⟨stream, env, henv, hkey, row, hrow, hrest⟩ := h hsuccess
  exact ⟨stream, env, received_mono action stream henv, hkey, row, written_mono action _ hrow,
    hrest⟩

theorem Acknowledged.step {response : ExecuteResponse} (h : w.Acknowledged response)
    (action : WorldAction) : (w.apply clientCfg nodeCfg action).Acknowledged response := by
  intro hstatus
  obtain ⟨row, hrow, hrest⟩ := h hstatus
  exact ⟨row, written_mono action _ hrow, hrest⟩

/-- An execution reports success only if the event of its request was written. -/
theorem backed_execute (hr : w.Recorded) (hc : w.Carried) (hw : w.Issuing) {ip : String} {a : Nat}
    {env : RemoteEnvelope} {now : Int} {outcome : WriteOutcome}
    (hloop : ((w.node ip).actor a).loop = .execute env now) :
    (w.apply clientCfg nodeCfg (.node ip (.execute a env now outcome))).Backed
      (completeResult (((w.node ip).actor a).state.handle
        (w.db.wallet ((w.node ip).actor a).key) env now outcome).result env) := by
  intro hsuccess
  have haddressed := (hc.served ip).wellformed.addressed a
  have henv : actorKey env = ((w.node ip).actor a).key :=
    haddressed.inHand env (by rw [hloop]; rfl)
  obtain ⟨sender, harrived⟩ := (hr.founded ip).arrived_of_execute hloop
  obtain ⟨stream, _, hreceived⟩ := hc.arrived ip env sender harrived
  refine ⟨stream, env, hreceived, (resultKey_execute haddressed henv _ now outcome).symm, ?_⟩
  rw [Wrote, henv]
  rcases success_execute hsuccess with ⟨hadmits, rfl⟩ | hcached
  · exact ⟨_, mem_recording.mpr (.inr (writes_execute hadmits rfl)), rfl, rfl⟩
  · -- the event that the cache stands for is that of the same request
    obtain ⟨row, hrow, htxID⟩ := hr.cached ip a env.txId hcached
    obtain ⟨source, env', henv', _, htxId', hamount⟩ := hr.origin _ row hrow
    have hsame := hc.eq_of_txId hw henv' hreceived (htxId'.symm.trans htxID)
    exact ⟨row, mem_recording.mpr (.inl hrow), htxID, hsame ▸ hamount⟩

/-- What the nodes make is backed. -/
theorem makes_backed (hr : w.Recorded) (hc : w.Carried) (hw : w.Issuing) {action : WorldAction}
    (henabled : w.enabled clientCfg nodeCfg action = true) :
    w.Makes clientCfg nodeCfg action (w.apply clientCfg nodeCfg action).Backed := by
  refine makes_of_node fun ip action' haction res hres => ?_
  subst haction
  obtain ⟨_, henabled⟩ := of_enabled_node henabled
  rcases NodeState.produced_back (hr.founded ip).refusals henabled hres with
    hold | hfailure | ⟨a, env, now, outcome, rfl, rfl⟩
  · exact .inl hold
  · exact .inr fun hsuccess => absurd (hfailure.symm.trans hsuccess) Bool.false_ne_true
  · exact .inr (backed_execute hr hc hw (of_decide_eq_true henabled))

/-- An answer with 200 is for an event that was written. -/
theorem acknowledged_of_backed (hbacked : w.Conveyed w.Backed) (hc : w.Carried) (hw : w.Issuing)
    {machineID : MachineID} {req : ExecuteRequest} {reqID : UInt64} {res : RemoteResult} {ch : Nat}
    (hbegun : (Job.execute req).envelope reqID ∈ (w.gateway machineID).begun)
    (hres : (w.gateway machineID).client.respCh ch = some res) (hid : res.requestId = reqID) :
    w.Acknowledged (executeResponse req reqID res) := by
  intro hstatus
  obtain ⟨stream, env, henv, hkey, row, hrow, htxID, hamount⟩ :=
    hbacked.held machineID ch res hres (success_of_status hstatus)
  obtain rfl := eq_of_resultKey hc hw henv hkey hbegun hid
  exact ⟨row, hrow, htxID, hamount.trans (decodeAmount_envelope (.execute req) reqID)⟩

/-- The results on their way are backed, and so are the answers. -/
structure Vouched (w : World) : Prop where
  results : w.Conveyed w.Backed
  responses : ∀ machineID, ∀ response ∈ (w.gateway machineID).responses, w.Acknowledged response

theorem Vouched.step (h : w.Vouched) (hr : w.Recorded) (hc : w.Carried) (hw : w.Issuing)
    {action : WorldAction} (henabled : w.enabled clientCfg nodeCfg action = true) :
    (w.apply clientCfg nodeCfg action).Vouched where
  results := by
    refine (h.results.mono fun res hres => hres.step action).step hr hc hw ?_ henabled
      (makes_backed hr hc hw henabled)
    exact fun _ _ _ hsuccess => absurd hsuccess Bool.false_ne_true
  responses := by
    refine responses_step (fun m response hresponse => ?_) ?_
    · exact (h.responses m response hresponse).step action
    · rintro m action' rfl response hresponse
      simp only [enabled, Bool.and_eq_true] at henabled
      rcases response_back hw henabled.1 hresponse with
        hold | ⟨req, reqID, res, rfl, hbegun, ⟨ch, hres, hid⟩ | ⟨hfailure, _⟩⟩
      · exact h.responses m response hold
      · exact acknowledged_of_backed h.results hc hw hbegun hres hid
      · exact fun hstatus =>
          absurd (hfailure.symm.trans (success_of_status hstatus)) Bool.false_ne_true

end World

theorem vouched_of_reachable
    (hw : (deployment clientCfg nodeCfg).ReachableIf World.InSequence w) : w.Vouched := by
  refine hw.invariant_of (fun w hw => And.intro (recorded_of_reachable hw)
    (And.intro (carried_of_reachable hw) (issuing_of_reachable hw)))
    ⟨World.conveyed_newWorld _, fun _ _ h => (nomatch h)⟩ ?_
  rintro w action t ⟨hrecorded, hcarried, hissuing⟩ h _ hstep
  obtain ⟨henabled, rfl⟩ := System.guarded_step_eq_some_iff.mp hstep
  exact h.step hrecorded hcarried hissuing henabled

/-- In every run of the deployment, if `handleExecute` has answered a user with 200, then one
event was written for the wallet of the user, with the transaction id that the answer names
and the amount that was asked for. -/
theorem acknowledged_written
    (hw : (deployment clientCfg nodeCfg).ReachableIf World.InSequence w) {machineID : MachineID}
    {response : ExecuteResponse} (hresponse : response ∈ (w.gateway machineID).responses)
    (hstatus : response.status = 200) :
    (∃ row ∈ w.written ⟨1, response.uid⟩,
      row.txID = response.requestID ∧ row.deltaAmount = response.amount) ∧
    ((w.written ⟨1, response.uid⟩).map EventRow.txID).count response.requestID = 1 := by
  obtain ⟨row, hrow, htxID, hamount⟩ :=
    (vouched_of_reachable hw).responses machineID response hresponse hstatus
  refine ⟨⟨row, hrow, htxID, hamount⟩, ?_⟩
  have honce := (recorded_of_reachable hw).once ⟨1, response.uid⟩
  exact List.count_eq_one_of_mem honce (htxID ▸ List.mem_map_of_mem hrow)

/-- The receiver hands the result to the call, which returns it. -/
def reception : List GatewayAction :=
  [.client (.recv 0 [transferResult]), .client (.tally 0 transferResult []),
    .client (.demux 0 transferResult []), .client (.deliver 0 transferResult 0 []),
    .client (.receive 0 transferEnvelope 0 transferResult)]

def answered : List WorldAction := transferred ++ reception.map (.gateway transferGateway)

def transferResponse : ExecuteResponse where
  status := 200
  success := true
  requestID := "281474976710657"
  uid := 42
  amount := 100
  errorCode := none
  errorMsg := ""
  balance := some 100

theorem acknowledged_written_answered :
    ((standard.after answered).gateway transferGateway).responses = [transferResponse] ∧
      ∃ row ∈ (standard.after answered).written ⟨1, 42⟩,
        row.txID = "281474976710657" ∧ row.deltaAmount = 100 := by
  have hreachable : standard.ReachableIf World.InSequence (standard.after answered) :=
    System.reachableIf_of_admits (by decide +kernel)
  have hresponses : ((standard.after answered).gateway transferGateway).responses =
      [transferResponse] := by decide +kernel
  refine ⟨hresponses, ?_⟩
  exact (acknowledged_written hreachable (hresponses ▸ List.mem_singleton_self _) rfl).1

end ActorCluster.Deployment
