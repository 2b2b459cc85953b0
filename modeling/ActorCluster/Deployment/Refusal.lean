import ActorCluster.Deployment.Conveyance

/-! # What a gateway refuses

A failure that a user is told of may mean anything: the event of a request that has
timed out, or whose write has reported an error, may be in the table all the same. The
refusals of a node and of an actor are definite. No event was written for a request
that is refused, and none will be, so it is safe to ask again.
-/

namespace ActorCluster.Node

open Remote Wallet

/-- The codes that a node or an actor refuses a request with. -/
def refuses : ErrorCode → Bool
  | .badRequest | .wrongNode | .rehydrationFailed | .nodeOverloaded | .invalidPayload
  | .insufficientFunds => true
  | _ => false

theorem refuses_of_fromClient {code : ErrorCode} (h : Client.fromClient code = true) :
    refuses code = false := by
  cases code <;> first | rfl | cases h

/-- An admitted envelope is not refused, whatever becomes of its event. -/
theorem errorCode_execute {b : BusinessActor} {store : WalletStore} {env : RemoteEnvelope}
    {now : Int} {outcome : WriteOutcome} (hadmits : b.Admits env) {code : ErrorCode}
    (hcode : (completeResult (b.handle store env now outcome).result env).errorCode = some code) :
    refuses code = false := by
  change (b.handle store env now outcome).result.errorCode = some code at hcode
  unfold BusinessActor.handle at hcode
  dsimp only at hcode
  rw [if_neg hadmits.1, if_neg (Nat.not_lt.mpr hadmits.2.1),
    if_neg (Int64.not_lt.mpr hadmits.2.2)] at hcode
  split at hcode
  · cases hcode
    rfl
  · split at hcode <;> cases hcode

namespace NodeState

variable {n n' : NodeState}

theorem Transfer.produced_back (h : Transfer n n') {key : ResultRouteKey}
    (hkey : key ∈ n'.asked .produced) :
    key ∈ n.asked .produced ∨ ∃ place, place ≠ .produced ∧ key ∈ n.asked place := by
  have hsame (hproduced : n'.produced = n.produced) : key ∈ n.asked .produced := by
    rw [asked, ← hproduced]
    exact hkey
  cases h with
  | keep _ _ hproduced => exact .inl (hsame hproduced)
  | arrive _ _ _ _ _ _ _ hproduced => exact .inl (hsame hproduced)
  | hand _ _ _ _ _ _ _ _ hproduced => exact .inl (hsame hproduced)
  | answer giver key' hne hgiver hproduced =>
      rw [hproduced] at hkey
      rcases List.mem_append.mp hkey with hold | hnew
      · exact .inl hold
      · cases List.mem_singleton.mp hnew
        exact .inr ⟨giver, hne, hgiver.symm.subset List.mem_cons_self⟩
  | deliver _ _ _ hasked => exact .inl (hasked ▸ hkey)

/-- A new result is for a request that had none. -/
theorem Served.produced_back {cfg : Config} {db : Database} {action : Action} (h : n.Served)
    (hnext : (n.apply cfg db action).Served) (henabled : n.enabled cfg action = true)
    (hfresh : n.FreshRequests action) {res : RemoteResult}
    (hres : res ∈ (n.apply cfg db action).produced) :
    res ∈ n.produced ∨ ∃ place, place ≠ .produced ∧ resultKey res ∈ n.asked place := by
  have htransfer : Transfer n (n.apply cfg db action) :=
    transfer_apply h.wellformed henabled hfresh
  rcases htransfer.produced_back (List.mem_map_of_mem hres) with hold | hasked
  · obtain ⟨res', hres', hkey⟩ := List.mem_map.mp hold
    have hsame := List.inj_on_of_nodup_map (hnext.accounted.asked.nodup .produced)
      (produced_mono cfg n db action hres') hres hkey
    exact .inl (hsame ▸ hres')
  · exact .inr hasked

end NodeState

end ActorCluster.Node

namespace ActorCluster.Deployment

open Remote Wallet Transition Client Node ActorCluster.Runtime

variable {clientCfg : MachineID → Client.Config} {nodeCfg : String → Node.Config} {w : World}

namespace World

/-- The request was received, is no longer in anybody's hands, and has no event. -/
structure Declined (w : World) (env : RemoteEnvelope) : Prop where
  received : ∃ stream, env ∈ w.received stream
  released : ∀ ip place, place ≠ .produced → routeKey env ∉ (w.node ip).asked place
  unwritten : ∀ row ∈ w.written (actorKey env), row.txID ≠ env.txId

/-- A refusal is for a request that is declined. -/
def Refused (w : World) (res : RemoteResult) : Prop :=
  ∀ code, res.errorCode = some code → refuses code = true →
    ∃ env, routeKey env = resultKey res ∧ w.Declined env

/-- The answer of a gateway that reports a refusal is for a request that is declined. -/
def Rejected (w : World) (response : ExecuteResponse) : Prop :=
  ∀ code, response.errorCode = some code → refuses code = true →
    ∃ env, actorKey env = ⟨1, response.uid⟩ ∧ env.txId = response.requestID ∧ w.Declined env

namespace Declined

variable {env : RemoteEnvelope}

theorem accept (h : w.Declined env) (hc : w.Carried) (hw : w.Issuing) {ip : String}
    {stream : Stream} {batch : List RemoteEnvelope} (hnext : (w.up stream).head? = some batch)
    (henabled : (w.node ip).enabled (nodeCfg ip) (arrival stream batch) = true) :
    (w.apply clientCfg nodeCfg (.accept ip stream batch)).Declined env := by
  obtain ⟨source, hsource⟩ := h.received
  refine ⟨⟨source, received_accept hsource⟩, fun jp place hplace hkey => ?_, h.unwritten⟩
  by_cases hjp : jp = ip
  · subst hjp
    have hself : (w.apply clientCfg nodeCfg (.accept jp stream batch)).node jp =
        (w.node jp).apply (nodeCfg jp) w.db (arrival stream batch) := Function.update_self _ _ _
    rw [hself] at hkey
    have htransfer : NodeState.Transfer (w.node jp)
        ((w.node jp).apply (nodeCfg jp) w.db (arrival stream batch)) :=
      NodeState.transfer_apply (hc.served jp).wellformed henabled (hc.freshRequests hw jp hnext)
    rcases htransfer.asked_back hplace hkey with
      ⟨place', hplace', hold⟩ | ⟨env', sender, harrived, hnew, hroute⟩
    · exact h.released jp place' hplace' hold
    · rw [← hself] at harrived
      have henv' := ((arrived_accept harrived).resolve_left hnew).2.1
      exact (hc.fresh hw hnext).2 env' henv' source env hsource
        (congrArg ResultRouteKey.req hroute)
  · have hother : (w.apply clientCfg nodeCfg (.accept ip stream batch)).node jp = w.node jp :=
      Function.update_of_ne hjp _ _
    rw [hother] at hkey
    exact h.released jp place hplace hkey

theorem node (h : w.Declined env) (hr : w.Recorded) (hc : w.Carried) (hw : w.Issuing)
    {ip : String} {action : Node.Action}
    (harrive : ∀ p sender batch, action ≠ .arrive p sender batch)
    (henabled : (w.node ip).enabled (nodeCfg ip) action = true) :
    (w.apply clientCfg nodeCfg (.node ip action)).Declined env := by
  obtain ⟨source, hsource⟩ := h.received
  refine ⟨⟨source, hsource⟩, fun jp place hplace hkey => ?_, fun row hrow htxID => ?_⟩
  · by_cases hjp : jp = ip
    · subst hjp
      have hself : (w.apply clientCfg nodeCfg (.node jp action)).node jp =
          (w.node jp).apply (nodeCfg jp) w.db action := Function.update_self _ _ _
      rw [hself] at hkey
      have htransfer : NodeState.Transfer (w.node jp)
          ((w.node jp).apply (nodeCfg jp) w.db action) :=
        NodeState.transfer_apply (hc.served jp).wellformed henabled
          (freshRequests_of_not_arrive harrive)
      rcases htransfer.asked_back hplace hkey with
        ⟨place', hplace', hold⟩ | ⟨env', sender, harrived, hnew, _⟩
      · exact h.released jp place' hplace' hold
      · rw [NodeState.arrived_apply _ _ _ harrive] at harrived
        exact hnew harrived
    · have hother : (w.apply clientCfg nodeCfg (.node ip action)).node jp = w.node jp :=
        Function.update_of_ne hjp _ _
      rw [hother] at hkey
      exact h.released jp place hplace hkey
  · rcases mem_recording.mp hrow with hold | hwrites
    · exact h.unwritten row hold htxID
    · -- whoever writes the event has the request in hand
      obtain ⟨env', _, htxId', _, _, ⟨sender, harrived⟩, ⟨a, hasked⟩, _⟩ :=
        hr.writing hc hw henabled hwrites
      obtain ⟨stream, _, hreceived⟩ := hc.arrived ip env' sender harrived
      have hsame := hc.eq_of_txId hw hreceived hsource (htxId'.symm.trans htxID)
      rw [hsame] at hasked
      exact h.released ip (.actor a) (nomatch ·) hasked

theorem crash (h : w.Declined env) (ip : String) :
    (w.apply clientCfg nodeCfg (.crash ip)).Declined env := by
  refine ⟨h.received, fun jp place hplace hkey => ?_, h.unwritten⟩
  change routeKey env ∈ (Function.update w.node ip newNode jp).asked place at hkey
  by_cases hjp : jp = ip
  · subst hjp
    rw [Function.update_self] at hkey
    cases place <;> cases hkey
  · rw [Function.update_of_ne hjp] at hkey
    exact h.released jp place hplace hkey

/-- Nothing becomes of a declined request any more. -/
theorem step (h : w.Declined env) (hr : w.Recorded) (hc : w.Carried) (hw : w.Issuing)
    {action : WorldAction} (henabled : w.enabled clientCfg nodeCfg action = true) :
    (w.apply clientCfg nodeCfg action).Declined env := by
  cases action with
  | accept ip stream batch =>
      simp only [enabled, Bool.and_eq_true, decide_eq_true_eq] at henabled
      exact h.accept hc hw henabled.1.1.2 henabled.2
  | node ip action =>
      obtain ⟨harrive, henabled⟩ := of_enabled_node henabled
      exact h.node hr hc hw harrive henabled
  | crash ip => exact h.crash ip
  | gateway | land | sever => exact ⟨h.received, h.released, h.unwritten⟩

end Declined

/-- A node that refuses a request declines it. -/
theorem refused_of_produced (hr : w.Recorded) (hc : w.Carried) (hw : w.Issuing) {ip : String}
    {action : Node.Action} (harrive : ∀ p sender batch, action ≠ .arrive p sender batch)
    (henabled : (w.node ip).enabled (nodeCfg ip) action = true) {res : RemoteResult}
    (hres : res ∈ ((w.node ip).apply (nodeCfg ip) w.db action).produced) {place : Place}
    (hplace : place ≠ .produced) (hasked : resultKey res ∈ (w.node ip).asked place) :
    (w.apply clientCfg nodeCfg (.node ip action)).Refused res := by
  intro code hcode hrefuses
  have hserved : ((w.node ip).apply (nodeCfg ip) w.db action).Served :=
    (hc.served ip).step henabled (freshRequests_of_not_arrive harrive)
  obtain ⟨⟨env, sender⟩, harrived, hroute⟩ :=
    List.mem_map.mp ((hc.served ip).accounted.known place _ hasked)
  obtain ⟨stream, _, hreceived⟩ := hc.arrived ip env sender harrived
  have hmade : routeKey env ∈ ((w.node ip).apply (nodeCfg ip) w.db action).asked .produced := by
    rw [hroute]
    exact List.mem_map_of_mem hres
  refine ⟨env, hroute, ⟨stream, hreceived⟩, fun jp other hother hkey => ?_,
    fun row hrow htxID => ?_⟩
  · by_cases hjp : jp = ip
    · subst hjp
      have hself : (w.apply clientCfg nodeCfg (.node jp action)).node jp =
          (w.node jp).apply (nodeCfg jp) w.db action := Function.update_self _ _ _
      rw [hself] at hkey
      exact hserved.accounted.asked.notMem hkey hother hmade
    · have hsame : (w.apply clientCfg nodeCfg (.node ip action)).node jp = w.node jp :=
        Function.update_of_ne hjp _ _
      rw [hsame] at hkey
      obtain ⟨arrival, hmem, heq⟩ := List.mem_map.mp ((hc.served jp).accounted.known other _ hkey)
      exact hc.apart jp ip hjp arrival hmem (env, sender) harrived
        (congrArg ResultRouteKey.req heq)
  · rcases mem_recording.mp hrow with hold | hwrites
    · -- the request was in hand, so it had no event
      refine hr.unspent ip place hplace _ hasked row ?_ ?_
      · rw [← hroute]
        exact hold
      · rw [← hroute, htxID]
        exact (hc.genuine hw hreceived).txId
    · -- the result of an execution that writes is no refusal
      obtain ⟨a, env', now, outcome, rfl, hadmits, heffect, _, rfl⟩ := writes_eq_some hwrites
      have hloop : ((w.node ip).actor a).loop = .execute env' now := of_decide_eq_true henabled
      obtain ⟨sender', harrived'⟩ := (hr.founded ip).arrived_of_execute hloop
      obtain ⟨stream', _, hreceived'⟩ := hc.arrived ip env' sender' harrived'
      obtain rfl := hc.eq_of_txId hw hreceived' hreceived htxID
      have haddressed := (hc.served ip).wellformed.addressed a
      have henv : actorKey env' = ((w.node ip).actor a).key :=
        haddressed.inHand env' (by rw [hloop]; rfl)
      have hresult : completeResult (((w.node ip).actor a).state.handle
          (w.db.wallet ((w.node ip).actor a).key) env' now outcome).result env' ∈
          ((w.node ip).apply (nodeCfg ip) w.db (.execute a env' now outcome)).produced :=
        List.mem_append_right _ (List.mem_singleton_self _)
      have hsame := List.inj_on_of_nodup_map (hserved.accounted.asked.nodup .produced) hresult hres
        ((resultKey_execute haddressed henv _ now outcome).trans hroute)
      rw [← hsame] at hcode
      rw [errorCode_execute hadmits hcode] at hrefuses
      cases hrefuses

/-- What the nodes refuse is declined. -/
theorem makes_refused (hr : w.Recorded) (hc : w.Carried) (hw : w.Issuing) {action : WorldAction}
    (henabled : w.enabled clientCfg nodeCfg action = true) :
    w.Makes clientCfg nodeCfg action (w.apply clientCfg nodeCfg action).Refused := by
  refine makes_of_node fun ip action' haction res hres => ?_
  subst haction
  obtain ⟨harrive, henabled⟩ := of_enabled_node henabled
  have hfresh : (w.node ip).FreshRequests action' := freshRequests_of_not_arrive harrive
  rcases (hc.served ip).produced_back ((hc.served ip).step henabled hfresh) henabled hfresh hres
    with hold | ⟨place, hplace, hasked⟩
  · exact .inl hold
  · exact .inr (refused_of_produced hr hc hw harrive henabled hres hplace hasked)

theorem rejected_of_refused (hrefused : w.Conveyed w.Refused) (hc : w.Carried) (hw : w.Issuing)
    {machineID : MachineID} {req : ExecuteRequest} {reqID : UInt64} {res : RemoteResult} {ch : Nat}
    (hbegun : (Job.execute req).envelope reqID ∈ (w.gateway machineID).begun)
    (hres : (w.gateway machineID).client.respCh ch = some res) (hid : res.requestId = reqID) :
    w.Rejected (executeResponse req reqID res) := by
  intro code hcode hrefuses
  obtain ⟨env, hkey, hdeclined⟩ := hrefused.held machineID ch res hres code hcode hrefuses
  obtain ⟨stream, henv⟩ := hdeclined.received
  obtain rfl := eq_of_resultKey hc hw henv hkey hbegun hid
  exact ⟨_, rfl, rfl, hdeclined⟩

/-- The refusals on their way are for declined requests, and so are the answers. -/
structure Definite (w : World) : Prop where
  results : w.Conveyed w.Refused
  responses : ∀ machineID, ∀ response ∈ (w.gateway machineID).responses, w.Rejected response

theorem Definite.step (h : w.Definite) (hr : w.Recorded) (hc : w.Carried) (hw : w.Issuing)
    {action : WorldAction} (henabled : w.enabled clientCfg nodeCfg action = true) :
    (w.apply clientCfg nodeCfg action).Definite where
  results := by
    have hmono (res : RemoteResult) (hres : w.Refused res) :
        (w.apply clientCfg nodeCfg action).Refused res := by
      intro code hcode hrefuses
      obtain ⟨env, hkey, hdeclined⟩ := hres code hcode hrefuses
      exact ⟨env, hkey, hdeclined.step hr hc hw henabled⟩
    refine (h.results.mono hmono).step hr hc hw (fun reqID code hclient code' hcode' => ?_)
      henabled (makes_refused hr hc hw henabled)
    cases hcode'
    exact fun hrefuses => absurd hrefuses (Bool.eq_false_iff.mp (refuses_of_fromClient hclient))
  responses := by
    refine responses_step (fun m response hresponse code hcode hrefuses => ?_) ?_
    · obtain ⟨env, hkey, htxId, hdeclined⟩ := h.responses m response hresponse code hcode hrefuses
      exact ⟨env, hkey, htxId, hdeclined.step hr hc hw henabled⟩
    · rintro m action' rfl response hresponse
      have hprocess := henabled
      simp only [enabled, Bool.and_eq_true] at hprocess
      have hrejected : w.Rejected response := by
        rcases response_back hw hprocess.1 hresponse with
          hold | ⟨req, reqID, res, rfl, hbegun, ⟨ch, hres, hid⟩ | ⟨_, code, hcode, hclient⟩⟩
        · exact h.responses m response hold
        · exact rejected_of_refused h.results hc hw hbegun hres hid
        · intro code' hcode' hrefuses
          cases hcode.symm.trans hcode'
          exact absurd hrefuses (Bool.eq_false_iff.mp (refuses_of_fromClient hclient))
      intro code hcode hrefuses
      obtain ⟨env, hkey, htxId, hdeclined⟩ := hrejected code hcode hrefuses
      exact ⟨env, hkey, htxId, hdeclined.step hr hc hw henabled⟩

end World

theorem definite_of_reachable
    (hw : (deployment clientCfg nodeCfg).ReachableIf World.InSequence w) : w.Definite := by
  refine hw.invariant_of (fun w hw => And.intro (recorded_of_reachable hw)
    (And.intro (carried_of_reachable hw) (issuing_of_reachable hw)))
    ⟨World.conveyed_newWorld _, fun _ _ h => (nomatch h)⟩ ?_
  rintro w action t ⟨hrecorded, hcarried, hissuing⟩ h _ hstep
  obtain ⟨henabled, rfl⟩ := System.guarded_step_eq_some_iff.mp hstep
  exact h.step hrecorded hcarried hissuing henabled

/-- A declined request stays declined, however the run goes on. -/
theorem declined_of_run {w' : World} {env : RemoteEnvelope}
    (hw : (deployment clientCfg nodeCfg).ReachableIf World.InSequence w) (h : w.Declined env)
    (hrun : (deployment clientCfg nodeCfg).RunIf World.InSequence w w') : w'.Declined env := by
  induction hrun with
  | refl => exact h
  | tail hbefore hlast ih =>
      obtain ⟨action, _, hstep⟩ := hlast
      obtain ⟨henabled, rfl⟩ := System.guarded_step_eq_some_iff.mp hstep
      have hreachable := Relation.ReflTransGen.trans hw hbefore
      exact ih.step (recorded_of_reachable hreachable) (carried_of_reachable hreachable)
        (issuing_of_reachable hreachable) henabled

/-- In every run of the deployment, if `handleExecute` has answered a user with the refusal of
a node or of an actor, then no event was written for the request, and none is written for it
later on. -/
theorem refusal_final (hw : (deployment clientCfg nodeCfg).ReachableIf World.InSequence w)
    {machineID : MachineID} {response : ExecuteResponse}
    (hresponse : response ∈ (w.gateway machineID).responses) {code : ErrorCode}
    (hcode : response.errorCode = some code) (hrefuses : refuses code = true) {w' : World}
    (hrun : (deployment clientCfg nodeCfg).RunIf World.InSequence w w') :
    ∀ row ∈ w'.written ⟨1, response.uid⟩, row.txID ≠ response.requestID := by
  obtain ⟨env, hkey, htxId, hdeclined⟩ :=
    (definite_of_reachable hw).responses machineID response hresponse code hcode hrefuses
  rw [← hkey, ← htxId]
  exact (declined_of_run hw hdeclined hrun).unwritten

/-- The node takes another one for the owner of the wallet. -/
def misrouted : List Node.Action :=
  inquiring 2 transferServed "node-b" ++ [.kill 2 transferServed,
    .push 2 2 [] (wrongNodeResult transferEnvelope),
    .receive ⟨wrongNodeResult transferEnvelope, 2⟩ [], .tick, .flush false [2],
    .respond (2, [wrongNodeResult transferEnvelope]) [] false]

def rejection : List GatewayAction :=
  [.client (.recv 0 [wrongNodeResult transferEnvelope]),
    .client (.tally 0 (wrongNodeResult transferEnvelope) []),
    .client (.demux 0 (wrongNodeResult transferEnvelope) []),
    .client (.deliver 0 (wrongNodeResult transferEnvelope) 0 []),
    .client (.receive 0 transferEnvelope 0 (wrongNodeResult transferEnvelope))]

def rejected : List WorldAction :=
  submission.map (.gateway transferGateway) ++
    [.accept "node-a" (transferGateway, 0) [transferEnvelope]] ++
    misrouted.map (.node "node-a") ++ rejection.map (.gateway transferGateway)

def rejectedResponse : ExecuteResponse where
  status := 503
  success := false
  requestID := "281474976710657"
  uid := 42
  amount := 100
  errorCode := some .wrongNode
  errorMsg := "routing table indicates this node is not the owner"
  balance := none

theorem refusal_final_rejected :
    ((standard.after rejected).gateway transferGateway).responses = [rejectedResponse] ∧
      ∀ w', standard.RunIf World.InSequence (standard.after rejected) w' →
        ∀ row ∈ w'.written ⟨1, 42⟩, row.txID ≠ "281474976710657" := by
  have hreachable : standard.ReachableIf World.InSequence (standard.after rejected) :=
    System.reachableIf_of_admits (by decide +kernel)
  have hresponses : ((standard.after rejected).gateway transferGateway).responses =
      [rejectedResponse] := by decide +kernel
  refine ⟨hresponses, fun w' hrun => ?_⟩
  exact refusal_final hreachable (hresponses ▸ List.mem_singleton_self _) rfl rfl hrun

end ActorCluster.Deployment
