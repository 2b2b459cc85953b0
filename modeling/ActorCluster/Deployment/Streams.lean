import ActorCluster.Deployment.System
import ActorCluster.Node.Routing

/-! # The streams between gateways and nodes

The parts keep each other's contracts. The client processes draw different request
ids and put an envelope on one stream only, so no node receives a request twice,
and no two nodes receive the same one. A node answers on the stream on which the
request came, so a stream brings back only answers to what was sent on it.
-/

namespace ActorCluster.Deployment

open Remote Wallet Transition Client Node
open scoped List

variable {clientCfg : MachineID → Client.Config} {nodeCfg : String → Node.Config} {w : World}

/-! ## The client processes -/

/-- Each client process is one of its own. -/
theorem refines_gateway (machineID : MachineID) :
    (deployment clientCfg nodeCfg).Refines World.InSequence
      (gateway (clientCfg machineID) machineID) GatewayState.InSequence (fun _ => True)
      fun w => w.gateway machineID where
  init := rfl
  step w action t _ hseq hstep := by
    obtain ⟨henabled, rfl⟩ := System.guarded_step_eq_some_iff.mp hstep
    cases action with
    | gateway other action =>
        simp only [World.enabled, Bool.and_eq_true] at henabled
        by_cases hother : machineID = other
        · subst hother
          refine .inr ⟨action, hseq, System.guarded_step_eq_some_iff.mpr ⟨henabled.1, ?_⟩⟩
          symm
          exact Function.update_self _ _ _
        · exact .inl (Function.update_of_ne hother _ _)
    | _ => exact .inl rfl

/-- What holds of the client processes in every state. -/
structure World.Issuing (w : World) : Prop where
  sound : ∀ machineID, (w.gateway machineID).Sound machineID
  confined : ∀ machineID, (w.gateway machineID).Confined
  issued : ∀ machineID, Issued (w.gateway machineID).client
  attributed : ∀ machineID, (w.gateway machineID).client.Attributed
  codes : ∀ machineID, (w.gateway machineID).client.OwnCodes

theorem issuing_of_reachable (hw : (deployment clientCfg nodeCfg).ReachableIf World.InSequence w) :
    w.Issuing := by
  have hgateway (machineID : MachineID) :
      (gateway (clientCfg machineID) machineID).ReachableIf GatewayState.InSequence
        (w.gateway machineID) :=
    (refines_gateway machineID).reachableIf (fun _ _ => trivial) hw
  have hclient (machineID : MachineID) :
      (client (clientCfg machineID)).ReachableIf UniqueIDs (w.gateway machineID).client :=
    (refines_client (clientCfg machineID) machineID).reachableIf (fun _ => sound_of_reachable)
      (hgateway machineID)
  refine ⟨fun m => sound_of_reachable (hgateway m), fun m => confined_of_reachable (hgateway m),
    fun m => ?_, fun m => attributed_of_reachable ((hclient m).mono fun _ _ _ => trivial),
    fun m => ?_⟩
  · refine (hclient m).invariant issued_newClient fun s action t h hguard hstep => ?_
    obtain ⟨henabled, rfl⟩ := System.guarded_step_eq_some_iff.mp hstep
    exact h.step hguard henabled
  · refine (hclient m).invariant ClientState.ownCodes_newClient fun s action t h _ hstep => ?_
    obtain ⟨henabled, rfl⟩ := System.guarded_step_eq_some_iff.mp hstep
    exact h.step henabled

namespace World.Issuing

/-- An envelope that was sent was handed to the router by a handler. -/
theorem begun (h : w.Issuing) {stream : Stream} {env : RemoteEnvelope}
    (henv : env ∈ (w.streamer stream).sent) : env ∈ (w.gateway stream.1).begun := by
  refine (h.confined stream.1).streamers stream.2 env ?_
  exact List.mem_append_left _ (List.mem_append_left _ henv)

theorem genuine (h : w.Issuing) {stream : Stream} {env : RemoteEnvelope}
    (henv : env ∈ (w.streamer stream).sent) : Genuine env :=
  (h.sound stream.1).genuine env (h.begun henv)

theorem nodup_sent (h : w.Issuing) (stream : Stream) :
    ((w.streamer stream).sent.map RemoteEnvelope.requestId).Nodup := by
  have htraffic : ((w.streamer stream).traffic).Nodup :=
    (h.issued stream.1).envelopes.nodup (.stream stream.2)
  rw [NodeStreamer.traffic, List.append_assoc, List.map_append] at htraffic
  exact htraffic.of_append_left

/-- The request id tells the envelope. -/
theorem begun_unique (h : w.Issuing) {first second : MachineID} {env env' : RemoteEnvelope}
    (henv : env ∈ (w.gateway first).begun) (henv' : env' ∈ (w.gateway second).begun)
    (hid : env.requestId = env'.requestId) : first = second ∧ env = env' := by
  have hbounds := (h.sound first).drawn .begun _ (List.mem_map_of_mem henv)
  have hbounds' := (h.sound second).drawn .begun _ (List.mem_map_of_mem henv')
  have hblock := (h.sound first).block
  have hblock' := (h.sound second).block
  rw [hid] at hbounds
  have hmachine : first = second := Fin.ext (by omega)
  subst hmachine
  refine ⟨rfl, ?_⟩
  exact List.inj_on_of_nodup_map ((h.sound first).ids.nodup .begun) henv henv' hid

/-- The request id tells the stream. -/
theorem sent_unique (h : w.Issuing) {first second : Stream} {env env' : RemoteEnvelope}
    (henv : env ∈ (w.streamer first).sent) (henv' : env' ∈ (w.streamer second).sent)
    (hid : env.requestId = env'.requestId) : first = second := by
  obtain ⟨hmachine, rfl⟩ := h.begun_unique (h.begun henv) (h.begun henv') hid
  refine Prod.ext hmachine ?_
  have htraffic {stream : Stream} (hsent : env ∈ (w.streamer stream).sent) :
      env.requestId ∈ (w.gateway stream.1).client.envelopes (.stream stream.2) :=
    List.mem_map_of_mem (List.mem_append_left _ (List.mem_append_left _ hsent))
  have hsecond := htraffic henv'
  rw [← hmachine] at hsecond
  have hplace := (h.issued first.1).envelopes.unique _ _ _ (htraffic henv) hsecond
  injection hplace

end World.Issuing

/-! ## The steps of the parts -/

/-- The other steps of a node keep the contract by themselves. -/
theorem freshRequests_of_not_arrive {n : NodeState} {action : Node.Action}
    (harrive : ∀ p sender batch, action ≠ .arrive p sender batch) : n.FreshRequests action := by
  cases action with
  | arrive p sender batch => exact absurd rfl (harrive p sender batch)
  | _ => trivial

namespace World

/-- Only `Send` puts something on a stream. -/
theorem flatten_sending (w : World) (machineID : MachineID) (action : GatewayAction)
    (stream : Stream) : (w.sending machineID action stream).flatten =
      (w.up stream).flatten ++ if stream.1 = machineID then action.sends stream.2 else [] := by
  unfold sending
  split
  next a batch last =>
    by_cases hstream : stream = (machineID, a)
    · subst hstream
      simp [GatewayAction.sends]
    · have hnone : (if stream.1 = machineID then
          (GatewayAction.client (.send a batch last)).sends stream.2 else []) = [] := by
        simp only [GatewayAction.sends]
        split
        next hmachine => exact if_neg fun ha => hstream (Prod.ext hmachine ha.symm)
        next => rfl
      rw [Function.update_of_ne hstream, hnone, List.append_nil]
  next hsend =>
    have hnone : action.sends stream.2 = [] := by
      unfold GatewayAction.sends
      split
      next a batch last => exact (hsend a batch last rfl).elim
      next => rfl
    rw [hnone, ite_self, List.append_nil]

theorem of_enabled_node {ip : String} {action : Node.Action}
    (henabled : w.enabled clientCfg nodeCfg (.node ip action) = true) :
    (∀ p sender batch, action ≠ .arrive p sender batch) ∧
      (w.node ip).enabled (nodeCfg ip) action = true := by
  cases action with
  | arrive p sender batch => cases henabled
  | _ => exact ⟨fun _ _ _ h => (nomatch h), henabled⟩

/-- A receiver only takes responses off. -/
theorem receiving_back {machineID : MachineID} {action : GatewayAction} {sender : BatchSender}
    {results : List RemoteResult} (h : results ∈ w.receiving machineID action sender) :
    results ∈ w.down sender := by
  unfold receiving at h
  split at h
  next a results' =>
    by_cases hsender : sender = streamID (machineID, a)
    · subst hsender
      rw [Function.update_self] at h
      exact List.mem_of_mem_tail h
    · rwa [Function.update_of_ne hsender] at h
  next => exact h

/-- Only `respond` puts a response on its way. -/
theorem responding_back {action : Node.Action} {sender : BatchSender}
    {results : List RemoteResult} (h : results ∈ w.responding action sender) :
    results ∈ w.down sender ∨
      ∃ rest last, action = .respond (sender, results) rest last := by
  unfold responding at h
  split at h
  next response rest last =>
    by_cases hsender : sender = response.1
    · subst hsender
      rw [Function.update_self] at h
      rcases List.mem_append.mp h with hold | hnew
      · exact .inl hold
      · cases List.mem_singleton.mp hnew
        exact .inr ⟨rest, last, rfl⟩
    · rw [Function.update_of_ne hsender] at h
      exact .inl h
  next => exact .inl h

end World

/-! ## What is on the way -/

/-- What a stream carries was put on it, and what was received on it had been sent. -/
structure World.Carried (w : World) : Prop where
  passing : ∀ stream, w.received stream ++ (w.up stream).flatten <+ (w.streamer stream).sent
  served : ∀ ip, (w.node ip).Served
  arrived : ∀ ip env sender, (env, sender) ∈ (w.node ip).arrived →
    ∃ stream, sender = streamID stream ∧ env ∈ w.received stream
  apart : ∀ ip jp, ip ≠ jp → ∀ first ∈ (w.node ip).arrived, ∀ second ∈ (w.node jp).arrived,
    first.1.requestId ≠ second.1.requestId
  returning : ∀ sender, ∀ results ∈ w.down sender, ∀ res ∈ results,
    ∃ stream, sender = streamID stream ∧ ∃ env ∈ w.received stream, routeKey env = resultKey res

theorem carried_newWorld : newWorld.Carried where
  passing _ := List.Sublist.refl _
  served _ := NodeState.served_newNode
  arrived _ _ _ h := by cases h
  apart _ _ _ _ h := by cases h
  returning _ _ h := by cases h

namespace World.Carried

theorem sent_of_received (h : w.Carried) {stream : Stream} {env : RemoteEnvelope}
    (henv : env ∈ w.received stream) : env ∈ (w.streamer stream).sent :=
  (h.passing stream).subset (List.mem_append_left _ henv)

/-- A batch that comes next on a stream has requests that no node has received. -/
theorem fresh (h : w.Carried) (hw : w.Issuing) {stream : Stream} {batch : List RemoteEnvelope}
    (hnext : (w.up stream).head? = some batch) :
    (batch.map RemoteEnvelope.requestId).Nodup ∧
      ∀ env ∈ batch, ∀ other, ∀ env' ∈ w.received other, env.requestId ≠ env'.requestId := by
  obtain ⟨rest, hup⟩ : ∃ rest, w.up stream = batch :: rest := List.head?_eq_some_iff.mp hnext
  have hpassing := h.passing stream
  rw [hup, List.flatten_cons] at hpassing
  have hnodup := (hw.nodup_sent stream).sublist (hpassing.map RemoteEnvelope.requestId)
  rw [List.map_append, List.map_append] at hnodup
  refine ⟨hnodup.of_append_right.of_append_left, fun env henv other env' henv' hid => ?_⟩
  have hsent : env ∈ (w.streamer stream).sent :=
    hpassing.subset (List.mem_append_right _ (List.mem_append_left _ henv))
  obtain rfl := hw.sent_unique hsent (h.sent_of_received henv') hid
  refine (List.nodup_append'.mp hnodup).2.2 (List.mem_map_of_mem henv') ?_
  rw [← hid]
  exact List.mem_append_left _ (List.mem_map_of_mem henv)

/-- The contract of the nodes is kept. -/
theorem freshRequests (h : w.Carried) (hw : w.Issuing) (ip : String) {stream : Stream}
    {batch : List RemoteEnvelope} (hnext : (w.up stream).head? = some batch) :
    (w.node ip).FreshRequests (arrival stream batch) := by
  obtain ⟨hnodup, hfresh⟩ := h.fresh hw hnext
  constructor
  · have hids : (batch.map routeKey).map ResultRouteKey.req =
        batch.map RemoteEnvelope.requestId := by
      rw [List.map_map]
      rfl
    rw [← hids] at hnodup
    exact hnodup.of_map _
  · intro env henv hmem
    obtain ⟨⟨env', sender⟩, harrived, hkey⟩ := List.mem_map.mp hmem
    obtain ⟨other, _, hreceived⟩ := h.arrived ip env' sender harrived
    exact hfresh env henv other env' hreceived (congrArg ResultRouteKey.req hkey).symm

theorem gateway (h : w.Carried) (hw : w.Issuing) {machineID : MachineID} {action : GatewayAction}
    (henabled : (w.gateway machineID).enabled (clientCfg machineID) action = true) :
    (w.apply clientCfg nodeCfg (.gateway machineID action)).Carried where
  passing stream := by
    change w.received stream ++ (w.sending machineID action stream).flatten <+ _
    rw [flatten_sending, ← List.append_assoc]
    by_cases hmachine : stream.1 = machineID
    · have hclient : (w.apply clientCfg nodeCfg (.gateway machineID action)).gateway stream.1 =
          (w.gateway stream.1).apply (clientCfg stream.1) action := by
        rw [hmachine]
        exact Function.update_self _ _ _
      rw [if_pos hmachine, streamer, hclient,
        (hw.confined stream.1).sent_apply (hmachine ▸ henabled) stream.2]
      exact (h.passing stream).append_right _
    · have hclient : (w.apply clientCfg nodeCfg (.gateway machineID action)).gateway stream.1 =
          w.gateway stream.1 := Function.update_of_ne hmachine _ _
      rw [if_neg hmachine, List.append_nil, streamer, hclient]
      exact h.passing stream
  served := h.served
  arrived := h.arrived
  apart := h.apart
  returning sender results hresults := h.returning sender results (receiving_back hresults)

end World.Carried

section Accept

variable {ip : String} {stream : Stream} {batch : List RemoteEnvelope}

theorem received_accept {other : Stream} {env : RemoteEnvelope} (henv : env ∈ w.received other) :
    env ∈ (w.apply clientCfg nodeCfg (.accept ip stream batch)).received other := by
  change env ∈ Function.update w.received stream _ other
  by_cases hother : other = stream
  · subst hother
    rw [Function.update_self]
    exact List.mem_append_left _ henv
  · rwa [Function.update_of_ne hother]

theorem received_accept_self {env : RemoteEnvelope} (henv : env ∈ batch) :
    env ∈ (w.apply clientCfg nodeCfg (.accept ip stream batch)).received stream := by
  change env ∈ Function.update w.received stream _ stream
  rw [Function.update_self]
  exact List.mem_append_right _ henv

/-- What has arrived at a node had arrived before, or is of the batch. -/
theorem arrived_accept {jp : String} {env : RemoteEnvelope} {sender : BatchSender}
    (h : (env, sender) ∈
      ((w.apply clientCfg nodeCfg (.accept ip stream batch)).node jp).arrived) :
    (env, sender) ∈ (w.node jp).arrived ∨ jp = ip ∧ env ∈ batch ∧ sender = streamID stream := by
  by_cases hjp : jp = ip
  · subst hjp
    have hself : (w.apply clientCfg nodeCfg (.accept jp stream batch)).node jp =
        (w.node jp).apply (nodeCfg jp) w.db (arrival stream batch) := Function.update_self _ _ _
    rw [hself] at h
    rcases List.mem_append.mp h with hold | hmem
    · exact .inl hold
    · obtain ⟨env', henv, heq⟩ := List.mem_map.mp hmem
      cases heq
      exact .inr ⟨rfl, henv, rfl⟩
  · have hother : (w.apply clientCfg nodeCfg (.accept ip stream batch)).node jp = w.node jp :=
      Function.update_of_ne hjp _ _
    rw [hother] at h
    exact .inl h

end Accept

namespace World.Carried

theorem accept (h : w.Carried) (hw : w.Issuing) {ip : String} {stream : Stream}
    {batch : List RemoteEnvelope} (hnext : (w.up stream).head? = some batch)
    (henabled : (w.node ip).enabled (nodeCfg ip) (arrival stream batch) = true) :
    (w.apply clientCfg nodeCfg (.accept ip stream batch)).Carried where
  passing other := by
    change Function.update w.received stream _ other ++
      (Function.update w.up stream _ other).flatten <+ (w.streamer other).sent
    by_cases hstream : other = stream
    · subst hstream
      obtain ⟨rest, hup⟩ : ∃ rest, w.up other = batch :: rest := List.head?_eq_some_iff.mp hnext
      have hpassing := h.passing other
      rw [hup, List.flatten_cons, ← List.append_assoc] at hpassing
      rw [Function.update_self, Function.update_self, hup, List.tail_cons]
      exact hpassing
    · rw [Function.update_of_ne hstream, Function.update_of_ne hstream]
      exact h.passing other
  served jp := by
    by_cases hjp : jp = ip
    · subst hjp
      have hself : (w.apply clientCfg nodeCfg (.accept jp stream batch)).node jp =
          (w.node jp).apply (nodeCfg jp) w.db (arrival stream batch) := Function.update_self _ _ _
      rw [hself]
      exact (h.served jp).step henabled (h.freshRequests hw jp hnext)
    · have hother : (w.apply clientCfg nodeCfg (.accept ip stream batch)).node jp = w.node jp :=
        Function.update_of_ne hjp _ _
      rw [hother]
      exact h.served jp
  arrived jp env sender harrived := by
    rcases arrived_accept harrived with hold | ⟨_, henv, hsender⟩
    · obtain ⟨source, hsource, hreceived⟩ := h.arrived jp env sender hold
      exact ⟨source, hsource, received_accept hreceived⟩
    · exact ⟨stream, hsender, received_accept_self henv⟩
  apart jp kp hne first hfirst second hsecond := by
    obtain ⟨_, hfresh⟩ := h.fresh hw hnext
    rcases arrived_accept hfirst with hold | ⟨hjp, henv, _⟩ <;>
      rcases arrived_accept hsecond with hold' | ⟨hkp, henv', _⟩
    · exact h.apart jp kp hne first hold second hold'
    · obtain ⟨source, _, hreceived⟩ := h.arrived jp first.1 first.2 hold
      exact (hfresh second.1 henv' source first.1 hreceived).symm
    · obtain ⟨source, _, hreceived⟩ := h.arrived kp second.1 second.2 hold'
      exact hfresh first.1 henv source second.1 hreceived
    · exact absurd (hjp.trans hkp.symm) hne
  returning sender results hresults res hres := by
    obtain ⟨source, hsource, env, henv, hkey⟩ := h.returning sender results hresults res hres
    exact ⟨source, hsource, env, received_accept henv, hkey⟩

theorem node (h : w.Carried) {ip : String} {action : Node.Action}
    (harrive : ∀ p sender batch, action ≠ .arrive p sender batch)
    (henabled : (w.node ip).enabled (nodeCfg ip) action = true) :
    (w.apply clientCfg nodeCfg (.node ip action)).Carried := by
  have hserved : ((w.node ip).apply (nodeCfg ip) w.db action).Served :=
    (h.served ip).step henabled (freshRequests_of_not_arrive harrive)
  have hnode (jp : String) : ((w.apply clientCfg nodeCfg (.node ip action)).node jp).Served ∧
      ((w.apply clientCfg nodeCfg (.node ip action)).node jp).arrived = (w.node jp).arrived := by
    change (Function.update w.node ip _ jp).Served ∧ (Function.update w.node ip _ jp).arrived = _
    by_cases hjp : jp = ip
    · subst hjp
      rw [Function.update_self]
      exact ⟨hserved, NodeState.arrived_apply _ _ _ harrive⟩
    · rw [Function.update_of_ne hjp]
      exact ⟨h.served jp, rfl⟩
  refine ⟨h.passing, fun jp => (hnode jp).1, fun jp env sender harrived => ?_,
    fun jp kp hne first hfirst second hsecond => ?_, fun sender results hresults res hres => ?_⟩
  · rw [(hnode jp).2] at harrived
    exact h.arrived jp env sender harrived
  · rw [(hnode jp).2] at hfirst
    rw [(hnode kp).2] at hsecond
    exact h.apart jp kp hne first hfirst second hsecond
  · rcases responding_back hresults with hold | ⟨rest, last, rfl⟩
    · exact h.returning sender results hold res hres
    · -- the node has put the result on its channel, for the stream that the request came on
      have hsent : (sender, results) ∈
          ((w.node ip).apply (nodeCfg ip) w.db (.respond (sender, results) rest last)).sent :=
        List.mem_append_right _ (List.mem_singleton_self _)
      obtain ⟨env, harrived, hkey⟩ :=
        hserved.routed _ _ (.put res (hserved.sent_subset_put (mem_unpack hsent hres)) rfl)
      obtain ⟨stream, hsender, hreceived⟩ := h.arrived ip env sender harrived
      exact ⟨stream, hsender, env, hreceived, hkey⟩

theorem sever (h : w.Carried) (stream : Stream) :
    (w.apply clientCfg nodeCfg (.sever stream)).Carried where
  passing other := by
    change w.received other ++ (Function.update w.up stream [] other).flatten <+ _
    by_cases hother : other = stream
    · subst hother
      rw [Function.update_self]
      exact (List.Sublist.append_left (List.nil_sublist _) _).trans (h.passing other)
    · rw [Function.update_of_ne hother]
      exact h.passing other
  served := h.served
  arrived := h.arrived
  apart := h.apart
  returning sender results hresults := by
    change results ∈ Function.update w.down (streamID stream) [] sender at hresults
    by_cases hsender : sender = streamID stream
    · subst hsender
      rw [Function.update_self] at hresults
      cases hresults
    · rw [Function.update_of_ne hsender] at hresults
      exact h.returning sender results hresults

theorem crash (h : w.Carried) (ip : String) :
    (w.apply clientCfg nodeCfg (.crash ip)).Carried := by
  have hnode (jp : String) : ((w.apply clientCfg nodeCfg (.crash ip)).node jp).Served ∧
      ((w.apply clientCfg nodeCfg (.crash ip)).node jp).arrived ⊆ (w.node jp).arrived := by
    change (Function.update w.node ip newNode jp).Served ∧
      (Function.update w.node ip newNode jp).arrived ⊆ _
    by_cases hjp : jp = ip
    · subst hjp
      rw [Function.update_self]
      exact ⟨NodeState.served_newNode, List.nil_subset _⟩
    · rw [Function.update_of_ne hjp]
      exact ⟨h.served jp, List.Subset.refl _⟩
  exact ⟨h.passing, fun jp => (hnode jp).1,
    fun jp env sender harrived => h.arrived jp env sender ((hnode jp).2 harrived),
    fun jp kp hne first hfirst second hsecond =>
      h.apart jp kp hne first ((hnode jp).2 hfirst) second ((hnode kp).2 hsecond),
    h.returning⟩

theorem step (h : w.Carried) (hw : w.Issuing) {action : WorldAction}
    (henabled : w.enabled clientCfg nodeCfg action = true) :
    (w.apply clientCfg nodeCfg action).Carried := by
  cases action with
  | gateway machineID action =>
      simp only [enabled, Bool.and_eq_true] at henabled
      exact h.gateway hw henabled.1
  | accept ip stream batch =>
      simp only [enabled, Bool.and_eq_true, decide_eq_true_eq] at henabled
      exact h.accept hw henabled.1.1.2 henabled.2
  | node ip action =>
      obtain ⟨harrive, henabled⟩ := of_enabled_node henabled
      exact h.node harrive henabled
  | land key snapshot => exact ⟨h.passing, h.served, h.arrived, h.apart, h.returning⟩
  | sever stream => exact h.sever stream
  | crash ip => exact h.crash ip

end World.Carried

theorem carried_of_reachable (hw : (deployment clientCfg nodeCfg).ReachableIf World.InSequence w) :
    w.Carried := by
  refine hw.invariant_of (fun _ => issuing_of_reachable) carried_newWorld ?_
  intro w action t hissuing h _ hstep
  obtain ⟨henabled, rfl⟩ := System.guarded_step_eq_some_iff.mp hstep
  exact h.step hissuing henabled

/-- In every run of any number of gateways and nodes, with crashes, broken streams and
resolvers that disagree, a request is received at most once, on one stream and by one node, as
its gateway has made it. A response on its way answers a request that was received on the same
stream. So each part keeps the contract that the others rely on. -/
theorem requests_delivered_once
    (hw : (deployment clientCfg nodeCfg).ReachableIf World.InSequence w) :
    (∀ stream, w.received stream <+ (w.streamer stream).sent ∧
      ((w.received stream).map RemoteEnvelope.requestId).Nodup) ∧
    (∀ first second, ∀ env ∈ w.received first, ∀ env' ∈ w.received second,
      env.requestId = env'.requestId → first = second ∧ env = env') ∧
    (∀ ip stream batch, (w.up stream).head? = some batch →
      (w.node ip).FreshRequests (arrival stream batch)) ∧
    (∀ stream, ∀ results ∈ w.down (streamID stream), ∀ res ∈ results,
      ∃ env ∈ w.received stream, routeKey env = resultKey res) ∧
    ∀ stream results, (w.down (streamID stream)).head? = some results →
      (w.streamer stream).receiver = .loop [] →
      (w.gateway stream.1).client.enabled (clientCfg stream.1) (.recv stream.2 results) = true := by
  have hissuing := issuing_of_reachable hw
  have h := carried_of_reachable hw
  have hanswers : ∀ stream, ∀ results ∈ w.down (streamID stream), ∀ res ∈ results,
      ∃ env ∈ w.received stream, routeKey env = resultKey res := by
    intro stream results hresults res hres
    obtain ⟨source, hsource, henv⟩ := h.returning _ results hresults res hres
    rw [streamID_injective hsource]
    exact henv
  refine ⟨fun stream => ?_, fun first second env henv env' henv' hid => ?_,
    fun ip stream batch hnext => h.freshRequests hissuing ip hnext, hanswers,
    fun stream results hnext hloop => ?_⟩
  · have hsub : w.received stream <+ (w.streamer stream).sent :=
      (List.sublist_append_left _ _).trans (h.passing stream)
    exact ⟨hsub, (hissuing.nodup_sent stream).sublist (hsub.map _)⟩
  · have hsent := h.sent_of_received henv
    have hsent' := h.sent_of_received henv'
    exact ⟨hissuing.sent_unique hsent hsent' hid,
      (hissuing.begun_unique (hissuing.begun hsent) (hissuing.begun hsent') hid).2⟩
  · have hmem : results ∈ w.down (streamID stream) := List.mem_of_head? hnext
    have hloop' : ((w.gateway stream.1).client.streamer stream.2).receiver = .loop [] := hloop
    simp only [ClientState.enabled, hloop', decide_true, Bool.true_and, List.all_eq_true,
      List.any_eq_true, decide_eq_true_eq]
    intro res hres
    obtain ⟨env, henv, hkey⟩ := hanswers stream results hmem res hres
    exact ⟨env, h.sent_of_received henv, congrArg ResultRouteKey.req hkey⟩

/-! Steps of a handler, a call and an actor that serve one transfer. -/

/-- The envelope is put on a stream. -/
def posting (p : Nat) (d : Dispatch) (a : Nat) : List GatewayAction :=
  [.client (.store p d a), .client (.enqueue p d a), .client (.take a [] d.env []),
    .client (.send a [d.env] false), .client (.count a [d.env] false)]

/-- A handler makes a transfer, which goes out on a new stream. -/
def opening (p : Nat) (d : Dispatch) (a : Nat) : List GatewayAction :=
  [.draw p transfer, .call p transfer d.env.requestId,
    .client (.resolve p d.env d.entry (.ok d.targetIP)), .client (.load p d), .client (.lock p d),
    .client (.reload p d), .client (.create p d true), .client (.publish p d a)] ++ posting p d a

/-- A handler makes a transfer, which goes out on a stream that is open. -/
def reusing (p : Nat) (d : Dispatch) (a : Nat) : List GatewayAction :=
  [.draw p transfer, .call p transfer d.env.requestId,
    .client (.resolve p d.env d.entry (.ok d.targetIP)), .client (.load p d),
    .client (.check p d a)] ++ posting p d a

/-- A call takes its envelope up and asks for the owner of the wallet. -/
def inquiring (p : Nat) (call : Call) (ownerIP : String) : List Node.Action :=
  [.gate p p [call.env], .next p p call.env [], .owner p call (some (.ok ownerIP))]

/-- A call makes an actor for a wallet that has no snapshot. -/
def rehydrating (p : Nat) (call : Call) : List Node.Action :=
  [.create p call 0, .loadSnapshot p call 0 none, .loadEvents p call 0 ⟨0, 0⟩ none]

/-- A call hands its envelope to an actor and returns. -/
def handing (p : Nat) (call : Call) (a : Nat) : List Node.Action :=
  [.route p call a, .send p call a, .count p call a, .swap p call a, .link p call a,
    .wake p call a, .finish p p]

/-- An actor executes an envelope, and the result is sent back. -/
def executing (a : Nat) (env : RemoteEnvelope) (queued : QueuedResult) : List Node.Action :=
  [.dequeue a, .uncount a env, .handle a env 0, .execute a env 0 .applied, .emit a queued.res,
    .deliver a queued, .receive queued [], .tick, .flush false [queued.reply],
    .respond (queued.reply, [queued.res]) [] false]

/-! A transfer of a hundred into the wallet `(1, 42)`, by the gateway with machine id 1. -/

def transferGateway : MachineID := 1

def transferID : UInt64 := 281474976710657

def transferEnvelope : RemoteEnvelope := transfer.envelope transferID

def transferCall : Dispatch := ⟨transferEnvelope, ⟨some 0⟩, "node-a", 0⟩

/-- The request goes out on a new stream to `node-a`. -/
def submission : List GatewayAction := opening 0 transferCall 0

def transferServed : Call := ⟨streamID (transferGateway, 0), transferEnvelope, []⟩

def transferResult : RemoteResult where
  tenantId := 1
  uid := 42
  txId := "281474976710657"
  requestId := transferID
  opCode := 1
  success := true
  errorCode := none
  errorMsg := ""
  payload := [0, 0, 0, 0, 0, 0, 0, 100]

/-- A new actor executes the request, and its result is sent back. -/
def execution : List Node.Action :=
  inquiring 2 transferServed "node-a" ++ [.lookup 2 transferServed] ++
    rehydrating 2 transferServed ++ handing 2 transferServed 0 ++
    executing 0 transferEnvelope ⟨transferResult, 2⟩

def transferred : List WorldAction :=
  submission.map (.gateway transferGateway) ++
    [.accept "node-a" (transferGateway, 0) [transferEnvelope]] ++
    execution.map (.node "node-a")

/-! The same transfer by the gateway with machine id 0, and once more. -/

def againGateway : MachineID := ⟨0, Nat.zero_lt_succ 65535⟩

def againEnvelope : RemoteEnvelope := transfer.envelope 1

def againCall : Dispatch := ⟨againEnvelope, ⟨some 0⟩, "node-a", 0⟩

def againServed : Call := ⟨streamID (againGateway, 0), againEnvelope, []⟩

def lastEnvelope : RemoteEnvelope := transfer.envelope 2

/-- Nodes that know their own addresses, and gateways that send one envelope at a time. -/
def standard : System World WorldAction := deployment (fun _ => singles) fun ip => ⟨0, true, ip⟩

theorem requests_delivered_once_transferred :
    (standard.after transferred).down 2 = [[transferResult]] ∧
      ∃ env ∈ (standard.after transferred).received (transferGateway, 0),
        routeKey env = resultKey transferResult := by
  have hreachable : standard.ReachableIf World.InSequence (standard.after transferred) :=
    System.reachableIf_of_admits (by decide +kernel)
  have hdown : (standard.after transferred).down 2 = [[transferResult]] := by decide +kernel
  refine ⟨hdown, (requests_delivered_once hreachable).2.2.2.1 (transferGateway, 0)
    [transferResult] ?_ transferResult List.mem_cons_self⟩
  exact hdown ▸ List.mem_cons_self

end ActorCluster.Deployment
