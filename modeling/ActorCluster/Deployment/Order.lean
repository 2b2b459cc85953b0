import ActorCluster.Deployment.Durability
import ActorCluster.Node.Succession

/-! # The order of a gateway's requests

A gateway sends on one stream to a node at a time, the node reads the stream in order,
and the goroutine that serves the stream hands the envelopes on one by one. So an actor
executes the requests of a stream in the order in which the gateway has sent them.
Nothing is said about two actors of one wallet: an actor that was evicted may execute
what it still has after its successor has begun.
-/

namespace ActorCluster.Deployment

open Remote Wallet Transition Client Node ActorCluster.Runtime
open scoped List

variable {clientCfg : MachineID → Client.Config} {nodeCfg : String → Node.Config} {w : World}

/-- The nodes keep the order of the streams. -/
structure World.Sequential (w : World) : Prop where
  nodes : ∀ ip, (w.node ip).InOrder
  streams : ∀ ip stream, (w.node ip).arrivedOn (streamID stream) <+ w.received stream

theorem sequential_newWorld : newWorld.Sequential where
  nodes _ := NodeState.inOrder_newNode
  streams _ _ := List.Sublist.refl _

namespace World.Sequential

theorem accept (h : w.Sequential) (hc : w.Carried) (hw : w.Issuing) {ip : String}
    {stream : Stream} {batch : List RemoteEnvelope} (hnext : (w.up stream).head? = some batch)
    (henabled : (w.node ip).enabled (nodeCfg ip) (arrival stream batch) = true) :
    (w.apply clientCfg nodeCfg (.accept ip stream batch)).Sequential := by
  have hself : (w.apply clientCfg nodeCfg (.accept ip stream batch)).node ip =
      (w.node ip).apply (nodeCfg ip) w.db (arrival stream batch) := Function.update_self _ _ _
  have hother {jp : String} (hjp : jp ≠ ip) :
      (w.apply clientCfg nodeCfg (.accept ip stream batch)).node jp = w.node jp :=
    Function.update_of_ne hjp _ _
  refine ⟨fun jp => ?_, fun jp source => ?_⟩
  · by_cases hjp : jp = ip
    · subst hjp
      rw [hself]
      exact (h.nodes jp).step (hc.served jp) henabled (hc.freshRequests hw jp hnext) rfl
    · rw [hother hjp]
      exact h.nodes jp
  · change ((w.apply clientCfg nodeCfg (.accept ip stream batch)).node jp).arrivedOn
      (streamID source) <+ Function.update w.received stream (w.received stream ++ batch) source
    have hgrow : w.received source <+
        Function.update w.received stream (w.received stream ++ batch) source := by
      by_cases hsource : source = stream
      · subst hsource
        rw [Function.update_self]
        exact List.sublist_append_left _ _
      · rw [Function.update_of_ne hsource]
    by_cases hjp : jp = ip
    · subst hjp
      rw [hself]
      by_cases hsource : source = stream
      · subst hsource
        rw [Function.update_self, arrival, NodeState.arrivedOn_arrive_self]
        exact (h.streams jp source).append_right _
      · rw [arrival, NodeState.arrivedOn_arrive_of_ne fun heq => hsource (streamID_injective heq)]
        exact (h.streams jp source).trans hgrow
    · rw [hother hjp]
      exact (h.streams jp source).trans hgrow

theorem node (h : w.Sequential) (hc : w.Carried) {ip : String} {action : Node.Action}
    (harrive : ∀ p sender batch, action ≠ .arrive p sender batch)
    (henabled : (w.node ip).enabled (nodeCfg ip) action = true) :
    (w.apply clientCfg nodeCfg (.node ip action)).Sequential := by
  have hnode (jp : String) : ((w.apply clientCfg nodeCfg (.node ip action)).node jp).InOrder ∧
      ((w.apply clientCfg nodeCfg (.node ip action)).node jp).arrived = (w.node jp).arrived := by
    change (Function.update w.node ip _ jp).InOrder ∧ (Function.update w.node ip _ jp).arrived = _
    by_cases hjp : jp = ip
    · subst hjp
      rw [Function.update_self]
      refine ⟨(h.nodes jp).step (hc.served jp) henabled (freshRequests_of_not_arrive harrive) ?_,
        NodeState.arrived_apply _ _ _ harrive⟩
      cases action with
      | arrive p sender batch => exact absurd rfl (harrive p sender batch)
      | _ => trivial
    · rw [Function.update_of_ne hjp]
      exact ⟨h.nodes jp, rfl⟩
  refine ⟨fun jp => (hnode jp).1, fun jp stream => ?_⟩
  rw [NodeState.arrivedOn, (hnode jp).2]
  exact h.streams jp stream

theorem crash (h : w.Sequential) (ip : String) :
    (w.apply clientCfg nodeCfg (.crash ip)).Sequential := by
  have hnode (jp : String) : (w.apply clientCfg nodeCfg (.crash ip)).node jp = newNode ∨
      (w.apply clientCfg nodeCfg (.crash ip)).node jp = w.node jp := by
    by_cases hjp : jp = ip
    · subst hjp
      exact .inl (Function.update_self _ _ _)
    · exact .inr (Function.update_of_ne hjp _ _)
  refine ⟨fun jp => ?_, fun jp stream => ?_⟩
  · rcases hnode jp with hnew | hold
    · rw [hnew]
      exact NodeState.inOrder_newNode
    · rw [hold]
      exact h.nodes jp
  · rcases hnode jp with hnew | hold
    · rw [hnew]
      exact List.nil_sublist _
    · rw [hold]
      exact h.streams jp stream

theorem step (h : w.Sequential) (hc : w.Carried) (hw : w.Issuing) {action : WorldAction}
    (henabled : w.enabled clientCfg nodeCfg action = true) :
    (w.apply clientCfg nodeCfg action).Sequential := by
  cases action with
  | accept ip stream batch =>
      simp only [enabled, Bool.and_eq_true, decide_eq_true_eq] at henabled
      exact h.accept hc hw henabled.1.1.2 henabled.2
  | node ip action =>
      obtain ⟨harrive, henabled⟩ := of_enabled_node henabled
      exact h.node hc harrive henabled
  | crash ip => exact h.crash ip
  | gateway | land | sever => exact ⟨h.nodes, h.streams⟩

end World.Sequential

theorem sequential_of_reachable
    (hw : (deployment clientCfg nodeCfg).ReachableIf World.InSequence w) : w.Sequential := by
  refine hw.invariant_of (fun w hw => And.intro (carried_of_reachable hw) (issuing_of_reachable hw))
    sequential_newWorld ?_
  rintro w action t ⟨hcarried, hissuing⟩ h _ hstep
  obtain ⟨henabled, rfl⟩ := System.guarded_step_eq_some_iff.mp hstep
  exact h.step hcarried hissuing henabled

namespace World.Sequential

/-- What an actor has executed was received on a stream, and came from there. -/
theorem received_of_executed (h : w.Sequential) (hc : w.Carried) {ip : String} {a : Nat}
    {env : RemoteEnvelope} (henv : env ∈ ((w.node ip).actor a).executed) :
    ∃ stream, (env, streamID stream) ∈ (w.node ip).arrived ∧ env ∈ w.received stream := by
  have hknown := (h.nodes ip).known a env (List.mem_append_left _ henv)
  obtain ⟨⟨env, sender⟩, harrived, rfl⟩ := List.mem_map.mp hknown
  obtain ⟨stream, rfl, hstream⟩ := hc.arrived ip env sender harrived
  exact ⟨stream, harrived, hstream⟩

/-- What an actor has executed came on the stream on which it was received. -/
theorem filter_received (h : w.Sequential) (hc : w.Carried) (hw : w.Issuing) (ip : String)
    (a : Nat) (stream : Stream) :
    (((w.node ip).actor a).executed.filter fun env => env ∈ w.received stream) =
      (w.node ip).cameOn (streamID stream) ((w.node ip).actor a).executed := by
  apply List.filter_congr
  intro env henv
  refine decide_eq_decide.mpr ⟨fun hreceived => ?_, fun harrived => ?_⟩
  · obtain ⟨source, harrived, hsource⟩ := h.received_of_executed hc henv
    have hsame := hw.sent_unique (hc.sent_of_received hsource) (hc.sent_of_received hreceived) rfl
    exact hsame ▸ harrived
  · obtain ⟨source, hsource, hreceived⟩ := hc.arrived ip env _ harrived
    rw [streamID_injective hsource]
    exact hreceived

/-- An actor executes the requests of a stream in the order in which they were received. -/
theorem executed_sublist (h : w.Sequential) (hc : w.Carried) (hw : w.Issuing) (ip : String)
    (a : Nat) (stream : Stream) :
    (((w.node ip).actor a).executed.filter fun env => env ∈ w.received stream) <+
      (w.streamer stream).sent := by
  rw [h.filter_received hc hw]
  calc (w.node ip).cameOn (streamID stream) ((w.node ip).actor a).executed
      <+ (w.node ip).arrivedOn (streamID stream) := (h.nodes ip).executed_sublist _ a
    _ <+ w.received stream := h.streams ip stream
    _ <+ (w.streamer stream).sent := (List.sublist_append_left _ _).trans (hc.passing stream)

/-- An actor executes no request twice: both times it would have come on the same stream. -/
theorem nodup_executed (h : w.Sequential) (hc : w.Carried) (hw : w.Issuing) (ip : String)
    (a : Nat) : (((w.node ip).actor a).executed.map RemoteEnvelope.requestId).Nodup := by
  rw [List.nodup_iff_sublist]
  intro reqID htwice
  obtain ⟨twice, hsub, hids⟩ := List.sublist_map_iff.mp htwice
  obtain ⟨env, rest, rfl, hid, hrest⟩ := List.map_eq_cons_iff.mp hids.symm
  obtain ⟨env', rfl, hid'⟩ := List.map_eq_singleton_iff.mp hrest
  obtain ⟨stream, _, hstream⟩ := h.received_of_executed hc (hsub.subset List.mem_cons_self)
  obtain ⟨stream', _, hstream'⟩ := h.received_of_executed hc
    (hsub.subset (List.mem_cons_of_mem _ (List.mem_singleton_self _)))
  obtain rfl := hw.sent_unique (hc.sent_of_received hstream) (hc.sent_of_received hstream')
    (hid.trans hid'.symm)
  have hboth : [env, env'] <+ ((w.node ip).actor a).executed.filter
      fun env => env ∈ w.received stream := by
    have hfiltered := hsub.filter fun env => env ∈ w.received stream
    rwa [List.filter_eq_self.mpr (by simp [hstream, hstream'])] at hfiltered
  have hnodup := (hw.nodup_sent stream).sublist
    ((hboth.trans (h.executed_sublist hc hw ip a stream)).map RemoteEnvelope.requestId)
  simp [hid, hid'] at hnodup

end World.Sequential

/-- In every run of the deployment, an actor executes the requests that come on a stream in the
order in which the gateway has sent them, and no request twice. -/
theorem executed_in_order (hw : (deployment clientCfg nodeCfg).ReachableIf World.InSequence w)
    (ip : String) (a : Nat) :
    (((w.node ip).actor a).executed.map RemoteEnvelope.requestId).Nodup ∧
      ∀ stream, (((w.node ip).actor a).executed.filter fun env => env ∈ w.received stream) <+
        (w.streamer stream).sent := by
  have hcarried := carried_of_reachable hw
  have hissuing := issuing_of_reachable hw
  have h := sequential_of_reachable hw
  exact ⟨h.nodup_executed hcarried hissuing ip a, h.executed_sublist hcarried hissuing ip a⟩

/-! Two transfers on one stream. The second one is sent before the first one is executed. -/

def lastCall : Dispatch := ⟨lastEnvelope, ⟨some 1⟩, "node-a", 0⟩

def lastServed : Call := ⟨streamID (againGateway, 0), lastEnvelope, []⟩

/-- The first transfer makes the actor. -/
def firstHandover : List Node.Action :=
  inquiring 0 againServed "node-a" ++ [.lookup 0 againServed] ++ rehydrating 0 againServed ++
    handing 0 againServed 0

/-- The second transfer is in the mailbox when the actor executes the first one. -/
def lastHandover : List Node.Action :=
  inquiring 0 lastServed "node-a" ++ [.lookup 0 lastServed] ++ handing 0 lastServed 0 ++
    executing 0 againEnvelope ⟨{ transferResult with txId := "1", requestId := 1 }, 0⟩ ++
    [.dequeue 0, .uncount 0 lastEnvelope, .handle 0 lastEnvelope 0,
      .execute 0 lastEnvelope 0 .applied]

def pipelined : List WorldAction :=
  (opening 0 againCall 0 ++ reusing 1 lastCall 0).map (.gateway againGateway) ++
    [.accept "node-a" (againGateway, 0) [againEnvelope]] ++ firstHandover.map (.node "node-a") ++
    [.accept "node-a" (againGateway, 0) [lastEnvelope]] ++ lastHandover.map (.node "node-a")

theorem executed_in_order_pipelined :
    (((standard.after pipelined).node "node-a").actor 0).executed =
        [againEnvelope, lastEnvelope] ∧
      [againEnvelope, lastEnvelope] <+
        ((standard.after pipelined).streamer (againGateway, 0)).sent ∧
      ([againEnvelope, lastEnvelope].map RemoteEnvelope.requestId).Nodup := by
  have hreachable : standard.ReachableIf World.InSequence (standard.after pipelined) :=
    System.reachableIf_of_admits (by decide +kernel)
  have hexecuted : (((standard.after pipelined).node "node-a").actor 0).executed =
      [againEnvelope, lastEnvelope] := by decide +kernel
  have hreceived : (standard.after pipelined).received (againGateway, 0) =
      [againEnvelope, lastEnvelope] := by decide +kernel
  obtain ⟨hnodup, horder⟩ := executed_in_order hreachable "node-a" 0
  have hstream := horder (againGateway, 0)
  rw [hexecuted, hreceived] at hstream
  rw [hexecuted] at hnodup
  exact ⟨hexecuted, hstream, hnodup⟩

end ActorCluster.Deployment
