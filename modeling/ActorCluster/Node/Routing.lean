import ActorCluster.Node.Aggregation
import ActorCluster.Node.Requests
import ActorCluster.Node.SoleWriter

/-! # Reply routing

A stream is bound to a request by the call that holds the request, by the reply
route, by whoever is about to put its result on the channel, and by the result
itself. A step binds a stream to a request only if the stream was bound to it
before, or if the request arrives on the stream.
-/

namespace ActorCluster.Node

open Remote Wallet Transition Custody ActorCluster.Runtime
open scoped List

namespace NodeState

/-- The ways in which a stream is bound to a request. -/
inductive Bound (n : NodeState) (key : ResultRouteKey) (reply : BatchSender) : Prop
  | call (p : Nat) (h : (key, reply) ∈ (n.thread p).owed)
  | route (h : n.replyRoutes key = some reply)
  | loop (a : Nat) (res : RemoteResult) (h : (n.actor a).loop = .push ⟨res, reply⟩)
      (hkey : resultKey res = key)
  | drain (d a : Nat) (env : RemoteEnvelope) (envs : List RemoteEnvelope)
      (h : n.drain d = .push a env reply envs) (hkey : routeKey env = key)
  | put (res : RemoteResult) (h : ⟨res, reply⟩ ∈ n.put) (hkey : resultKey res = key)

/-- A request with the key arrived on the stream. -/
def Matches (n : NodeState) (key : ResultRouteKey) (reply : BatchSender) : Prop :=
  ∃ env, (env, reply) ∈ n.arrived ∧ routeKey env = key

section Step

variable {cfg : Config} {n : NodeState} {db : Database} {action : Action}

/-- Only `route` registers a reply route, for a request of its own. -/
theorem route_back (henabled : n.enabled cfg action = true) {key : ResultRouteKey}
    {reply : BatchSender} (h : (n.apply cfg db action).replyRoutes key = some reply) :
    n.Bound key reply := by
  have hdrop (rk : ResultRouteKey)
      (h : Function.update n.replyRoutes rk none key = some reply) : n.Bound key reply := by
    by_cases hrk : key = rk
    · subst hrk
      rw [Function.update_self] at h
      cases h
    · rw [Function.update_of_ne hrk] at h
      exact .route h
  cases action with
  | loadSnapshot | loadEvents =>
      simp only [apply] at h
      split at h <;> exact .route h
  | route p call a =>
      have hp : n.thread p = .serving call (.route a) := by simpa [enabled] using henabled
      by_cases hkey : key = routeKey call.env
      · subst hkey
        cases (Function.update_self _ _ _).symm.trans h
        refine .call p ?_
        rw [hp]
        exact List.mem_cons_self
      · exact .route ((Function.update_of_ne hkey _ _).symm.trans h)
  | unroute p call a => exact hdrop _ h
  | answer d a env envs => exact hdrop _ h
  | emit a res => exact hdrop _ h
  | _ => exact .route h

end Step

end NodeState

/-- A loop pushes to the stream that it has found. -/
theorem ActorMove.push_back {n : NodeState} {db : Database} {action : Action} {a : Nat}
    {actor : LocalActor} (h : ActorMove n db action a actor) {queued : QueuedResult}
    (hpush : actor.loop = .push queued) : n.Bound (resultKey queued.res) queued.reply := by
  cases h with
  | stay | signal | swap | link | collect => exact .loop a queued.res hpush rfl
  | stop =>
      unfold LocalActor.stop at hpush
      split at hpush <;> exact .loop a queued.res hpush rfl
  | dequeue =>
      unfold LocalActor.dequeue at hpush
      split at hpush <;> cases hpush
  | execute =>
      rw [NodeState.execute, NodeState.setActor_actor_self] at hpush
      cases hpush
  | emit res =>
      dsimp only at hpush
      cases hroute : n.replyRoutes (resultKey res) with
      | none =>
          rw [hroute] at hpush
          cases hpush
      | some reply =>
          rw [hroute] at hpush
          cases hpush
          exact .route hroute
  | checkStatus =>
      dsimp only at hpush
      split at hpush <;> cases hpush
  | install | uncount | handle | deliver | wakeUp | exit => cases hpush

theorem DrainMove.push_back {n : NodeState} {action : Action} {d : Nat} {drain : Drain}
    (h : DrainMove n action d drain) {b : Nat} {env : RemoteEnvelope} {reply : BatchSender}
    {envs : List RemoteEnvelope} (hpush : drain = .push b env reply envs) :
    n.Bound (routeKey env) reply := by
  cases h with
  | stay => exact .drain d b env envs hpush rfl
  | answer a env' envs' =>
      cases hroute : n.replyRoutes (routeKey env') with
      | none =>
          rw [hroute] at hpush
          cases hpush
      | some reply' =>
          rw [hroute] at hpush
          cases hpush
          exact .route hroute
  | spawn | await | collect | collected | uncount | push | finish => cases hpush

namespace NodeState

variable {cfg : Config} {n : NodeState} {db : Database} {action : Action}

theorem put_back (henabled : n.enabled cfg action = true) {queued : QueuedResult}
    (h : queued ∈ (n.apply cfg db action).put) : n.Bound (resultKey queued.res) queued.reply := by
  have hold (h : queued ∈ n.put) : n.Bound (resultKey queued.res) queued.reply :=
    .put queued.res h rfl
  have hnew {queued' : QueuedResult} (hbound : n.Bound (resultKey queued'.res) queued'.reply)
      (h : queued ∈ n.put ++ [queued']) : n.Bound (resultKey queued.res) queued.reply := by
    rcases List.mem_append.mp h with h | h
    · exact hold h
    · cases List.mem_singleton.mp h
      exact hbound
  cases action with
  | loadSnapshot | loadEvents =>
      simp only [apply] at h
      split at h <;> exact hold h
  | reject p sender env rest =>
      have hp : n.thread p = .reject sender (env :: rest) ∧ n.hasRoom = true := by
        simpa [enabled] using henabled
      refine hnew (.call p ?_) h
      rw [hp.1]
      exact List.mem_cons_self
  | push p sender rest res =>
      have hp : n.thread p = .push sender rest res ∧ n.hasRoom = true := by
        simpa [enabled] using henabled
      refine hnew (.call p ?_) h
      rw [hp.1]
      exact List.mem_cons_self
  | drainPush d a env reply envs =>
      have hd : n.drain d = .push a env reply envs ∧ n.hasRoom = true := by
        simpa [enabled] using henabled
      exact hnew (.drain d a env envs hd.1 rfl) h
  | deliver a queued' =>
      have ha : (n.actor a).loop = .push queued' ∧ n.hasRoom = true := by
        simpa [enabled] using henabled
      exact hnew (.loop a queued'.res ha.1 rfl) h
  | _ => exact hold h

/-- A stream is bound to a request only by the arrival of the request on it. -/
theorem Bound.back (henabled : n.enabled cfg action = true) {key : ResultRouteKey}
    {reply : BatchSender} (h : (n.apply cfg db action).Bound key reply) :
    n.Bound key reply ∨
      ∃ p batch env, action = .arrive p reply batch ∧ env ∈ batch ∧ routeKey env = key := by
  cases h with
  | call r h =>
      by_cases harrive : ∃ sender batch, action = .arrive r sender batch
      · obtain ⟨sender, batch, rfl⟩ := harrive
        rw [show (n.apply cfg db (.arrive r sender batch)).thread r = .gate sender batch from
          setThread_thread_self _ _ _] at h
        obtain ⟨env, henv, heq⟩ := List.mem_map.mp h
        cases heq
        exact Or.inr ⟨r, batch, env, rfl, henv, rfl⟩
      · refine Or.inl (.call r (((threadMove_apply henabled r).owed ?_).subset h))
        exact fun sender batch haction => harrive ⟨sender, batch, haction⟩
  | route h => exact Or.inl (route_back henabled h)
  | loop a res h hkey => exact Or.inl (hkey ▸ (actorMove_apply henabled a).push_back h)
  | drain d a env envs h hkey => exact Or.inl (hkey ▸ (drainMove_apply henabled d).push_back h)
  | put res h hkey => exact Or.inl (hkey ▸ put_back henabled h)

theorem arrived_apply (cfg : Config) (n : NodeState) (db : Database)
    (harrive : ∀ p sender batch, action ≠ .arrive p sender batch) :
    (n.apply cfg db action).arrived = n.arrived := by
  cases action with
  | arrive p sender batch => exact absurd rfl (harrive p sender batch)
  | loadSnapshot | loadEvents =>
      simp only [apply]
      split <;> rfl
  | _ => rfl

theorem Matches.apply {key : ResultRouteKey} {reply : BatchSender} (h : n.Matches key reply) :
    (n.apply cfg db action).Matches key reply := by
  obtain ⟨env, henv, hkey⟩ := h
  refine ⟨env, ?_, hkey⟩
  by_cases harrive : ∃ p sender batch, action = .arrive p sender batch
  · obtain ⟨p, sender, batch, rfl⟩ := harrive
    exact List.mem_append_left _ henv
  · rw [arrived_apply cfg n db fun p sender batch h => harrive ⟨p, sender, batch, h⟩]
    exact henv

/-- Whatever stream is bound to a request, the request arrived on it. -/
def Routed (n : NodeState) : Prop := ∀ key reply, n.Bound key reply → n.Matches key reply

theorem routed_newNode : newNode.Routed := by
  intro key reply hbound
  cases hbound with
  | call p h => cases h
  | route h => cases h
  | loop a res h => cases h
  | drain d a env envs h => cases h
  | put res h => cases h

theorem Routed.step (h : n.Routed) (henabled : n.enabled cfg action = true) :
    (n.apply cfg db action).Routed := by
  intro key reply hbound
  rcases hbound.back henabled with hbound | ⟨p, batch, env, rfl, henv, hkey⟩
  · exact (h key reply hbound).apply
  · exact ⟨env, List.mem_append_right _ (List.mem_map_of_mem henv), hkey⟩

/-- No two requests that arrived have the same route key. -/
def UniqueRequests (n : NodeState) : Prop :=
  (n.arrived.map fun arrival => routeKey arrival.1).Nodup

theorem UniqueRequests.step (h : n.UniqueRequests) (hfresh : n.FreshRequests action) :
    (n.apply cfg db action).UniqueRequests := by
  by_cases harrive : ∃ p sender batch, action = .arrive p sender batch
  · obtain ⟨p, sender, batch, rfl⟩ := harrive
    have hmap : (batch.map fun env => (env, sender)).map (fun arrival => routeKey arrival.1) =
        batch.map routeKey := by
      rw [List.map_map]
      rfl
    rw [UniqueRequests, show (n.apply cfg db (.arrive p sender batch)).arrived =
      n.arrived ++ batch.map fun env => (env, sender) from rfl, List.map_append, hmap,
      List.nodup_append']
    refine ⟨h, hfresh.1, ?_⟩
    intro key hold hnew
    obtain ⟨env, henv, rfl⟩ := List.mem_map.mp hnew
    exact hfresh.2 env henv hold
  · rw [UniqueRequests,
      arrived_apply cfg n db fun p sender batch h => harrive ⟨p, sender, batch, h⟩]
    exact h

/-- A request arrived on one stream only. -/
theorem UniqueRequests.stream (h : n.UniqueRequests) {env : RemoteEnvelope}
    {sender reply : BatchSender} (harrived : (env, sender) ∈ n.arrived)
    (hmatches : n.Matches (routeKey env) reply) : reply = sender := by
  obtain ⟨env', harrived', hkey⟩ := hmatches
  have heq := List.inj_on_of_nodup_map h harrived' harrived hkey
  exact congrArg Prod.snd heq

end NodeState

/-- The contract of the callers, over a whole run. -/
def NodeRun.FreshRequests (r : NodeRun) : Event → Prop
  | .act action => r.node.FreshRequests action
  | .land _ _ => True

instance (r : NodeRun) (event : Event) : Decidable (r.FreshRequests event) := by
  cases event <;> unfold NodeRun.FreshRequests <;> infer_instance

/-- What holds in every state of a run whose requests are unique. -/
structure NodeState.Served (n : NodeState) : Prop where
  wellformed : n.Wellformed
  accounted : n.Accounted
  unique : n.UniqueRequests
  routed : n.Routed
  conserved : n.Conserved

theorem NodeState.served_newNode : newNode.Served :=
  ⟨wellformed_newNode, accounted_newNode, List.nodup_nil, routed_newNode, conserved_newNode⟩

theorem NodeState.Served.step {cfg : Config} {n : NodeState} {db : Database} {action : Action}
    (h : n.Served) (henabled : n.enabled cfg action = true) (hfresh : n.FreshRequests action) :
    (n.apply cfg db action).Served where
  wellformed := h.wellformed.step henabled
  accounted := h.accounted.step h.wellformed henabled hfresh
  unique := h.unique.step hfresh
  routed := h.routed.step henabled
  conserved := h.conserved.step henabled

theorem served_of_reachable {cfg : Config} {r : NodeRun}
    (hr : (node cfg).ReachableIf NodeRun.FreshRequests r) : r.node.Served := by
  refine System.ReachableIf.invariant (P := fun r => r.node.Served) ?_ ?_ hr
  · exact NodeState.served_newNode
  · rintro r event t h hguard hstep
    obtain ⟨henabled, rfl⟩ := System.guarded_step_eq_some_iff.mp hstep
    cases event with
    | act action => exact h.step henabled hguard
    | land => exact h

namespace NodeState.Served

variable {n : NodeState}

/-- What was sent had been put on the channel. -/
theorem sent_subset_put (h : n.Served) : unpack n.sent ⊆ n.put := by
  intro queued hqueued
  apply h.conserved.symm.subset
  simp only [List.mem_append]
  exact Or.inr (Or.inr (Or.inr hqueued))

/-- What was sent had been put on the channel once. -/
theorem nodup_sent (h : n.Served) :
    ((unpack n.sent).map fun queued => resultKey queued.res).Nodup := by
  have hput : (n.put.map fun queued => resultKey queued.res).Nodup := h.accounted.carried.nodup .put
  have hperm := h.conserved.map fun queued => resultKey queued.res
  rw [hperm.nodup_iff] at hput
  simp only [List.map_append] at hput
  exact hput.of_append_right.of_append_right.of_append_right

end NodeState.Served

theorem mem_unpack {responses : List (BatchSender × List RemoteResult)}
    {response : BatchSender × List RemoteResult} {res : RemoteResult}
    (hresponse : response ∈ responses) (hres : res ∈ response.2) :
    ⟨res, response.1⟩ ∈ unpack responses :=
  List.mem_flatMap.mpr ⟨response, hresponse, List.mem_map.mpr ⟨res, hres, rfl⟩⟩

/-- In every run whose requests are unique, a request that arrived has at most
one result. A result is sent at most once, and only on the stream on which its
request arrived. -/
theorem reply_routed {cfg : Config} {r : NodeRun}
    (hr : (node cfg).ReachableIf NodeRun.FreshRequests r) :
    (r.node.produced.map resultKey).Nodup ∧
    (∀ res ∈ r.node.produced, ∃ arrival ∈ r.node.arrived, routeKey arrival.1 = resultKey res) ∧
    ((unpack r.node.sent).map fun queued => resultKey queued.res).Nodup ∧
    (∀ response ∈ r.node.sent, ∀ res ∈ response.2,
      ∃ env, (env, response.1) ∈ r.node.arrived ∧ routeKey env = resultKey res) ∧
    ∀ env sender, (env, sender) ∈ r.node.arrived → ∀ response ∈ r.node.sent,
      ∀ res ∈ response.2, resultKey res = routeKey env → response.1 = sender := by
  have h := served_of_reachable hr
  have hstream : ∀ response ∈ r.node.sent, ∀ res ∈ response.2,
      r.node.Matches (resultKey res) response.1 := by
    intro response hresponse res hres
    exact h.routed _ _ (.put res (h.sent_subset_put (mem_unpack hresponse hres)) rfl)
  refine ⟨h.accounted.asked.nodup .produced, fun res hres => ?_, h.nodup_sent, hstream, ?_⟩
  · exact List.mem_map.mp (h.accounted.known .produced _ (List.mem_map_of_mem hres))
  · intro env sender harrived response hresponse res hres hkey
    exact h.unique.stream harrived (hkey ▸ hstream response hresponse res hres)

/-- A deposit without a request id comes on another stream. -/
def anonymousDeposit : List Event :=
  [.act (.gate 1 1 [deposit "2" 0]), .act (.next 1 1 (deposit "2" 0) []),
    .act (.push 1 1 [] (badRequestResult (deposit "2" 0))), .act (.finish 1 1)]

def bothResults : List QueuedResult := [⟨firstResult, 0⟩, ⟨badRequestResult (deposit "2" 0), 1⟩]

/-- The deposit is executed, and one flush sends both results. -/
def twoStreams : List Event :=
  [Event.act (.arrive 0 0 [deposit "1" 1])] ++ answeredDeposit.tail ++
    [Event.act (.arrive 1 1 [deposit "2" 0])] ++ anonymousDeposit ++
    [Event.act (.receive ⟨firstResult, 0⟩ bothResults.tail),
      .act (.receive ⟨badRequestResult (deposit "2" 0), 1⟩ []), .act .tick,
      .act (.flush false [0, 1]), .act (.respond (0, [firstResult])
        [(1, [badRequestResult (deposit "2" 0)])] false),
      .act (.respond (1, [badRequestResult (deposit "2" 0)]) [] false)]

theorem reply_routed_twoStreams :
    unpack ((node nodeA).after twoStreams).node.sent = bothResults ∧
      ∀ response ∈ ((node nodeA).after twoStreams).node.sent, ∀ res ∈ response.2,
        resultKey res = routeKey (deposit "1" 1) → response.1 = 0 := by
  have hreachable : (node nodeA).ReachableIf NodeRun.FreshRequests
      ((node nodeA).after twoStreams) :=
    System.reachableIf_of_admits (by decide +kernel)
  refine ⟨by decide +kernel, ?_⟩
  exact (reply_routed hreachable).2.2.2.2 (deposit "1" 1) 0 (by decide +kernel)

end ActorCluster.Node
