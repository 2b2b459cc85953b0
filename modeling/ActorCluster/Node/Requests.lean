import ActorCluster.Foundation.Custody
import ActorCluster.Node.Wellformed

/-! # The custody of requests

A request is known by its route key. Until a result is made for it, it is in
the hands of one `HandleBatch` call, one actor or one background drain; the
result then is in the hands of the actor that made it until it is put on the
result channel. Every step passes requests on in one of a few ways.
-/

namespace ActorCluster.Node

open Remote Wallet Transition Custody ActorCluster.Runtime
open scoped List

/-- The envelope is in the mailbox already. -/
def Serving.sent : Serving → Bool
  | .link _ | .wake _ => true
  | _ => false

/-- The requests that a `HandleBatch` call has to answer or to send on, with the
stream they came on. -/
def Thread.owed : Thread → List (ResultRouteKey × BatchSender)
  | .idle => []
  | .gate sender rest | .reject sender rest | .next sender rest =>
      rest.map fun env => (routeKey env, sender)
  | .push sender rest res => (resultKey res, sender) :: rest.map fun env => (routeKey env, sender)
  | .serving call pc =>
      (if pc.sent then [] else [(routeKey call.env, call.sender)]) ++
        call.rest.map fun env => (routeKey env, call.sender)

def Thread.requests (t : Thread) : List ResultRouteKey := t.owed.map Prod.fst

/-- The requests that an actor has not executed. -/
def LocalActor.requests (actor : LocalActor) : List ResultRouteKey :=
  actor.loop.request.toList.map routeKey ++ actor.mailbox.queue.map fun entry => routeKey entry.msg

/-- The requests that a drain has to answer. -/
def Drain.requests : Drain → List ResultRouteKey
  | .collect _ envs | .uncount _ envs | .answer _ envs => envs.map routeKey
  | .push _ env _ envs => routeKey env :: envs.map routeKey
  | _ => []

/-- The result that the loop has to hand over. -/
def Loop.result : Loop → Option RemoteResult
  | .emit res => some res
  | .push queued => some queued.res
  | _ => none

/-- Where requests are kept. -/
inductive Place where
  | thread (p : Nat)
  | actor (a : Nat)
  | drain (d : Nat)
  | produced
  deriving DecidableEq

/-- Where results are kept. -/
inductive Outbox where
  | actor (a : Nat)
  | put
  deriving DecidableEq

namespace NodeState

/-- Who has which requests, and those for which a result has been made. -/
def asked (n : NodeState) : Place → List ResultRouteKey
  | .thread p => (n.thread p).requests
  | .actor a => (n.actor a).requests
  | .drain d => (n.drain d).requests
  | .produced => n.produced.map resultKey

/-- Which results are on their way to the channel, and which were put on it. -/
def carried (n : NodeState) : Outbox → List ResultRouteKey
  | .actor a => ((n.actor a).loop.result.map resultKey).toList
  | .put => n.put.map fun queued => resultKey queued.res

/-- The ways in which a step passes requests and results on. -/
inductive Transfer (n n' : NodeState) : Prop
  | keep (hasked : ∀ place, n'.asked place <+~ n.asked place)
      (hcarried : ∀ outbox, n'.carried outbox <+~ n.carried outbox)
      (hproduced : n'.produced = n.produced) (harrived : n'.arrived = n.arrived)
  | arrive (p : Nat) (sender : BatchSender) (batch : List RemoteEnvelope)
      (hnodup : (batch.map routeKey).Nodup)
      (hfresh : ∀ env ∈ batch, routeKey env ∉ n.arrived.map fun arrival => routeKey arrival.1)
      (hasked : n'.asked = Function.update n.asked (.thread p) (batch.map routeKey))
      (hcarried : n'.carried = n.carried) (hproduced : n'.produced = n.produced)
      (harrived : n'.arrived = n.arrived ++ batch.map fun env => (env, sender))
  | hand (giver taker : Place) (key : ResultRouteKey) (hne : giver ≠ taker)
      (hgiver : n.asked giver ~ key :: n'.asked giver)
      (htaker : n'.asked taker ~ key :: n.asked taker)
      (hother : ∀ place, place ≠ giver → place ≠ taker → n'.asked place = n.asked place)
      (hcarried : n'.carried = n.carried) (hproduced : n'.produced = n.produced)
      (harrived : n'.arrived = n.arrived)
  | answer (giver : Place) (key : ResultRouteKey) (hne : giver ≠ .produced)
      (hgiver : n.asked giver ~ key :: n'.asked giver)
      (hproduced : n'.asked .produced = n.asked .produced ++ [key])
      (hother : ∀ place, place ≠ giver → place ≠ .produced → n'.asked place = n.asked place)
      (outbox : Outbox) (houtbox : n'.carried outbox = n.carried outbox ++ [key])
      (hcarried : ∀ other, other ≠ outbox → n'.carried other = n.carried other)
      (harrived : n'.arrived = n.arrived)
  | deliver (a : Nat) (key : ResultRouteKey) (hgiver : n.carried (.actor a) = [key])
      (hasked : n'.asked = n.asked) (hgone : n'.carried (.actor a) = [])
      (hput : n'.carried .put = n.carried .put ++ [key])
      (hother : ∀ outbox, outbox ≠ .actor a → outbox ≠ .put →
        n'.carried outbox = n.carried outbox)
      (harrived : n'.arrived = n.arrived)

/-- No request is in two hands, and none has two results. -/
structure Accounted (n : NodeState) : Prop where
  asked : Exclusive n.asked
  carried : Exclusive n.carried
  made : ∀ outbox, ∀ key ∈ n.carried outbox, key ∈ n.asked .produced
  known : ∀ place, ∀ key ∈ n.asked place, key ∈ n.arrived.map fun arrival => routeKey arrival.1

/-- The contract of the callers: a request id is used once. -/
def FreshRequests (n : NodeState) : Action → Prop
  | .arrive _ _ batch => (batch.map routeKey).Nodup ∧
      ∀ env ∈ batch, routeKey env ∉ n.arrived.map fun arrival => routeKey arrival.1
  | _ => True

instance (n : NodeState) (action : Action) : Decidable (n.FreshRequests action) := by
  cases action <;> unfold FreshRequests <;> infer_instance

section Transfer

variable {n n' : NodeState}

theorem Accounted.transfer (h : n.Accounted) (ht : Transfer n n') : n'.Accounted := by
  cases ht with
  | keep hasked hcarried hproduced harrived =>
      refine ⟨h.asked.mono hasked, h.carried.mono hcarried, fun outbox key hkey => ?_,
        fun place key hkey => ?_⟩
      · rw [NodeState.asked, hproduced]
        exact h.made outbox key ((hcarried outbox).subset hkey)
      · rw [harrived]
        exact h.known place key ((hasked place).subset hkey)
  | arrive p sender batch hnodup hfresh hasked hcarried hproduced harrived =>
      refine ⟨?_, hcarried ▸ h.carried, fun outbox key hkey => ?_, fun place key hkey => ?_⟩
      · rw [hasked]
        apply h.asked.receive _ hnodup
        · intro key hkey place hheld
          obtain ⟨env, henv, rfl⟩ := List.mem_map.mp hkey
          exact hfresh env henv (h.known place _ hheld)
        · exact (List.sublist_append_left _ _).subperm
      · rw [NodeState.asked, hproduced]
        exact h.made outbox key (hcarried ▸ hkey)
      · rw [harrived, List.map_append, List.map_map, List.mem_append]
        rw [hasked] at hkey
        rcases mem_update hkey with hkey | hkey
        · exact Or.inr hkey
        · exact Or.inl (h.known place key hkey)
  | hand giver taker key hne hgiver htaker hother hcarried hproduced harrived =>
      refine ⟨h.asked.hand hne hgiver htaker hother, hcarried ▸ h.carried,
        fun outbox key' hkey => ?_, fun place key' hkey => ?_⟩
      · rw [NodeState.asked, hproduced]
        exact h.made outbox key' (hcarried ▸ hkey)
      · rw [harrived]
        by_cases hg : place = giver
        · subst hg
          exact h.known place key' (hgiver.symm.subset (List.mem_cons_of_mem _ hkey))
        by_cases ht : place = taker
        · subst ht
          rcases List.mem_cons.mp (htaker.subset hkey) with rfl | hkey
          · exact h.known giver key' (hgiver.symm.subset List.mem_cons_self)
          · exact h.known place key' hkey
        · exact h.known place key' (hother place hg ht ▸ hkey)
  | answer giver key hne hgiver hproduced hother outbox houtbox hcarried harrived =>
      have hkey : key ∈ n.asked giver := hgiver.symm.subset List.mem_cons_self
      have hfresh : ∀ outbox, key ∉ n.carried outbox := fun outbox hheld =>
        h.asked.notMem hkey hne (h.made outbox key hheld)
      have hmore : ∀ key' ∈ n.asked .produced, key' ∈ n'.asked .produced := by
        intro key' hkey'
        rw [hproduced]
        exact List.mem_append_left _ hkey'
      refine ⟨h.asked.hand hne hgiver ?_ hother, h.carried.gain hfresh ?_ hcarried,
        fun other key' hkey' => ?_, fun place key' hkey' => ?_⟩
      · rw [hproduced]
        exact List.perm_append_singleton _ _
      · rw [houtbox]
        exact (List.perm_append_singleton _ _).subperm
      · by_cases ho : other = outbox
        · subst ho
          rw [houtbox] at hkey'
          rcases List.mem_append.mp hkey' with hkey' | hkey'
          · exact hmore key' (h.made other key' hkey')
          · rw [hproduced]
            exact List.mem_append_right _ hkey'
        · exact hmore key' (h.made other key' (hcarried other ho ▸ hkey'))
      · rw [harrived]
        by_cases hg : place = giver
        · subst hg
          exact h.known place key' (hgiver.symm.subset (List.mem_cons_of_mem _ hkey'))
        by_cases hp : place = .produced
        · subst hp
          rw [hproduced] at hkey'
          rcases List.mem_append.mp hkey' with hkey' | hkey'
          · exact h.known _ key' hkey'
          · cases List.mem_singleton.mp hkey'
            exact h.known giver key hkey
        · exact h.known place key' (hother place hg hp ▸ hkey')
  | deliver a key hgiver hasked hgone hput hother harrived =>
      refine ⟨hasked ▸ h.asked, h.carried.hand (p := .actor a) (q := .put) (x := key) nofun ?_ ?_
        hother, fun outbox key' hkey' => ?_, fun place key' hkey' => ?_⟩
      · rw [hgiver, hgone]
      · rw [hput]
        exact List.perm_append_singleton _ _
      · rw [hasked]
        by_cases ha : outbox = .actor a
        · subst ha
          rw [hgone] at hkey'
          cases hkey'
        by_cases hp : outbox = .put
        · subst hp
          rw [hput] at hkey'
          rcases List.mem_append.mp hkey' with hkey' | hkey'
          · exact h.made _ key' hkey'
          · exact h.made (.actor a) key' (hgiver ▸ hkey')
        · exact h.made outbox key' (hother outbox ha hp ▸ hkey')
      · rw [harrived]
        exact h.known place key' (hasked ▸ hkey')

end Transfer

section Places

variable {n : NodeState}

theorem asked_setThread_self (n : NodeState) (p : Nat) (t : Thread) :
    (n.setThread p t).asked (.thread p) = t.requests :=
  congrArg Thread.requests (setThread_thread_self n p t)

theorem asked_setThread_of_ne (n : NodeState) {p : Nat} (t : Thread) {place : Place}
    (h : place ≠ .thread p) : (n.setThread p t).asked place = n.asked place := by
  cases place with
  | thread r =>
      have hr : r ≠ p := fun hr => h (by rw [hr])
      exact congrArg Thread.requests (n.setThread_thread_of_ne t hr)
  | actor | drain | produced => rfl

theorem asked_setActor_self (n : NodeState) (a : Nat) (actor : LocalActor) :
    (n.setActor a actor).asked (.actor a) = actor.requests :=
  congrArg LocalActor.requests (setActor_actor_self n a actor)

theorem asked_setActor_of_ne (n : NodeState) {a : Nat} (actor : LocalActor) {place : Place}
    (h : place ≠ .actor a) : (n.setActor a actor).asked place = n.asked place := by
  cases place with
  | actor b =>
      have hb : b ≠ a := fun hb => h (by rw [hb])
      exact congrArg LocalActor.requests (n.setActor_actor_of_ne actor hb)
  | thread | drain | produced => rfl

theorem asked_setDrain_self (n : NodeState) (d : Nat) (drain : Drain) :
    (n.setDrain d drain).asked (.drain d) = drain.requests :=
  congrArg Drain.requests (Function.update_self _ _ _)

theorem asked_setDrain_of_ne (n : NodeState) {d : Nat} (drain : Drain) {place : Place}
    (h : place ≠ .drain d) : (n.setDrain d drain).asked place = n.asked place := by
  cases place with
  | drain e =>
      have he : e ≠ d := fun he => h (by rw [he])
      exact congrArg Drain.requests (Function.update_of_ne he _ _)
  | thread | actor | produced => rfl

theorem carried_setActor_self (n : NodeState) (a : Nat) (actor : LocalActor) :
    (n.setActor a actor).carried (.actor a) = (actor.loop.result.map resultKey).toList :=
  congrArg (fun actor : LocalActor => (actor.loop.result.map resultKey).toList)
    (setActor_actor_self n a actor)

theorem carried_setActor_of_ne (n : NodeState) {a : Nat} (actor : LocalActor) {outbox : Outbox}
    (h : outbox ≠ .actor a) : (n.setActor a actor).carried outbox = n.carried outbox := by
  cases outbox with
  | actor b =>
      have hb : b ≠ a := fun hb => h (by rw [hb])
      exact congrArg (fun actor : LocalActor => (actor.loop.result.map resultKey).toList)
        (n.setActor_actor_of_ne actor hb)
  | put => rfl

theorem asked_setActor (n : NodeState) (a : Nat) {actor : LocalActor}
    (h : actor.requests = (n.actor a).requests) : (n.setActor a actor).asked = n.asked := by
  funext place
  by_cases hplace : place = .actor a
  · subst hplace
    exact (asked_setActor_self n a actor).trans h
  · exact asked_setActor_of_ne n actor hplace

theorem carried_setActor (n : NodeState) (a : Nat) {actor : LocalActor}
    (h : actor.loop.result = (n.actor a).loop.result) :
    (n.setActor a actor).carried = n.carried := by
  funext outbox
  by_cases houtbox : outbox = .actor a
  · subst houtbox
    rw [carried_setActor_self, h]
    rfl
  · exact carried_setActor_of_ne n actor houtbox

end Places

end NodeState

theorem LocalActor.requests_dequeue {actor : LocalActor} (hloop : actor.loop = .dequeue) :
    actor.dequeue.requests = actor.requests := by
  unfold LocalActor.dequeue
  split
  next env hfront =>
    obtain ⟨rest, hqueue⟩ := Mailbox.front_eq_some_iff.mp hfront
    simp [requests, hloop, Loop.request, Mailbox.pop, hqueue]
  next => simp [requests, hloop, Loop.request]

theorem LocalActor.requests_link (actor : LocalActor) (p : Nat) :
    { actor with mailbox := actor.mailbox.link p }.requests = actor.requests := by
  have hmap := congrArg (List.map routeKey) (map_msg_linkEntry p actor.mailbox.queue)
  rw [List.map_map, List.map_map] at hmap
  exact congrArg (_ ++ ·) hmap

namespace ActorMove

variable {n : NodeState} {db : Database} {action : Action} {a : Nat} {actor : LocalActor}

/-- An actor gains a request only by a tail swap. -/
theorem requests (h : ActorMove n db action a actor) (hswap : ∀ p call, action ≠ .swap p call a) :
    actor.requests <+~ (n.actor a).requests := by
  have hsame {actor' : LocalActor} (hrequest : actor'.loop.request = (n.actor a).loop.request)
      (hqueue : actor'.mailbox.queue = (n.actor a).mailbox.queue) :
      actor'.requests <+~ (n.actor a).requests := by
    rw [LocalActor.requests, hrequest, hqueue]
    exact List.Subperm.refl _
  have hdrop {actor' : LocalActor} (hrequest : actor'.loop.request = none)
      (hqueue : actor'.mailbox.queue = (n.actor a).mailbox.queue) :
      actor'.requests <+~ (n.actor a).requests := by
    rw [LocalActor.requests, hrequest, hqueue]
    exact (List.sublist_append_right _ _).subperm
  cases h with
  | stay => exact List.Subperm.refl _
  | install => exact List.nil_subperm
  | stop =>
      unfold LocalActor.stop
      split
      · exact hsame rfl rfl
      · exact List.Subperm.refl _
  | signal => exact hsame rfl rfl
  | swap p call haction => exact absurd haction (hswap p call)
  | link p => exact (LocalActor.requests_link _ p).symm ▸ List.Subperm.refl _
  | collect =>
      exact (List.Sublist.append_left ((List.tail_sublist _).map _) _).subperm
  | dequeue hloop =>
      rw [LocalActor.requests_dequeue hloop]
  | uncount env hloop | handle env now hloop => exact hsame (by rw [hloop]; rfl) rfl
  | execute =>
      rw [NodeState.execute, NodeState.setActor_actor_self]
      exact hdrop rfl rfl
  | emit res =>
      refine hdrop ?_ rfl
      cases n.replyRoutes (resultKey res) <;> rfl
  | checkStatus =>
      refine hdrop ?_ rfl
      split <;> rfl
  | deliver | wakeUp | exit => exact hdrop rfl rfl

/-- An actor gains a result only by executing a request. -/
theorem result (h : ActorMove n db action a actor)
    (hexecute : ∀ env now outcome, action ≠ .execute a env now outcome) :
    (actor.loop.result.map resultKey).toList <+~
      ((n.actor a).loop.result.map resultKey).toList := by
  have hnone {actor' : LocalActor} (hresult : actor'.loop.result = none) :
      (actor'.loop.result.map resultKey).toList <+~
        ((n.actor a).loop.result.map resultKey).toList := by
    rw [hresult]
    exact List.nil_subperm
  cases h with
  | stop =>
      unfold LocalActor.stop
      split <;> exact List.Subperm.refl _
  | dequeue =>
      refine hnone ?_
      unfold LocalActor.dequeue
      split <;> rfl
  | execute env now outcome haction => exact absurd haction (hexecute env now outcome)
  | emit res hloop =>
      rw [hloop]
      cases n.replyRoutes (resultKey res) with
      | none => exact List.nil_subperm
      | some reply => exact List.Subperm.refl _
  | checkStatus =>
      refine hnone ?_
      split <;> rfl
  | install | uncount | handle | deliver | wakeUp | exit => exact hnone rfl
  | stay | signal | swap | link | collect => exact List.Subperm.refl _

end ActorMove

/-- Only an arrival gives a call new requests. -/
theorem ThreadMove.owed {n : NodeState} {db : Database} {action : Action} {p : Nat} {t : Thread}
    (h : ThreadMove n db action p t) (harrive : ∀ sender batch, action ≠ .arrive p sender batch) :
    t.owed <+~ (n.thread p).owed := by
  cases h with
  | stay => exact .refl _
  | arrive sender batch haction => exact absurd haction (harrive sender batch)
  | reject sender env rest hp | push sender rest res hp =>
      rw [hp]
      exact (List.sublist_cons_self _ _).subperm
  | finish => exact List.nil_subperm
  | go call pc pc' hp hmove =>
      rw [hp]
      cases hmove with
      | swap => exact (List.sublist_cons_self _ _).subperm
      | _ => exact .refl _
  | overload _ _ hp | accept _ _ hp | serve _ _ _ hp | refuse _ _ _ hp | noSnapshot _ _ _ hp
  | noEvents _ _ _ _ hp | nobody _ hp | spawn _ _ _ hp | wake _ _ hp =>
      rw [hp]
      exact .refl _

/-- Only by collecting from a mailbox does a drain get a request. -/
theorem DrainMove.requests {n : NodeState} {action : Action} {d : Nat} {drain : Drain}
    (h : DrainMove n action d drain)
    (hcollect : ∀ a envs, action = .collect d a envs → (n.actor a).mailbox.front = none) :
    drain.requests <+~ (n.drain d).requests := by
  cases h with
  | stay => exact .refl _
  | spawn | await | finish => exact List.nil_subperm
  | collect a envs env haction _ hfront =>
      rw [hcollect a envs haction] at hfront
      cases hfront
  | collected a envs hd | uncount a envs hd =>
      rw [hd]
      exact .refl _
  | answer a env envs hd =>
      rw [hd]
      cases n.replyRoutes (routeKey env) with
      | none => exact (List.sublist_cons_self _ _).subperm
      | some reply => exact .refl _
  | push a env reply envs _ hd =>
      rw [hd]
      exact (List.sublist_cons_self _ _).subperm

/-- The result of an executed request carries its route key. -/
theorem resultKey_execute {actor : LocalActor} (haddressed : actor.Addressed)
    {env : RemoteEnvelope} (henv : actorKey env = actor.key) (store : WalletStore) (now : Int)
    (outcome : WriteOutcome) :
    resultKey (completeResult (actor.state.handle store env now outcome).result env) =
      routeKey env := by
  obtain ⟨_, _, htenant, huid, _, hrequest, _⟩ :=
    actor.state.handle_identity store env now outcome
  have hkey := congrArg ActorKey.tenantID henv
  have hkey' := congrArg ActorKey.uid henv
  simp only [actorKey] at hkey hkey'
  simp [resultKey, completeResult, routeKey, htenant, huid, hrequest, haddressed.identity, hkey,
    hkey']

namespace NodeState

variable {cfg : Config} {n : NodeState} {db : Database} {action : Action}

/-- A call or a drain answers one of its requests itself. -/
theorem Transfer.enqueueResult {n n' : NodeState} (giver : Place) (reply : BatchSender)
    (res : RemoteResult) (hne : giver ≠ .produced)
    (hgiver : n.asked giver ~ resultKey res :: n'.asked giver)
    (hasked : ∀ place, place ≠ giver → n'.asked place = (n.enqueueResult reply res).asked place)
    (hcarried : n'.carried = (n.enqueueResult reply res).carried)
    (harrived : n'.arrived = n.arrived) : Transfer n n' := by
  refine .answer giver (resultKey res) hne hgiver ?_ (fun place hg hp => ?_) .put ?_
    (fun other ho => ?_) harrived
  · rw [hasked _ hne.symm]
    exact List.map_append
  · rw [hasked place hg]
    cases place <;> first | rfl | exact absurd rfl hp
  · rw [hcarried]
    exact List.map_append
  · rw [hcarried]
    cases other <;> first | rfl | exact absurd rfl ho

/-- Most steps only keep or drop requests. -/
theorem Transfer.quiet (henabled : n.enabled cfg action = true)
    (harrive : ∀ p sender batch, action ≠ .arrive p sender batch)
    (hswap : ∀ p call a, action ≠ .swap p call a)
    (hcollect : ∀ d a envs, action = .collect d a envs → (n.actor a).mailbox.front = none)
    (hexecute : ∀ a env now outcome, action ≠ .execute a env now outcome)
    (hproduced : (n.apply cfg db action).produced = n.produced)
    (hput : (n.apply cfg db action).put = n.put)
    (harrived : (n.apply cfg db action).arrived = n.arrived) :
    Transfer n (n.apply cfg db action) := by
  refine .keep (fun place => ?_) (fun outbox => ?_) hproduced harrived
  · cases place with
    | thread r =>
        exact subperm_map _ ((threadMove_apply henabled r).owed fun sender batch =>
          harrive r sender batch)
    | actor a => exact (actorMove_apply henabled a).requests fun p call => hswap p call a
    | drain d => exact (drainMove_apply henabled d).requests fun a envs => hcollect d a envs
    | produced =>
        rw [asked, asked, hproduced]
  · cases outbox with
    | actor a => exact (actorMove_apply henabled a).result fun env now => hexecute a env now
    | put =>
        rw [carried, carried, hput]

/-- The step hands no request to anybody. -/
def handsNothing : Action → Bool
  | .arrive _ _ _ | .swap _ _ _ | .collect _ _ _ | .execute _ _ _ _ => false
  | _ => true

theorem Transfer.of_handsNothing (henabled : n.enabled cfg action = true)
    (hnothing : handsNothing action = true)
    (hproduced : (n.apply cfg db action).produced = n.produced)
    (hput : (n.apply cfg db action).put = n.put)
    (harrived : (n.apply cfg db action).arrived = n.arrived) :
    Transfer n (n.apply cfg db action) := by
  refine .quiet henabled ?_ ?_ ?_ ?_ hproduced hput harrived
  · rintro p sender batch rfl
    cases hnothing
  · rintro p call a rfl
    cases hnothing
  · rintro d a envs rfl
    cases hnothing
  · rintro a env now outcome rfl
    cases hnothing

/-- Every step passes requests and results on in one of these ways. -/
theorem transfer_apply (hw : n.Wellformed) (henabled : n.enabled cfg action = true)
    (hfresh : n.FreshRequests action) : Transfer n (n.apply cfg db action) := by
  cases action with
  | arrive p sender batch =>
      refine .arrive p sender batch hfresh.1 hfresh.2 ?_ rfl rfl rfl
      funext place
      by_cases hplace : place = .thread p
      · subst hplace
        rw [Function.update_self]
        refine (asked_setThread_self _ _ _).trans ?_
        rw [Thread.requests, Thread.owed, List.map_map]
        rfl
      · rw [Function.update_of_ne hplace]
        exact asked_setThread_of_ne _ _ hplace
  | reject p sender env rest =>
      have hp : n.thread p = .reject sender (env :: rest) ∧ n.hasRoom = true := by
        simpa [enabled] using henabled
      refine .enqueueResult (.thread p) sender (overloadedResult env) (by simp) ?_
        (fun place hplace => asked_setThread_of_ne _ _ hplace) rfl rfl
      rw [show (n.apply cfg db (.reject p sender env rest)).asked (.thread p) = _ from
        asked_setThread_self _ _ _, asked, hp.1]
      exact .refl _
  | push p sender rest res =>
      have hp : n.thread p = .push sender rest res ∧ n.hasRoom = true := by
        simpa [enabled] using henabled
      refine .enqueueResult (.thread p) sender res (by simp) ?_
        (fun place hplace => asked_setThread_of_ne _ _ hplace) rfl rfl
      rw [show (n.apply cfg db (.push p sender rest res)).asked (.thread p) = _ from
        asked_setThread_self _ _ _, asked, hp.1]
      exact .refl _
  | drainPush d a env reply envs =>
      have hd : n.drain d = .push a env reply envs ∧ n.hasRoom = true := by
        simpa [enabled] using henabled
      refine .enqueueResult (.drain d) reply (evictedResult env) (by simp) ?_
        (fun place hplace => asked_setDrain_of_ne _ _ hplace) rfl rfl
      rw [show (n.apply cfg db (.drainPush d a env reply envs)).asked (.drain d) = _ from
        asked_setDrain_self _ _ _, asked, hd.1]
      exact .refl _
  | swap p call a =>
      have hp : n.thread p = .serving call (.swap a) := by simpa [enabled] using henabled
      refine .hand (.thread p) (.actor a) (routeKey call.env) (by simp) ?_ ?_
        (fun place hg ht => ?_) (carried_setActor n a rfl) rfl rfl
      · rw [show (n.apply cfg db (.swap p call a)).asked (.thread p) = _ from
          asked_setThread_self _ _ _, asked, hp]
        exact .refl _
      · rw [show (n.apply cfg db (.swap p call a)).asked (.actor a) = _ from
          asked_setActor_self n a _]
        simp only [LocalActor.requests, Mailbox.swap, List.map_append, ← List.append_assoc]
        exact List.perm_append_singleton _ _
      · exact (asked_setThread_of_ne _ _ hg).trans (asked_setActor_of_ne _ _ ht)
  | collect d a envs =>
      have hd : n.drain d = .collect a envs := by simpa [enabled] using henabled
      cases hfront : (n.actor a).mailbox.front with
      | none =>
          refine .quiet henabled (by simp) (by simp) ?_ (by simp) rfl rfl rfl
          rintro _ _ _ ⟨⟩
          exact hfront
      | some env =>
          obtain ⟨rest, hqueue⟩ := Mailbox.front_eq_some_iff.mp hfront
          refine .hand (.actor a) (.drain d) (routeKey env) (by simp) ?_ ?_ (fun place hg ht => ?_)
            (carried_setActor n a rfl) rfl rfl
          · rw [show (n.apply cfg db (.collect d a envs)).asked (.actor a) = _ from
              asked_setActor_self n a _, hfront]
            simp only [asked, LocalActor.requests, Option.elim_some, Mailbox.pop, hqueue,
              List.map_cons, List.tail_cons]
            exact List.perm_middle
          · rw [show (n.apply cfg db (.collect d a envs)).asked (.drain d) = _ from
              asked_setDrain_self _ _ _, hfront, asked, hd]
            simp only [Option.elim_some, Drain.requests, List.map_append]
            exact List.perm_append_singleton _ _
          · exact (asked_setDrain_of_ne _ _ ht).trans (asked_setActor_of_ne _ _ hg)
  | execute a env now outcome =>
      have ha : (n.actor a).loop = .execute env now := by simpa [enabled] using henabled
      have hkey := resultKey_execute (hw.addressed a)
        ((hw.addressed a).inHand env (by rw [ha]; rfl)) (db.wallet (n.actor a).key) now outcome
      refine .answer (.actor a) (routeKey env) (by simp) ?_ ?_ (fun place hg hp => ?_) (.actor a) ?_
        (fun other ho => ?_) rfl
      · rw [show (n.apply cfg db (.execute a env now outcome)).asked (.actor a) = _ from
          asked_setActor_self _ _ _]
        simp only [asked, LocalActor.requests, ha]
        exact .refl _
      · rw [← hkey]
        exact List.map_append
      · rw [← asked_setActor_of_ne n _ hg]
        cases place <;> first | rfl | exact absurd rfl hp
      · rw [show (n.apply cfg db (.execute a env now outcome)).carried (.actor a) = _ from
          carried_setActor_self _ _ _, carried, ha, ← hkey]
        rfl
      · rw [← carried_setActor_of_ne n _ ho]
        cases other <;> rfl
  | deliver a queued =>
      have ha : (n.actor a).loop = .push queued ∧ n.hasRoom = true := by
        simpa [enabled] using henabled
      refine .deliver a (resultKey queued.res) ?_ ?_ (carried_setActor_self _ _ _) ?_
        (fun outbox houtbox hput => ?_) rfl
      · rw [carried, ha.1]
        rfl
      · refine asked_setActor n a ?_
        rw [LocalActor.requests, LocalActor.requests, ha.1]
        rfl
      · exact List.map_append
      · rw [← carried_setActor_of_ne n _ houtbox]
        cases outbox <;> first | rfl | exact absurd rfl hput
  | loadSnapshot | loadEvents =>
      refine .of_handsNothing henabled rfl ?_ ?_ ?_ <;>
        · simp only [apply]
          split <;> rfl
  | _ => exact .of_handsNothing henabled rfl rfl rfl rfl

theorem accounted_newNode : newNode.Accounted := by
  have hasked : ∀ place, newNode.asked place = [] := by
    intro place
    cases place <;> rfl
  have hcarried : ∀ outbox, newNode.carried outbox = [] := by
    intro outbox
    cases outbox <;> rfl
  refine ⟨⟨fun place => ?_, fun place other key hne hkey => ?_⟩,
    ⟨fun outbox => ?_, fun outbox other key hne hkey => ?_⟩, fun outbox key hkey => ?_,
    fun place key hkey => ?_⟩
  all_goals simp_all

theorem Accounted.step (h : n.Accounted) (hw : n.Wellformed)
    (henabled : n.enabled cfg action = true) (hfresh : n.FreshRequests action) :
    (n.apply cfg db action).Accounted :=
  h.transfer (transfer_apply hw henabled hfresh)

end NodeState

end ActorCluster.Node
