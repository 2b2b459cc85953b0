import ActorCluster.Node.Routing

/-! # Registered routes

A reply route is registered before its request is sent to an actor, and nobody
but the one who answers the request takes it away. So a request that waits in a
mailbox or in the hands of a drain still has its route.
-/

namespace ActorCluster.Node

open Remote Wallet Transition Custody ActorCluster.Runtime
open scoped List

/-- The route of the envelope is registered, and the envelope is not sent. -/
def Serving.registered : Serving → Bool
  | .send _ | .count _ | .swap _ => true
  | _ => false

/-- The envelopes that a drain has taken and not looked up. -/
def Drain.held : Drain → List RemoteEnvelope
  | .collect _ envs | .uncount _ envs | .answer _ envs | .push _ _ _ envs => envs
  | _ => []

/-- The requests whose routes a drain has yet to look up. -/
def Drain.waiting (drain : Drain) : List ResultRouteKey := drain.held.map routeKey

theorem Drain.waiting_subset_requests (drain : Drain) : drain.waiting ⊆ drain.requests := by
  cases drain with
  | push a env reply envs => exact List.subset_cons_self _ _
  | unused | await | collect | uncount | answer | finished => exact List.Subset.refl _

namespace NodeState

/-- The requests that need their routes. -/
inductive Awaits (n : NodeState) (key : ResultRouteKey) : Prop
  | call (p : Nat) (call : Call) (pc : Serving) (h : n.thread p = .serving call pc)
      (hpc : pc.registered = true) (hkey : routeKey call.env = key)
  | actor (a : Nat) (h : key ∈ (n.actor a).requests)
  | drain (d : Nat) (h : key ∈ (n.drain d).waiting)

/-- A request that needs its route is nowhere else. -/
theorem Awaits.place {n : NodeState} {key : ResultRouteKey} (h : n.Awaits key) (hn : n.Accounted)
    {place : Place} (hplace : key ∈ n.asked place) :
    place ≠ .produced ∧
      (∀ p, place = .thread p → ∃ call pc, n.thread p = .serving call pc ∧ pc.registered = true) ∧
      ∀ d, place = .drain d → key ∈ (n.drain d).waiting := by
  cases h with
  | call p call pc h hpc hkey =>
      have hsent : pc.sent = false := by
        cases pc <;> first | rfl | cases hpc
      have hasked : key ∈ n.asked (.thread p) := by
        rw [asked, h, Thread.requests, Thread.owed, hsent, ← hkey]
        exact List.mem_cons_self
      cases hn.asked.unique _ _ key hplace hasked
      refine ⟨(by simp), ?_, (by simp)⟩
      rintro _ ⟨⟩
      exact ⟨call, pc, h, hpc⟩
  | actor a h =>
      cases hn.asked.unique _ (.actor a) key hplace h
      exact ⟨(by simp), (by simp), (by simp)⟩
  | drain d h =>
      have hasked : key ∈ n.asked (.drain d) := (n.drain d).waiting_subset_requests h
      cases hn.asked.unique _ _ key hplace hasked
      refine ⟨(by simp), (by simp), ?_⟩
      rintro _ ⟨⟩
      exact h

end NodeState

/-- A call gets a registered route by registering it. -/
theorem ThreadMove.registered_back {n : NodeState} {db : Database} {action : Action} {p : Nat}
    {t : Thread} (h : ThreadMove n db action p t) {call : Call} {pc : Serving}
    (ht : t = .serving call pc) (hpc : pc.registered = true) :
    (∃ pc', n.thread p = .serving call pc' ∧ pc'.registered = true) ∨
      ∃ a, action = .route p call a := by
  cases h with
  | stay => exact Or.inl ⟨pc, ht, hpc⟩
  | serve =>
      cases ht
      cases hpc
  | go call' pc₀ pc' hp hmove =>
      cases ht
      cases hmove with
      | route a haction => exact Or.inr ⟨a, haction⟩
      | accept | count => exact Or.inl ⟨_, hp, rfl⟩
      | _ => cases hpc
  | _ => cases ht

/-- A drain gets a request from the mailbox it collects from. -/
theorem DrainMove.waiting_back {n : NodeState} {action : Action} {d : Nat} {drain : Drain}
    (h : DrainMove n action d drain) {key : ResultRouteKey} (hkey : key ∈ drain.waiting) :
    key ∈ (n.drain d).waiting ∨ ∃ a, key ∈ (n.actor a).requests := by
  cases h with
  | stay => exact Or.inl hkey
  | spawn | await | finish => cases hkey
  | collect a envs env _ hd hfront =>
      rw [Drain.waiting, Drain.held, List.map_append, List.mem_append] at hkey
      rcases hkey with hkey | hkey
      · rw [hd]
        exact Or.inl hkey
      · obtain ⟨rest, hqueue⟩ := Mailbox.front_eq_some_iff.mp hfront
        refine Or.inr ⟨a, List.mem_append_right _ ?_⟩
        rw [hqueue, List.mem_singleton.mp hkey]
        exact List.mem_cons_self
  | collected a envs hd | uncount a envs hd | push a env reply envs _ hd =>
      rw [hd]
      exact Or.inl hkey
  | answer a env envs hd =>
      rw [hd]
      refine Or.inl (List.mem_cons_of_mem _ ?_)
      cases hroute : n.replyRoutes (routeKey env) with
      | none =>
          rw [hroute] at hkey
          exact hkey
      | some reply =>
          rw [hroute] at hkey
          exact hkey

namespace NodeState

variable {cfg : Config} {n : NodeState} {db : Database} {action : Action}

/-- A request comes to need its route when the route is registered. -/
theorem Awaits.back (henabled : n.enabled cfg action = true) {key : ResultRouteKey}
    (h : (n.apply cfg db action).Awaits key) :
    n.Awaits key ∨ ∃ p call a, action = .route p call a ∧ routeKey call.env = key := by
  cases h with
  | call p call pc h hpc hkey =>
      have hmove : ThreadMove n db action p ((n.apply cfg db action).thread p) :=
        threadMove_apply henabled p
      rcases hmove.registered_back h hpc with ⟨pc', hp, hpc'⟩ | ⟨a, haction⟩
      · exact Or.inl (.call p call pc' hp hpc' hkey)
      · exact Or.inr ⟨p, call, a, haction, hkey⟩
  | actor a h =>
      by_cases hswap : ∃ p call, action = .swap p call a
      · obtain ⟨p, call, rfl⟩ := hswap
        have hp : n.thread p = .serving call (.swap a) := by simpa [enabled] using henabled
        rw [show (n.apply cfg db (.swap p call a)).actor a = _ from setActor_actor_self n a _] at h
        simp only [LocalActor.requests, Mailbox.swap, List.map_append, ← List.append_assoc] at h
        rcases List.mem_append.mp h with h | h
        · exact Or.inl (.actor a h)
        · exact Or.inl (.call p call (.swap a) hp rfl (List.mem_singleton.mp h).symm)
      · have hmove : ActorMove n db action a ((n.apply cfg db action).actor a) :=
          actorMove_apply henabled a
        have hrequests := hmove.requests fun p call haction => hswap ⟨p, call, haction⟩
        exact Or.inl (.actor a (hrequests.subset h))
  | drain d h =>
      rcases (drainMove_apply henabled d).waiting_back h with h | ⟨a, h⟩
      · exact Or.inl (.drain d h)
      · exact Or.inl (.actor a h)

theorem route_registers (cfg : Config) (n : NodeState) (db : Database) (p : Nat) (call : Call)
    (a : Nat) :
    (n.apply cfg db (.route p call a)).replyRoutes (routeKey call.env) = some call.sender :=
  Function.update_self _ _ _

/-- A route is taken away by the one who answers, or by a send that failed. -/
theorem route_kept (cfg : Config) (db : Database) (action : Action) {key : ResultRouteKey}
    (h : (n.replyRoutes key).isSome) :
    ((n.apply cfg db action).replyRoutes key).isSome ∨
      (∃ p call a, action = .unroute p call a ∧ routeKey call.env = key) ∨
      (∃ a res, action = .emit a res ∧ resultKey res = key) ∨
      ∃ d a env envs, action = .answer d a env envs ∧ routeKey env = key := by
  have hdrop {rk : ResultRouteKey} (hrk : rk ≠ key) (reply : Option BatchSender) :
      (Function.update n.replyRoutes rk reply key).isSome := by
    rwa [Function.update_of_ne hrk.symm]
  cases action with
  | loadSnapshot | loadEvents =>
      left
      simp only [apply]
      split <;> exact h
  | route p call a =>
      left
      by_cases hrk : routeKey call.env = key
      · rw [← hrk, route_registers]
        rfl
      · exact hdrop hrk _
  | unroute p call a =>
      by_cases hrk : routeKey call.env = key
      · exact Or.inr (Or.inl ⟨p, call, a, rfl, hrk⟩)
      · exact Or.inl (hdrop hrk _)
  | emit a res =>
      by_cases hrk : resultKey res = key
      · exact Or.inr (Or.inr (Or.inl ⟨a, res, rfl, hrk⟩))
      · exact Or.inl (hdrop hrk _)
  | answer d a env envs =>
      by_cases hrk : routeKey env = key
      · exact Or.inr (Or.inr (Or.inr ⟨d, a, env, envs, rfl, hrk⟩))
      · exact Or.inl (hdrop hrk _)
  | _ => exact Or.inl h

/-- A request that needs its route has it. -/
def Registered (n : NodeState) : Prop := ∀ key, n.Awaits key → (n.replyRoutes key).isSome

theorem registered_newNode : newNode.Registered := by
  intro key hawaits
  cases hawaits with
  | call p call pc h => cases h
  | actor a h => cases h
  | drain d h => cases h

theorem Registered.step (h : n.Registered) (hn : n.Accounted) (hw : n.Wellformed)
    (henabled : n.enabled cfg action = true) (hfresh : n.FreshRequests action) :
    (n.apply cfg db action).Registered := by
  intro key hawaits
  have hn' : (n.apply cfg db action).Accounted := hn.step hw henabled hfresh
  rcases hawaits.back henabled with hbefore | ⟨p, call, a, rfl, rfl⟩
  · have hroute := h key hbefore
    -- whoever takes the route away has the request, and no longer needs the route
    rcases route_kept cfg db action hroute with hkept | ⟨p, call, a, rfl, rfl⟩ |
      ⟨a, res, rfl, rfl⟩ | ⟨d, a, env, envs, rfl, rfl⟩
    · exact hkept
    · have hp : (n.apply cfg db (.unroute p call a)).thread p = .serving call (.forget a) :=
        setThread_thread_self _ _ _
      have hasked : routeKey call.env ∈ (n.apply cfg db (.unroute p call a)).asked (.thread p) := by
        rw [asked, hp]
        exact List.mem_cons_self
      obtain ⟨call', pc, hpc, hregistered⟩ := (hawaits.place hn' hasked).2.1 p rfl
      cases hp.symm.trans hpc
      cases hregistered
    · have ha : (n.actor a).loop = .emit res := by simpa [enabled] using henabled
      have hcarried : resultKey res ∈ n.carried (.actor a) := by
        rw [carried, ha]
        exact List.mem_cons_self
      have hasked : resultKey res ∈ (n.apply cfg db (.emit a res)).asked .produced :=
        hn.made (.actor a) _ hcarried
      exact absurd rfl (hawaits.place hn' hasked).1
    · obtain ⟨reply, hreply⟩ := Option.isSome_iff_exists.mp hroute
      have hd : (n.apply cfg db (.answer d a env envs)).drain d = .push a env reply envs := by
        simp only [apply, hreply]
        exact Function.update_self _ _ _
      have hrequests : (n.apply cfg db (.answer d a env envs)).asked (.drain d) =
          routeKey env :: envs.map routeKey := by
        rw [asked, hd]
        rfl
      have hnodup := hn'.asked.nodup (.drain d)
      have hwaiting := (hawaits.place hn' (hrequests ▸ List.mem_cons_self)).2.2 d rfl
      rw [hrequests] at hnodup
      rw [hd] at hwaiting
      exact absurd hwaiting (List.nodup_cons.mp hnodup).1
  · rw [route_registers]
    rfl

end NodeState

end ActorCluster.Node
