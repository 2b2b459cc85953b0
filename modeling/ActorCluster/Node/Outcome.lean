import ActorCluster.Node.ForceKill
import ActorCluster.Node.Rest

/-! # What becomes of a request

A request that has arrived is never out of sight: some call, actor or drain has it, or its
result is on its way to the channel or on it. A result is dropped only if its route is
missing, which does not happen while request ids are unique.
-/

namespace ActorCluster.Node

open Remote Wallet Transition Custody ActorCluster.Runtime
open scoped List

namespace NodeState

variable {cfg : Config} {n : NodeState} {db : Database} {action : Action} {a p : Nat}
  {key : ResultRouteKey}

/-- Where a request or its result is. -/
inductive Tracked (n : NodeState) (key : ResultRouteKey) : Prop
  | call (p : Nat) (h : key ∈ (n.thread p).requests)
  | actor (a : Nat) (h : key ∈ (n.actor a).requests)
  | drain (d : Nat) (h : key ∈ (n.drain d).requests)
  | result (outbox : Outbox) (h : key ∈ n.carried outbox)

/-- Identities that were not given to an actor have nothing. -/
def Blank (n : NodeState) : Prop :=
  ∀ a, n.started ≤ a → (n.actor a).requests = [] ∧ (n.actor a).loop.result = none

theorem Blank.step (h : n.Blank) (hw : n.Wellformed) (henabled : n.enabled cfg action = true) :
    (n.apply cfg db action).Blank := by
  intro a ha
  obtain ⟨hrequests, hresult⟩ := h a (Nat.le_trans (started_le_apply cfg n db action) ha)
  have hmove : ActorMove n db action a _ := actorMove_apply henabled a
  have hlt (hlt : a < n.started) : False := by
    have hle := Nat.le_trans (started_le_apply cfg n db action) ha
    omega
  constructor
  · apply List.subperm_nil.mp
    rw [← hrequests]
    apply hmove.requests
    rintro p call rfl
    exact hlt (hw.targets p call _ a (of_decide_eq_true henabled) rfl).1
  · have hkeys : (((n.apply cfg db action).actor a).loop.result.map resultKey).toList <+~
        ((n.actor a).loop.result.map resultKey).toList := by
      apply hmove.result
      rintro env now outcome rfl
      have hloop : (n.actor a).loop = .execute env now := of_decide_eq_true henabled
      rw [LocalActor.requests, hloop] at hrequests
      cases hrequests
    rw [hresult] at hkeys
    cases hloop : ((n.apply cfg db action).actor a).loop.result with
    | none => rfl
    | some res =>
        rw [hloop] at hkeys
        cases List.subperm_nil.mp hkeys

/-- The route of a result that is about to be emitted is registered. -/
def Emitting (n : NodeState) : Prop :=
  ∀ a res, (n.actor a).loop = .emit res → (n.replyRoutes (resultKey res)).isSome = true

theorem carried_of_emit {res : RemoteResult} (hloop : (n.actor a).loop = .emit res) :
    resultKey res ∈ n.carried (.actor a) := by
  rw [carried, hloop]
  exact List.mem_cons_self

/-- Only the emission of the result itself takes its route away. -/
theorem Emitting.keep (h : n.Emitting) (hn : n.Sound) (henabled : n.enabled cfg action = true)
    {res : RemoteResult} (hloop : (n.actor a).loop = .emit res)
    (hafter : ((n.apply cfg db action).actor a).loop = .emit res) :
    ((n.apply cfg db action).replyRoutes (resultKey res)).isSome = true := by
  have hmade := hn.served.accounted.made (.actor a) _ (carried_of_emit hloop)
  rcases route_kept cfg db action (h a res hloop) with hkept | ⟨q, call, b, rfl, hkey⟩ |
    ⟨b, res', rfl, hkey⟩ | ⟨d, b, env, envs, rfl, hkey⟩
  · exact hkept
  · have hq : n.thread q = .serving call (.unroute b) := of_decide_eq_true henabled
    have hasked : resultKey res ∈ n.asked (.thread q) := by
      rw [asked, hq, ← hkey]
      exact List.mem_cons_self
    cases hn.served.accounted.asked.unique _ _ _ hasked hmade
  · have hb : (n.actor b).loop = .emit res' := of_decide_eq_true henabled
    have hcarried := carried_of_emit hb
    rw [hkey] at hcarried
    cases hn.served.accounted.carried.unique _ _ _ hcarried (carried_of_emit hloop)
    rw [show ((n.apply cfg db (.emit a res')).actor a).loop = _ from
      congrArg LocalActor.loop (setActor_actor_self _ _ _)] at hafter
    cases hroute : n.replyRoutes (resultKey res') <;> rw [hroute] at hafter <;> cases hafter
  · have hd : n.drain d = .answer b (env :: envs) := of_decide_eq_true henabled
    have hasked : resultKey res ∈ n.asked (.drain d) := by
      rw [asked, hd, ← hkey]
      exact List.mem_cons_self
    cases hn.served.accounted.asked.unique _ _ _ hasked hmade

theorem Emitting.step (h : n.Emitting) (hn : n.Sound) (henabled : n.enabled cfg action = true) :
    (n.apply cfg db action).Emitting := by
  intro a res hafter
  have hmove : ActorMove n db action a _ := actorMove_apply henabled a
  have hkeep (hloop : (n.actor a).loop = .emit res) := h.keep hn henabled hloop hafter
  generalize hactor : (n.apply cfg db action).actor a = actor at hmove hafter
  cases hmove with
  | stay | signal | swap | link | collect => exact hkeep hafter
  | stop =>
      rw [(n.actor a).stop_frame.1] at hafter
      exact hkeep hafter
  | execute env now outcome haction hloop =>
      subst haction
      have haddressed := hn.served.wellformed.addressed a
      have hkey := resultKey_execute haddressed
        (haddressed.inHand env (by rw [hloop]; rfl)) (db.wallet (n.actor a).key) now outcome
      have hrequest : routeKey env ∈ (n.actor a).requests := by
        rw [LocalActor.requests, hloop]
        exact List.mem_cons_self
      rw [NodeState.execute, setActor_actor_self] at hafter
      cases hafter
      rw [hkey]
      exact hn.registered _ (.actor a hrequest)
  | dequeue =>
      unfold LocalActor.dequeue at hafter
      split at hafter <;> cases hafter
  | emit res' =>
      cases hroute : n.replyRoutes (resultKey res') <;> rw [hroute] at hafter <;> cases hafter
  | checkStatus =>
      dsimp only at hafter
      split at hafter <;> cases hafter
  | install | uncount | handle | deliver | wakeUp | exit => cases hafter

/-- A call keeps its requests, answers them or sends them on. -/
theorem Tracked.call_step (hp : key ∈ (n.thread p).requests) (hcaller : action.caller = some p)
    (henabled : n.enabled cfg action = true) : (n.apply cfg db action).Tracked key := by
  have hkeep {t : Thread} (hthread : (n.apply cfg db action).thread p = t)
      (hmem : key ∈ t.requests) : (n.apply cfg db action).Tracked key :=
    .call p (by rw [hthread]; exact hmem)
  -- the call answers its first request on its stream
  have hanswer {sender : BatchSender} {rest : List RemoteEnvelope} {res : RemoteResult} {t : Thread}
      (hput : (n.apply cfg db action).put = n.put ++ [⟨res, sender⟩])
      (hthread : (n.apply cfg db action).thread p = t) (ht : t.requests = rest.map routeKey)
      (hmem : key ∈ resultKey res :: rest.map routeKey) : (n.apply cfg db action).Tracked key := by
    rcases List.mem_cons.mp hmem with rfl | hrest
    · refine .result .put ?_
      rw [carried, hput, List.map_append]
      exact List.mem_append_right _ List.mem_cons_self
    · exact hkeep hthread (by rw [ht]; exact hrest)
  have howed (sender : BatchSender) (rest : List RemoteEnvelope) :
      (rest.map fun env => (routeKey env, sender)).map Prod.fst = rest.map routeKey := by
    rw [List.map_map]
    rfl
  cases action with
  | arrive q sender batch =>
      cases hcaller
      rw [of_decide_eq_true henabled] at hp
      cases hp
  | gate q sender batch =>
      cases hcaller
      rw [of_decide_eq_true henabled] at hp
      refine hkeep (setThread_thread_self _ _ _) ?_
      split <;> exact hp
  | reject q sender env rest =>
      cases hcaller
      simp only [enabled, Bool.and_eq_true, decide_eq_true_eq] at henabled
      rw [henabled.1] at hp
      exact hanswer rfl (setThread_thread_self _ _ _) (howed sender rest)
        (by rw [← howed sender rest]; exact hp)
  | push q sender rest res =>
      cases hcaller
      simp only [enabled, Bool.and_eq_true, decide_eq_true_eq] at henabled
      rw [henabled.1] at hp
      exact hanswer rfl (setThread_thread_self _ _ _) (howed sender rest)
        (by rw [← howed sender rest]; exact hp)
  | next q sender env rest =>
      cases hcaller
      rw [of_decide_eq_true henabled] at hp
      refine hkeep (setThread_thread_self _ _ _) ?_
      split <;> exact hp
  | finish q sender =>
      cases hcaller
      simp only [enabled, Bool.or_eq_true, decide_eq_true_eq] at henabled
      rcases henabled with hq | hq <;> rw [hq] at hp <;> cases hp
  | owner q call answer =>
      cases hcaller
      simp only [enabled, Bool.and_eq_true, decide_eq_true_eq] at henabled
      rw [henabled.1] at hp
      refine hkeep (setThread_thread_self _ _ _) ?_
      split <;> exact hp
  | lookup q call =>
      cases hcaller
      simp only [enabled, Bool.and_eq_true, decide_eq_true_eq] at henabled
      rw [henabled.1] at hp
      refine hkeep (setThread_thread_self _ _ _) ?_
      cases n.shards call.key <;> exact hp
  | create q call now =>
      cases hcaller
      simp only [enabled, Bool.and_eq_true, decide_eq_true_eq] at henabled
      rw [henabled.1] at hp
      refine hkeep (setThread_thread_self _ _ _) ?_
      cases n.shards call.key <;> exact hp
  | kill q call =>
      cases hcaller
      simp only [enabled, Bool.and_eq_true, decide_eq_true_eq] at henabled
      rw [henabled.1] at hp
      refine hkeep (setThread_thread_self _ _ _) ?_
      cases n.shards call.key <;> exact hp
  | loadSnapshot q call now closeErr =>
      cases hcaller
      rw [of_decide_eq_true henabled] at hp
      simp only [apply] at hkeep ⊢
      split at hkeep <;> exact hkeep (setThread_thread_self _ _ _) hp
  | loadEvents q call now snapshot closeErr =>
      cases hcaller
      rw [of_decide_eq_true henabled] at hp
      simp only [apply] at hkeep ⊢
      split at hkeep <;> exact hkeep (setThread_thread_self _ _ _) hp
  | send q call b =>
      cases hcaller
      rw [of_decide_eq_true henabled] at hp
      refine hkeep (setThread_thread_self _ _ _) ?_
      split <;> exact hp
  | close q call b =>
      cases hcaller
      rw [of_decide_eq_true henabled] at hp
      refine hkeep (setThread_thread_self _ _ _) ?_
      split <;> exact hp
  | swap q call b =>
      cases hcaller
      rw [of_decide_eq_true henabled] at hp
      rcases List.mem_cons.mp hp with rfl | hrest
      · refine .actor b ?_
        rw [show (n.apply cfg db (.swap p call b)).actor b = _ from setActor_actor_self n b _]
        simp [LocalActor.requests, Mailbox.swap]
      · exact hkeep (setThread_thread_self _ _ _) hrest
  | forget q call b =>
      cases hcaller
      simp only [enabled, Bool.and_eq_true, decide_eq_true_eq] at henabled
      rw [henabled.1] at hp
      exact hkeep (setThread_thread_self _ _ _) hp
  | route q call b | count q call b | link q call b | wake q call b | unroute q call b
  | killSignal q call b | spawn q call b =>
      cases hcaller
      rw [of_decide_eq_true henabled] at hp
      exact hkeep (setThread_thread_self _ _ _) hp
  | _ => cases hcaller

/-- An actor keeps its requests, executes them or gives them to a drain. -/
theorem Tracked.actor_step (ha : key ∈ (n.actor a).requests) (hn : n.Sound) (hblank : n.Blank)
    (henabled : n.enabled cfg action = true) : (n.apply cfg db action).Tracked key := by
  have hmove : ActorMove n db action a _ := actorMove_apply henabled a
  have hkeep (hmem : key ∈ ((n.apply cfg db action).actor a).requests) :
      (n.apply cfg db action).Tracked key := .actor a hmem
  generalize hactor : (n.apply cfg db action).actor a = actor at hmove hkeep
  cases hmove with
  | stay | signal => exact hkeep ha
  | install p call now snapshot closeErr b hfresh =>
      rw [(hblank a (Nat.le_of_eq hfresh.symm)).1] at ha
      cases ha
  | stop =>
      apply hkeep
      unfold LocalActor.stop
      split <;> exact ha
  | swap p call =>
      apply hkeep
      simp only [LocalActor.requests, Mailbox.swap, List.map_append, ← List.append_assoc]
      exact List.mem_append_left _ ha
  | link p call =>
      apply hkeep
      rw [LocalActor.requests_link]
      exact ha
  | collect d envs env haction hfront =>
      subst haction
      obtain ⟨rest, hqueue⟩ := Mailbox.front_eq_some_iff.mp hfront
      rw [LocalActor.requests, List.mem_append] at ha
      rcases ha with hhand | hqueued
      · exact hkeep (List.mem_append_left _ hhand)
      · rw [hqueue, List.map_cons] at hqueued
        rcases List.mem_cons.mp hqueued with rfl | hrest
        · refine .drain d ?_
          rw [show (n.apply cfg db (.collect d a envs)).drain d = _ from
            Function.update_self _ _ _, hfront]
          simp [Drain.requests]
        · apply hkeep
          refine List.mem_append_right _ ?_
          rw [Mailbox.pop, hqueue]
          exact hrest
  | dequeue hloop =>
      apply hkeep
      rw [LocalActor.requests_dequeue hloop]
      exact ha
  | uncount env hloop | handle env now hloop =>
      apply hkeep
      rw [LocalActor.requests, hloop] at ha
      exact ha
  | execute env now outcome haction hloop =>
      subst haction
      rw [LocalActor.requests, hloop] at ha
      rcases List.mem_cons.mp ha with rfl | hqueued
      · have haddressed := hn.served.wellformed.addressed a
        have hkey := resultKey_execute haddressed
          (haddressed.inHand env (by rw [hloop]; rfl)) (db.wallet (n.actor a).key) now outcome
        refine .result (.actor a) ?_
        rw [show (n.apply cfg db (.execute a env now outcome)).carried (.actor a) = _ from
          carried_setActor_self _ _ _, ← hkey]
        exact List.mem_cons_self
      · apply hkeep
        rw [NodeState.execute, setActor_actor_self]
        exact hqueued
  | emit res hloop =>
      apply hkeep
      rw [LocalActor.requests, hloop] at ha
      exact List.mem_append_right _ ha
  | deliver queued hloop =>
      apply hkeep
      rw [LocalActor.requests, hloop] at ha
      exact ha
  | checkStatus hloop =>
      apply hkeep
      rw [LocalActor.requests, hloop] at ha
      exact List.mem_append_right _ ha
  | wakeUp hloop | exit hloop =>
      apply hkeep
      rw [LocalActor.requests, hloop] at ha
      exact ha

/-- A drain keeps its requests or answers them. -/
theorem Tracked.drain_step {d : Nat} (hd : key ∈ (n.drain d).requests) (hn : n.Sound)
    (henabled : n.enabled cfg action = true) : (n.apply cfg db action).Tracked key := by
  have hmove : DrainMove n action d ((n.apply cfg db action).drain d) :=
    drainMove_apply henabled d
  have hkeep (hmem : key ∈ ((n.apply cfg db action).drain d).requests) :
      (n.apply cfg db action).Tracked key := .drain d hmem
  generalize hdrain : (n.apply cfg db action).drain d = drain at hmove hkeep
  cases hmove with
  | stay => exact hkeep hd
  | spawn p call b haction hp hfresh =>
      rw [hn.kept.unused d (Nat.le_of_eq hfresh.symm)] at hd
      cases hd
  | await b hbefore =>
      rw [hbefore] at hd
      cases hd
  | collect b envs env haction hbefore =>
      rw [hbefore] at hd
      apply hkeep
      rw [Drain.requests, List.map_append]
      exact List.mem_append_left _ hd
  | collected b envs hbefore | uncount b envs hbefore =>
      rw [hbefore] at hd
      exact hkeep hd
  | answer b env envs hbefore =>
      have hroute := hn.registered (routeKey env) (.drain d (by
        rw [hbefore]
        exact List.mem_cons_self))
      obtain ⟨reply, hreply⟩ := Option.isSome_iff_exists.mp hroute
      rw [hbefore] at hd
      rw [hreply] at hkeep
      exact hkeep hd
  | push b env reply envs haction hbefore =>
      subst haction
      rw [hbefore] at hd
      rcases List.mem_cons.mp hd with rfl | hrest
      · refine .result .put ?_
        rw [show (n.apply cfg db (.drainPush d b env reply envs)).carried .put = _ from
          List.map_append]
        exact List.mem_append_right _ List.mem_cons_self
      · exact hkeep hrest
  | finish b hbefore =>
      rw [hbefore] at hd
      cases hd

/-- A loop that has a result takes the next step itself. -/
theorem loop_apply_of_result (hblank : n.Blank) (hresult : (n.actor a).loop.result ≠ none)
    (henabled : n.enabled cfg action = true) :
    ((n.apply cfg db action).actor a).loop = (n.actor a).loop ∨
      (∃ queued, action = .deliver a queued) ∨ ∃ res, action = .emit a res := by
  have hkeep {n' : NodeState} {b : Nat} {actor : LocalActor} (hactor : n'.actor = n.actor)
      (hb : a = b → actor.loop = (n.actor a).loop) :
      ((n'.setActor b actor).actor a).loop = (n.actor a).loop := by
    by_cases hab : a = b
    · subst hab
      rw [setActor_actor_self]
      exact hb rfl
    · rw [setActor_actor_of_ne _ _ hab, hactor]
  have hsame {b : Nat} {actor : LocalActor} (hframe : actor.loop = (n.actor b).loop) (hab : a = b) :
      actor.loop = (n.actor a).loop := by
    rw [hframe, ← hab]
  -- a step that begins where the loop has no result
  have helse {b : Nat} {loop : Loop} (hb : (n.actor b).loop = loop) (hnone : loop.result = none)
      {actor : LocalActor} (hab : a = b) : actor.loop = (n.actor a).loop := by
    subst hab
    rw [hb] at hresult
    exact absurd hnone hresult
  cases action with
  | loadSnapshot =>
      simp only [apply]
      split <;> exact Or.inl rfl
  | loadEvents =>
      simp only [apply]
      split
      · exact Or.inl rfl
      · refine Or.inl (hkeep rfl fun hab => ?_)
        exact absurd (hblank a (Nat.le_of_eq hab.symm)).2 hresult
  | swap p call b | link p call b | wake p call b | killSignal p call b | sweepSignal now i todo b
  | stopSignal i todo stopping b | collect d b envs => exact Or.inl (hkeep rfl (hsame rfl))
  | close p call b | sweepClose now i todo b | stopScan i todo stopping b =>
      exact Or.inl (hkeep rfl (hsame (n.actor b).stop_frame.1))
  | deliver b queued =>
      by_cases hab : a = b
      · subst hab
        exact Or.inr (Or.inl ⟨queued, rfl⟩)
      · exact Or.inl (hkeep rfl fun h => absurd h hab)
  | emit b res =>
      by_cases hab : a = b
      · subst hab
        exact Or.inr (Or.inr ⟨res, rfl⟩)
      · exact Or.inl (hkeep rfl fun h => absurd h hab)
  | wakeUp b =>
      simp only [enabled, Bool.and_eq_true, decide_eq_true_eq] at henabled
      exact Or.inl (hkeep rfl (helse henabled.1 rfl))
  | dequeue b | uncount b | handle b | execute b | checkStatus b | exit b =>
      exact Or.inl (hkeep rfl (helse (of_decide_eq_true henabled) rfl))
  | _ => exact Or.inl rfl

/-- A result goes on to the channel and stays there. -/
theorem Tracked.result_step {outbox : Outbox} (h : key ∈ n.carried outbox) (hblank : n.Blank)
    (hemitting : n.Emitting) (henabled : n.enabled cfg action = true) :
    (n.apply cfg db action).Tracked key := by
  cases outbox with
  | put => exact .result .put (List.map_subset _ (put_mono cfg n db action) h)
  | actor a =>
      have hresult : (n.actor a).loop.result ≠ none := by
        intro hnone
        rw [carried, hnone] at h
        cases h
      rcases loop_apply_of_result hblank hresult henabled with hsame | ⟨queued, rfl⟩ | ⟨res, rfl⟩
      · refine .result (.actor a) ?_
        rw [carried, hsame]
        exact h
      · simp only [enabled, Bool.and_eq_true, decide_eq_true_eq] at henabled
        rw [carried, henabled.1] at h
        refine .result .put ?_
        rw [show (n.apply cfg db (.deliver a queued)).carried .put = _ from List.map_append]
        exact List.mem_append_right _ h
      · have hloop : (n.actor a).loop = .emit res := of_decide_eq_true henabled
        obtain ⟨reply, hreply⟩ := Option.isSome_iff_exists.mp (hemitting a res hloop)
        rw [carried, hloop] at h
        refine .result (.actor a) ?_
        rw [show (n.apply cfg db (.emit a res)).carried (.actor a) = _ from
          carried_setActor_self _ _ _, hreply]
        exact h

theorem Tracked.step (h : n.Tracked key) (hn : n.Sound) (hblank : n.Blank)
    (hemitting : n.Emitting) (henabled : n.enabled cfg action = true) :
    (n.apply cfg db action).Tracked key := by
  cases h with
  | call p hp =>
      by_cases hcaller : action.caller = some p
      · exact .call_step hp hcaller henabled
      · refine .call p ?_
        rw [thread_apply_of_caller_ne hcaller]
        exact hp
  | actor a ha => exact .actor_step ha hn hblank henabled
  | drain d hd => exact .drain_step hd hn henabled
  | result outbox h => exact .result_step h hblank hemitting henabled

/-- Every request that has arrived is tracked. -/
structure Complete (n : NodeState) : Prop where
  sound : n.Sound
  blank : n.Blank
  emitting : n.Emitting
  tracked : ∀ arrival ∈ n.arrived, n.Tracked (routeKey arrival.1)

theorem complete_newNode : newNode.Complete where
  sound := ⟨served_newNode, registered_newNode, kept_newNode⟩
  blank _ _ := ⟨rfl, rfl⟩
  emitting _ _ hloop := by cases hloop
  tracked _ harrival := by cases harrival

theorem Complete.step (h : n.Complete) (henabled : n.enabled cfg action = true)
    (hfresh : n.FreshRequests action) : (n.apply cfg db action).Complete where
  sound := h.sound.step henabled hfresh
  blank := h.blank.step h.sound.served.wellformed henabled
  emitting := h.emitting.step h.sound henabled
  tracked arrival harrival := by
    have hold (harrived : arrival ∈ n.arrived) :
        (n.apply cfg db action).Tracked (routeKey arrival.1) :=
      (h.tracked arrival harrived).step h.sound h.blank h.emitting henabled
    by_cases harrive : ∃ p sender batch, action = .arrive p sender batch
    · obtain ⟨p, sender, batch, rfl⟩ := harrive
      rcases List.mem_append.mp harrival with harrived | hnew
      · exact hold harrived
      · obtain ⟨env, henv, rfl⟩ := List.mem_map.mp hnew
        refine .call p ?_
        rw [show (n.apply cfg db (.arrive p sender batch)).thread p = .gate sender batch from
          setThread_thread_self _ _ _, Thread.requests, Thread.owed, List.map_map]
        exact List.mem_map_of_mem henv
    · rw [arrived_apply cfg n db fun p sender batch heq => harrive ⟨p, sender, batch, heq⟩]
        at harrival
      exact hold harrival

end NodeState

theorem complete_of_reachable {cfg : Config} {r : NodeRun}
    (hr : (node cfg).ReachableIf NodeRun.FreshRequests r) : r.node.Complete := by
  apply System.ReachableIf.invariant (P := fun r : NodeRun => r.node.Complete) _ _ hr
  · exact NodeState.complete_newNode
  · intro r event t h hfresh hstep
    obtain ⟨henabled, rfl⟩ := System.guarded_step_eq_some_iff.mp hstep
    cases event with
    | act action => exact h.step henabled hfresh
    | land key snapshot => exact h

/-- The results for a request that the aggregator has received. -/
def NodeState.answersTo (n : NodeState) (env : RemoteEnvelope) : List QueuedResult :=
  (n.batch ++ unpack n.sent).filter fun queued => resultKey queued.res = routeKey env

/-- Once the channel is empty, what was put there has been received. -/
theorem NodeState.Conserved.answersTo {n : NodeState} (h : n.Conserved)
    (hselect : n.aggregator = .select) (hempty : n.resultCh = []) (env : RemoteEnvelope) :
    n.answersTo env ~ n.put.filter fun queued => resultKey queued.res = routeKey env := by
  rw [NodeState.Conserved, hselect, hempty] at h
  exact h.symm.filter _

/-- If request ids are unique and the node can do nothing more before its aggregator has
returned, then the aggregator has received exactly one result for every request that has
arrived, for the stream on which the request came; or it has received none, and the request
lies in the mailbox of an actor that has ended. -/
theorem requests_answered {cfg : Config} {r : NodeRun}
    (hr : (node cfg).ReachableIf NodeRun.FreshRequests r) (hstuck : r.node.Stuck cfg)
    (hopen : r.node.aggregator ≠ .returned) {env : RemoteEnvelope} {sender : BatchSender}
    (harrived : (env, sender) ∈ r.node.arrived) :
    (∃ queued, r.node.answersTo env = [queued] ∧ queued.reply = sender) ∨
    r.node.answersTo env = [] ∧ ∃ a, (r.node.actor a).Dead ∧
      ∃ entry ∈ (r.node.actor a).mailbox.queue, routeKey entry.msg = routeKey env := by
  have hcomplete := complete_of_reachable hr
  have hobliged := obliged_of_reachable (hr.mono fun _ _ _ => trivial)
  have hroom := hstuck.hasRoom hopen
  have hserved := hcomplete.sound.served
  obtain ⟨hselect, hempty⟩ := hstuck.aggregator.resolve_left hopen
  have hanswers := hserved.conserved.answersTo hselect hempty env
  cases hcomplete.tracked _ harrived with
  | call p hp =>
      rw [hstuck.calls hobliged hroom p] at hp
      cases hp
  | drain d hd =>
      rcases hstuck.drains hobliged hroom d with hunused | ⟨a, hfinished⟩
      · rw [hunused] at hd
        cases hd
      · rw [hfinished] at hd
        cases hd
  | actor a ha =>
      right
      refine ⟨?_, ?_⟩
      · -- a request in a mailbox has no result
        have hnone : routeKey env ∉ r.node.carried .put := fun hcarried =>
          hserved.accounted.asked.notMem (p := .actor a) ha (by simp)
            (hserved.accounted.made .put _ hcarried)
        rw [List.filter_eq_nil_iff.mpr fun queued hqueued hkey => hnone
          (List.mem_map.mpr ⟨queued, hqueued, of_decide_eq_true hkey⟩)] at hanswers
        exact hanswers.eq_nil
      · rcases hstuck.actors hobliged hroom a with hdead | ⟨hwaiting, _, hqueue⟩
        · rw [LocalActor.requests, hdead] at ha
          obtain ⟨entry, hentry, hkey⟩ := List.mem_map.mp ha
          exact ⟨a, (hobliged.wellformed.lawful a).ended.mpr hdead, entry, hentry, hkey⟩
        · rw [LocalActor.requests, hwaiting, hqueue] at ha
          cases ha
  | result outbox h =>
      cases outbox with
      | actor a =>
          rcases hstuck.actors hobliged hroom a with hdead | ⟨hwaiting, _, _⟩
          · rw [NodeState.carried, hdead] at h
            cases h
          · rw [NodeState.carried, hwaiting] at h
            cases h
      | put =>
          left
          obtain ⟨queued, hqueued, hkey⟩ := List.mem_map.mp h
          have hnodup : (r.node.put.map fun queued => resultKey queued.res).Nodup :=
            hserved.accounted.carried.nodup .put
          refine ⟨queued, ?_, ?_⟩
          · rw [← hkey, filter_eq_singleton_of_nodup_map hnodup hqueued] at hanswers
            exact List.perm_singleton.mp hanswers
          · have hmatches := hserved.routed _ _ (.put queued.res hqueued hkey)
            exact hserved.unique.stream harrived hmatches

/-- Each of the three requests of the run has its answer, on its own stream. -/
theorem requests_answered_settledRun :
    ((node nodeA).after settledRun).node.arrived =
        [(deposit "1" 1, 0), (deposit "2" 2, 1), (deposit "3" 3, 2)] ∧
      ∀ arrival ∈ ((node nodeA).after settledRun).node.arrived, ∃ queued,
        ((node nodeA).after settledRun).node.answersTo arrival.1 = [queued] ∧
          queued.reply = arrival.2 := by
  have hreachable : (node nodeA).ReachableIf NodeRun.FreshRequests
      ((node nodeA).after settledRun) := System.reachableIf_of_admits (by decide +kernel)
  have hqueue (a : Nat) :
      (((node nodeA).after settledRun).node.actor a).mailbox.queue = [] := by
    rcases a with _ | _ | a <;> rfl
  refine ⟨by decide +kernel, fun arrival harrival => ?_⟩
  rcases requests_answered hreachable stuck_settledRun (by decide +kernel) harrival with
    hanswered | ⟨_, a, _, entry, hentry, _⟩
  · exact hanswered
  · rw [hqueue a] at hentry
    cases hentry

end ActorCluster.Node
