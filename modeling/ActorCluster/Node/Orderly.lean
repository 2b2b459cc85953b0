import ActorCluster.Node.Keepers
import ActorCluster.Node.Requests
import ActorCluster.Node.WalletView

/-! # Nodes below their limit

While the backlog is below the limit, nothing is rejected. A result is for the
wallet of the actor that made it, and a drain answers for the wallet of its actor.
-/

namespace ActorCluster.Node

open Remote Wallet Transition ActorCluster.Runtime

/-- The envelopes that a drain has to answer. -/
def Drain.envs : Drain → List RemoteEnvelope
  | .collect _ envs | .uncount _ envs | .answer _ envs => envs
  | .push _ env _ envs => env :: envs
  | _ => []

/-- The node takes batches only while its backlog is below the limit. -/
def Unloaded (cfg : Config) (r : NodeRun) : Event → Prop
  | .act (.gate _ _ _) => r.node.mailboxPending < cfg.limit
  | _ => True

instance (cfg : Config) (r : NodeRun) (event : Event) : Decidable (Unloaded cfg r event) := by
  unfold Unloaded
  split <;> infer_instance

/-- Everybody answers for the wallet that it serves, and nothing is rejected. -/
structure Orderly (n : NodeState) : Prop where
  wellformed : n.Wellformed
  kept : n.Kept
  unstarted : ∀ a, n.started ≤ a → (n.actor a).loop = .dead
  results : ∀ a res, (n.actor a).loop.result = some res → resultWallet res = (n.actor a).key
  drained : ∀ d a env, (n.drain d).target = some a → env ∈ (n.drain d).envs →
    actorKey env = (n.actor a).key
  admitting : ∀ p sender rest, n.thread p ≠ .reject sender rest

theorem orderly_newNode : Orderly newNode where
  wellformed := NodeState.wellformed_newNode
  kept := NodeState.kept_newNode
  unstarted _ _ := rfl
  results _ _ := nofun
  drained _ _ _ := nofun
  admitting _ _ _ := nofun

section Moves

variable {n : NodeState} {db : Database} {action : Action}

/-- Only an installation brings an actor to life. -/
theorem ActorMove.dead {a : Nat} {actor : LocalActor} (h : ActorMove n db action a actor)
    (hdead : (n.actor a).loop = .dead) :
    actor.loop = .dead ∨ actor.loop = .dequeue ∧ a = n.started ∧
      ∃ p call now snapshot closeErr b, action = .loadEvents p call now snapshot closeErr ∧
        (newBusinessActor call.key.tenantID call.key.uid now).loadEvents snapshot
          ⟨(db.wallet call.key).eventsAfter snapshot.lastVersion, closeErr⟩ = (b, none) := by
  cases h with
  | install p call now snapshot closeErr b hfresh haction _ hload =>
      exact .inr ⟨rfl, hfresh, p, call, now, snapshot, closeErr, b, haction, hload⟩
  | stay | signal | swap | link | collect => exact .inl hdead
  | stop =>
      unfold LocalActor.stop
      split <;> exact .inl hdead
  | dequeue hloop | checkStatus hloop | wakeUp hloop | exit hloop => cases hdead.symm.trans hloop
  | uncount _ hloop | handle _ _ hloop | emit _ hloop | deliver _ hloop =>
      cases hdead.symm.trans hloop
  | execute _ _ _ _ hloop => cases hdead.symm.trans hloop

/-- A loop has a result to hand over since it executed the envelope. -/
theorem ActorMove.result_back {a : Nat} {actor : LocalActor} (h : ActorMove n db action a actor)
    {res : RemoteResult} (hres : actor.loop.result = some res) :
    (n.actor a).loop.result = some res ∨ ∃ env now outcome,
      (n.actor a).loop = .execute env now ∧ res = completeResult
        ((n.actor a).state.handle (db.wallet (n.actor a).key) env now outcome).result env := by
  cases h with
  | stay | signal | swap | link | collect => exact .inl hres
  | stop =>
      unfold LocalActor.stop at hres
      split at hres <;> exact .inl hres
  | dequeue =>
      unfold LocalActor.dequeue at hres
      split at hres <;> cases hres
  | execute env now outcome _ hloop =>
      rw [NodeState.execute, NodeState.setActor_actor_self] at hres
      exact .inr ⟨env, now, outcome, hloop, (Option.some.inj hres).symm⟩
  | emit res' hloop =>
      dsimp only at hres
      cases hroute : n.replyRoutes (resultKey res') with
      | none =>
          rw [hroute] at hres
          cases hres
      | some reply =>
          rw [hroute] at hres
          rw [hloop]
          exact .inl hres
  | checkStatus =>
      dsimp only at hres
      split at hres <;> cases hres
  | install | uncount | handle | deliver | wakeUp | exit => cases hres

/-- What a drain has to answer it has taken from its mailbox. -/
theorem DrainMove.envs_back {d : Nat} {drain : Drain} (h : DrainMove n action d drain)
    {env : RemoteEnvelope} (henv : env ∈ drain.envs) :
    env ∈ (n.drain d).envs ∨
      ∃ a, (n.drain d).target = some a ∧ (n.actor a).mailbox.front = some env := by
  cases h with
  | stay => exact .inl henv
  | spawn | await | finish => cases henv
  | collect a envs env' _ hd hfront =>
      rw [hd]
      rcases List.mem_append.mp henv with hold | hnew
      · exact .inl hold
      · cases List.mem_singleton.mp hnew
        exact .inr ⟨a, rfl, hfront⟩
  | collected a envs hd | uncount a envs hd =>
      rw [hd]
      exact .inl henv
  | answer a env' envs hd =>
      rw [hd]
      cases hroute : n.replyRoutes (routeKey env') with
      | none =>
          rw [hroute] at henv
          exact .inl (List.mem_cons_of_mem _ henv)
      | some reply =>
          rw [hroute] at henv
          exact .inl henv
  | push a env' reply envs _ hd =>
      rw [hd]
      exact .inl (List.mem_cons_of_mem _ henv)

theorem ThreadMove.reject_back {p : Nat} {t : Thread} (h : ThreadMove n db action p t)
    {sender : BatchSender} {rest : List RemoteEnvelope} (ht : t = .reject sender rest) :
    (∃ rest', n.thread p = .reject sender rest') ∨ ∃ batch, action = .gate p sender batch := by
  cases h with
  | stay => exact .inl ⟨rest, ht⟩
  | overload sender' batch _ haction =>
      cases ht
      exact .inr ⟨rest, haction⟩
  | reject sender' env rest' hp =>
      cases ht
      exact .inl ⟨_, hp⟩
  | _ => cases ht

end Moves

namespace Orderly

variable {cfg : Config} {n : NodeState} {db : Database} {action : Action}

theorem unstarted_step (h : Orderly n) (henabled : n.enabled cfg action = true) {a : Nat}
    (ha : (n.apply cfg db action).started ≤ a) :
    ((n.apply cfg db action).actor a).loop = .dead := by
  have hle := n.started_le_apply cfg db action
  have hmove : ActorMove n db action a _ := NodeState.actorMove_apply henabled a
  rcases hmove.dead (h.unstarted a (Nat.le_trans hle ha)) with
    hdead | ⟨_, hfresh, p, call, now, snapshot, closeErr, b, rfl, hload⟩
  · exact hdead
  · simp only [NodeState.apply, hload] at ha
    change n.started + 1 ≤ a at ha
    omega

theorem results_step (h : Orderly n) (henabled : n.enabled cfg action = true) {a : Nat}
    {res : RemoteResult} (hres : ((n.apply cfg db action).actor a).loop.result = some res) :
    resultWallet res = ((n.apply cfg db action).actor a).key := by
  have hmove : ActorMove n db action a _ := NodeState.actorMove_apply henabled a
  by_cases ha : a < n.started
  · rw [hmove.key ha]
    rcases hmove.result_back hres with hold | ⟨env, now, outcome, hloop, rfl⟩
    · exact h.results a res hold
    · have henv := (h.wellformed.addressed a).inHand env (by rw [hloop]; rfl)
      have hroute := resultKey_execute (h.wellformed.addressed a) henv
        (db.wallet (n.actor a).key) now outcome
      exact (congrArg (fun rk : ResultRouteKey => ActorKey.mk rk.tenant rk.uid) hroute).trans henv
  · rcases hmove.dead (h.unstarted a (Nat.le_of_not_lt ha)) with hdead | ⟨hdequeue, _⟩
    · rw [hdead] at hres
      cases hres
    · rw [hdequeue] at hres
      cases hres

theorem drained_step (h : Orderly n) (henabled : n.enabled cfg action = true) {d a : Nat}
    {env : RemoteEnvelope} (ha : ((n.apply cfg db action).drain d).target = some a)
    (henv : env ∈ ((n.apply cfg db action).drain d).envs) :
    actorKey env = ((n.apply cfg db action).actor a).key := by
  have hdrain : DrainMove n action d ((n.apply cfg db action).drain d) :=
    NodeState.drainMove_apply henabled d
  -- a drain that has envelopes is not a new one
  have htarget : (n.drain d).target = some a := by
    rcases hdrain.target_back ha with hold | ⟨p, call, rfl, rfl⟩
    · exact hold
    · have hawait : (n.apply cfg db (.spawn p call a)).drain n.drains = .await a :=
        Function.update_self _ _ _
      rw [hawait] at henv
      cases henv
  have hmove : ActorMove n db action a _ := NodeState.actorMove_apply henabled a
  rw [hmove.key (h.kept.drained d a htarget)]
  rcases hdrain.envs_back henv with hold | ⟨b, hb, hfront⟩
  · exact h.drained d a env htarget hold
  · cases hb.symm.trans htarget
    obtain ⟨rest, hqueue⟩ := Mailbox.front_eq_some_iff.mp hfront
    exact (h.wellformed.addressed a).queued ⟨env, none⟩ (by rw [hqueue]; exact List.mem_cons_self)

theorem admitting_step (h : Orderly n) (hguard : Unloaded cfg ⟨n, db⟩ (.act action))
    (henabled : n.enabled cfg action = true) (p : Nat) (sender : BatchSender)
    (rest : List RemoteEnvelope) : (n.apply cfg db action).thread p ≠ .reject sender rest := by
  intro hp
  have hmove : ThreadMove n db action p _ := NodeState.threadMove_apply henabled p
  rcases hmove.reject_back hp with ⟨rest', hold⟩ | ⟨batch, rfl⟩
  · exact h.admitting p sender rest' hold
  · have hnext : (n.apply cfg db (.gate p sender batch)).thread p = _ := Function.update_self _ _ _
    rw [hnext, if_neg (UInt64.not_le.mpr hguard)] at hp
    cases hp

theorem step (h : Orderly n) (hguard : Unloaded cfg ⟨n, db⟩ (.act action))
    (henabled : n.enabled cfg action = true) : Orderly (n.apply cfg db action) where
  wellformed := h.wellformed.step henabled
  kept := h.kept.step h.wellformed henabled
  unstarted _ := h.unstarted_step henabled
  results _ _ := h.results_step henabled
  drained _ _ _ := h.drained_step henabled
  admitting := h.admitting_step hguard henabled

end Orderly

end ActorCluster.Node
