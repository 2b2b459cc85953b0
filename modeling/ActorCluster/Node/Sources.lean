import ActorCluster.Node.Identity
import ActorCluster.Node.Migration
import ActorCluster.Node.Routing
import ActorCluster.Wallet.Overdraft

/-! # What a node works from

A node makes up nothing. The envelopes that its calls and its actors hold have
arrived, the results that it puts on the channel were made by it, and every one of
them that reports success comes from an execution. A transaction id that an actor
has cached was committed by the actor or stands in the table of its wallet.
-/

namespace ActorCluster.Node

open Remote Wallet Transition ActorCluster.Runtime

/-- The envelopes that an actor has not executed. -/
def LocalActor.envelopes (actor : LocalActor) : List RemoteEnvelope :=
  actor.loop.request.toList ++ actor.mailbox.queue.map Entry.msg

section Moves

variable {n : NodeState} {db : Database} {action : Action} {a : Nat} {actor : LocalActor}

/-- An actor gets an envelope only from the call that swaps it in. -/
theorem ActorMove.envelopes_back (h : ActorMove n db action a actor) {env : RemoteEnvelope}
    (henv : env ∈ actor.envelopes) :
    env ∈ (n.actor a).envelopes ∨
      ∃ p call, n.thread p = .serving call (.swap a) ∧ env = call.env := by
  have hkeep {queue : List (Entry RemoteEnvelope)} {request : Option RemoteEnvelope}
      (henv : env ∈ request.toList ++ queue.map Entry.msg)
      (hrequest : request = none ∨ request = (n.actor a).loop.request)
      (hqueue : queue.map Entry.msg ⊆ (n.actor a).mailbox.queue.map Entry.msg) :
      env ∈ (n.actor a).envelopes := by
    rcases List.mem_append.mp henv with hloop | hmem
    · rcases hrequest with rfl | rfl
      · cases hloop
      · exact List.mem_append_left _ hloop
    · exact List.mem_append_right _ (hqueue hmem)
  have hrefl := List.Subset.refl ((n.actor a).mailbox.queue.map Entry.msg)
  cases h with
  | stay => exact .inl henv
  | install => cases henv
  | stop =>
      unfold LocalActor.stop at henv
      split at henv <;> exact .inl (hkeep henv (.inr rfl) hrefl)
  | signal => exact .inl (hkeep henv (.inr rfl) hrefl)
  | swap p call _ hp =>
      rcases List.mem_append.mp henv with hloop | hmem
      · exact .inl (List.mem_append_left _ hloop)
      · rw [Mailbox.swap, List.map_append, List.mem_append] at hmem
        rcases hmem with hold | hnew
        · exact .inl (List.mem_append_right _ hold)
        · exact .inr ⟨p, call, hp, List.mem_singleton.mp hnew⟩
  | link p =>
      refine .inl (hkeep henv (.inr rfl) ?_)
      rw [Mailbox.link, map_msg_linkEntry]
      exact hrefl
  | collect => exact .inl (hkeep henv (.inr rfl) (List.map_subset _ (List.tail_subset _)))
  | dequeue hloop =>
      unfold LocalActor.dequeue at henv
      split at henv
      next env' hfront =>
        obtain ⟨rest, hqueue⟩ := Mailbox.front_eq_some_iff.mp hfront
        refine .inl (List.mem_append_right _ ?_)
        rw [hqueue]
        simpa [LocalActor.envelopes, Loop.request, Mailbox.pop, hqueue] using henv
      next => exact .inl (hkeep henv (.inl rfl) hrefl)
  | uncount env' hloop | handle env' _ hloop =>
      exact .inl (hkeep henv (.inr (by rw [hloop]; rfl)) hrefl)
  | execute env' now outcome _ hloop =>
      rw [NodeState.execute, NodeState.setActor_actor_self] at henv
      exact .inl (hkeep henv (.inl rfl) hrefl)
  | emit res =>
      refine .inl (hkeep henv (.inl ?_) hrefl)
      cases n.replyRoutes (resultKey res) <;> rfl
  | checkStatus =>
      refine .inl (hkeep henv (.inl ?_) hrefl)
      dsimp only
      split <;> rfl
  | deliver | wakeUp | exit => exact .inl (hkeep henv (.inl rfl) hrefl)

/-- An actor caches an id when it commits it, or when it reads it from the table. -/
theorem ActorMove.cached_back (h : ActorMove n db action a actor) {txID : String}
    (hcached : txID ∈ actor.state.txCache) :
    actor.key = (n.actor a).key ∧ (txID ∈ (n.actor a).state.txCache ∨
      ∃ env now outcome, action = .execute a env now outcome ∧ (n.actor a).state.Admits env ∧
        outcome = .applied ∧ env.txId = txID) ∨
      ∃ row ∈ (db.wallet actor.key).events, row.txID = txID := by
  cases h with
  | stay | signal | swap | link | collect | uncount | handle | emit | deliver | checkStatus
  | wakeUp | exit => exact .inl ⟨rfl, .inl hcached⟩
  | install p call now snapshot closeErr b hfresh haction hp hload =>
      obtain rfl := BusinessActor.loadEvents_eq_none hload
      unfold BusinessActor.loadEvents at hload
      split at hload
      · cases hload
      next b' balance version hscan =>
        cases hload
        rw [scanEvents_seeded hscan] at hcached
        rcases BusinessActor.mem_txCache_seedAll hcached with hempty | hread
        · exact absurd hempty (Finset.notMem_empty txID)
        · obtain ⟨row, hrow, rfl⟩ := List.mem_map.mp hread
          exact .inr ⟨row, List.mem_of_mem_filter hrow, rfl⟩
  | stop =>
      revert hcached
      unfold LocalActor.stop
      split <;> exact fun hcached => .inl ⟨rfl, .inl hcached⟩
  | dequeue =>
      revert hcached
      unfold LocalActor.dequeue
      split <;> exact fun hcached => .inl ⟨rfl, .inl hcached⟩
  | execute env now outcome haction =>
      rw [NodeState.execute, NodeState.setActor_actor_self] at hcached ⊢
      refine .inl ⟨rfl, ?_⟩
      by_cases hcommits : (n.actor a).state.Admits env ∧ outcome = .applied
      · obtain ⟨hadmits, rfl⟩ := hcommits
        have hcommitted :=
          (BusinessActor.handle_of_applied (db.wallet (n.actor a).key) now hadmits).2
        rw [hcommitted.txCache] at hcached
        rcases BusinessActor.mem_txCache_addTxID hcached with rfl | hold
        · exact .inr ⟨env, now, .applied, haction, hadmits, rfl, rfl⟩
        · exact .inl hold
      · rw [BusinessActor.handle_actor_of_unacknowledged _ _ _ hcommits] at hcached
        exact .inl hcached

/-- The refusals of a call report failures. -/
theorem ThreadMove.refusal {p : Nat} {t : Thread} (h : ThreadMove n db action p t)
    {sender : BatchSender} {rest : List RemoteEnvelope} {res : RemoteResult}
    (ht : t = .push sender rest res) :
    n.thread p = .push sender rest res ∨ res.success = false := by
  cases h with
  | stay => exact .inl ht
  | refuse | noSnapshot | noEvents | nobody | spawn =>
      cases ht
      exact .inr rfl
  | _ => cases ht

end Moves

/-- The result of an execution reports success only if the event was acknowledged, or if the
transaction id was cached. -/
theorem success_execute {b : BusinessActor} {store : WalletStore} {env : RemoteEnvelope}
    {now : Int} {outcome : WriteOutcome}
    (h : (completeResult (b.handle store env now outcome).result env).success = true) :
    b.Admits env ∧ outcome = .applied ∨ env.txId ∈ b.txCache := by
  have hsuccess : (b.handle store env now outcome).result.success = true := h
  by_cases hpayload : (b.handle store env now outcome).result.payload = []
  · exact .inr ((BusinessActor.handle_answers_duplicate_iff store now outcome).mp
      ⟨hsuccess, hpayload⟩)
  · exact .inl ((BusinessActor.handle_acknowledges_iff store now outcome).mp ⟨hsuccess, hpayload⟩)

/-- An execution writes the event of an admitted envelope if its statement takes effect. -/
theorem mem_events_handle {b : BusinessActor} {store : WalletStore} {env : RemoteEnvelope}
    {now : Int} {outcome : WriteOutcome} {row : EventRow}
    (h : row ∈ (b.handle store env now outcome).store.events) :
    row ∈ store.events ∨
      b.Admits env ∧ outcome.takesEffect = true ∧ row = b.eventRow env now := by
  by_cases hadmits : b.Admits env
  · rw [BusinessActor.handle_store_of_admits store now outcome hadmits,
      WalletStore.executeBatch] at h
    split at h
    next heffect =>
      rcases Partition.mem_insertRow h with rfl | hold
      · exact .inr ⟨hadmits, heffect, rfl⟩
      · exact .inl hold
    next => exact .inl h
  · obtain ⟨_, _, _, heq⟩ := BusinessActor.handle_of_not_admits store now outcome hadmits
    rw [heq] at h
    exact .inl h

namespace NodeState

variable {cfg : Config} {n : NodeState} {db : Database} {action : Action}

/-- The envelopes that arrived. -/
def envelopes (n : NodeState) : List RemoteEnvelope := n.arrived.map Prod.fst

/-- What a node holds has arrived or was made by it. -/
structure Founded (n : NodeState) : Prop where
  calls : ∀ p, ∀ env ∈ (n.thread p).undispatched, env ∈ n.envelopes
  actors : ∀ a, ∀ env ∈ (n.actor a).envelopes, env ∈ n.envelopes
  refusals : ∀ p sender rest res, n.thread p = .push sender rest res → res.success = false
  made : ∀ a res, (n.actor a).loop.result = some res → res ∈ n.produced
  queued : ∀ queued ∈ n.put, queued.res ∈ n.produced

theorem founded_newNode : newNode.Founded where
  calls _ _ h := by cases h
  actors _ _ h := by cases h
  refusals _ _ _ _ h := by cases h
  made _ _ h := by cases h
  queued _ h := by cases h

theorem envelopes_mono (cfg : Config) (n : NodeState) (db : Database) (action : Action) :
    n.envelopes ⊆ (n.apply cfg db action).envelopes := by
  by_cases harrive : ∃ p sender batch, action = .arrive p sender batch
  · obtain ⟨p, sender, batch, rfl⟩ := harrive
    exact List.map_subset _ (List.subset_append_left _ _)
  · rw [envelopes, envelopes,
      arrived_apply cfg n db fun p sender batch h => harrive ⟨p, sender, batch, h⟩]
    exact List.Subset.refl _

theorem produced_mono (cfg : Config) (n : NodeState) (db : Database) (action : Action) :
    n.produced ⊆ (n.apply cfg db action).produced := by
  cases action with
  | reject | push | drainPush | execute => exact List.subset_append_left _ _
  | loadSnapshot | loadEvents =>
      simp only [apply]
      split <;> exact List.Subset.refl _
  | _ => exact List.Subset.refl _

/-- A new result reports a failure, or is that of an execution. -/
theorem produced_back (hrefusals : ∀ p sender rest res, n.thread p = .push sender rest res →
      res.success = false) (henabled : n.enabled cfg action = true) {res : RemoteResult}
    (hres : res ∈ (n.apply cfg db action).produced) :
    res ∈ n.produced ∨ res.success = false ∨
      ∃ a env now outcome, action = .execute a env now outcome ∧ res = completeResult
        ((n.actor a).state.handle (db.wallet (n.actor a).key) env now outcome).result env := by
  have hnew {made : RemoteResult} (hres : res ∈ n.produced ++ [made])
      (hmade : made.success = false) : res ∈ n.produced ∨ res.success = false := by
    rcases List.mem_append.mp hres with hold | hlast
    · exact .inl hold
    · cases List.mem_singleton.mp hlast
      exact .inr hmade
  cases action with
  | reject | drainPush => exact (hnew hres rfl).imp_right .inl
  | push p sender rest made =>
      have hp : n.thread p = .push sender rest made ∧ n.hasRoom = true := by
        simpa [enabled] using henabled
      exact (hnew hres (hrefusals p sender rest made hp.1)).imp_right .inl
  | execute a env now outcome =>
      rcases List.mem_append.mp hres with hold | hlast
      · exact .inl hold
      · exact .inr (.inr ⟨a, env, now, outcome, rfl, List.mem_singleton.mp hlast⟩)
  | loadSnapshot | loadEvents =>
      simp only [apply] at hres
      split at hres <;> exact .inl hres
  | _ => exact .inl hres

theorem Founded.queued_step (h : n.Founded) (henabled : n.enabled cfg action = true)
    {queued : QueuedResult} (hqueued : queued ∈ (n.apply cfg db action).put) :
    queued.res ∈ (n.apply cfg db action).produced := by
  have hmade {made : QueuedResult} {results : List RemoteResult}
      (hqueued : queued ∈ n.put ++ [made]) (hold : n.produced ⊆ results)
      (hres : made.res ∈ results) : queued.res ∈ results := by
    rcases List.mem_append.mp hqueued with hbefore | hlast
    · exact hold (h.queued queued hbefore)
    · cases List.mem_singleton.mp hlast
      exact hres
  have hlast (made : RemoteResult) : made ∈ n.produced ++ [made] :=
    List.mem_append_right _ (List.mem_singleton_self _)
  cases action with
  | reject | push | drainPush => exact hmade hqueued (List.subset_append_left _ _) (hlast _)
  | deliver a made =>
      have ha : (n.actor a).loop = .push made ∧ n.hasRoom = true := by
        simpa [enabled] using henabled
      exact hmade hqueued (List.Subset.refl _) (h.made a made.res (by rw [ha.1]; rfl))
  | execute => exact List.mem_append_left _ (h.queued queued hqueued)
  | loadSnapshot | loadEvents =>
      simp only [apply] at hqueued ⊢
      split at hqueued <;> exact h.queued queued hqueued
  | _ => exact h.queued queued hqueued

theorem Founded.step (h : n.Founded) (henabled : n.enabled cfg action = true) :
    (n.apply cfg db action).Founded where
  calls p env henv := by
    rcases (threadMove_apply henabled p).undispatched_back henv with
      hold | ⟨sender, batch, rfl, hbatch⟩
    · exact envelopes_mono cfg n db action (h.calls p env hold)
    · exact List.mem_map.mpr
        ⟨(env, sender), List.mem_append_right _ (List.mem_map_of_mem hbatch), rfl⟩
  actors a env henv := by
    refine envelopes_mono cfg n db action ?_
    rcases (actorMove_apply henabled a).envelopes_back henv with hold | ⟨p, call, hp, rfl⟩
    · exact h.actors a env hold
    · refine h.calls p call.env ?_
      rw [hp]
      exact List.mem_cons_self
  refusals p sender rest res hp := by
    rcases (threadMove_apply henabled p).refusal hp with hold | hfailure
    · exact h.refusals p sender rest res hold
    · exact hfailure
  made a res hres := by
    rcases (actorMove_apply henabled a).result_cases hres with
      hold | ⟨env, now, outcome, rfl, _, rfl⟩
    · exact produced_mono cfg n db action (h.made a res hold)
    · exact List.mem_append_right _ (List.mem_singleton_self _)
  queued _ hqueued := h.queued_step henabled hqueued

/-- What an actor executes has arrived. -/
theorem Founded.arrived_of_execute (h : n.Founded) {a : Nat} {env : RemoteEnvelope} {now : Int}
    (hloop : (n.actor a).loop = .execute env now) : ∃ sender, (env, sender) ∈ n.arrived := by
  have hmem : env ∈ (n.actor a).envelopes := by
    refine List.mem_append_left _ ?_
    rw [hloop]
    exact List.mem_cons_self
  obtain ⟨arrival, harrived, rfl⟩ := List.mem_map.mp (h.actors a env hmem)
  exact ⟨arrival.2, harrived⟩

/-- A request that is still to be answered was so before, or has just arrived. -/
theorem Transfer.asked_back {n' : NodeState} (h : Transfer n n') {place : Place}
    (hplace : place ≠ .produced) {key : ResultRouteKey} (hkey : key ∈ n'.asked place) :
    (∃ place', place' ≠ .produced ∧ key ∈ n.asked place') ∨
      ∃ env sender, (env, sender) ∈ n'.arrived ∧ (env, sender) ∉ n.arrived ∧
        routeKey env = key := by
  cases h with
  | keep hasked => exact .inl ⟨place, hplace, (hasked place).subset hkey⟩
  | arrive p sender batch hnodup hfresh hasked hcarried hproduced harrived =>
      rw [hasked] at hkey
      rcases Custody.mem_update hkey with hnew | hold
      · obtain ⟨env, henv, rfl⟩ := List.mem_map.mp hnew
        refine .inr ⟨env, sender, ?_, fun hold => ?_, rfl⟩
        · rw [harrived]
          exact List.mem_append_right _ (List.mem_map_of_mem henv)
        · exact hfresh env henv (List.mem_map_of_mem hold)
      · exact .inl ⟨place, hplace, hold⟩
  | hand giver taker key' hne hgiver htaker hother hcarried hproduced =>
      -- results are not taken back
      have hgiven : giver ≠ .produced := by
        rintro rfl
        have hlength := hgiver.length_eq
        rw [asked, asked, hproduced] at hlength
        simp at hlength
      by_cases hg : place = giver
      · subst hg
        exact .inl ⟨place, hplace, hgiver.symm.subset (List.mem_cons_of_mem _ hkey)⟩
      by_cases ht : place = taker
      · subst ht
        rcases List.mem_cons.mp (htaker.subset hkey) with rfl | hold
        · exact .inl ⟨giver, hgiven, hgiver.symm.subset List.mem_cons_self⟩
        · exact .inl ⟨place, hplace, hold⟩
      · exact .inl ⟨place, hplace, hother place hg ht ▸ hkey⟩
  | answer giver key' hne hgiver hproduced hother =>
      by_cases hg : place = giver
      · subst hg
        exact .inl ⟨place, hplace, hgiver.symm.subset (List.mem_cons_of_mem _ hkey)⟩
      · exact .inl ⟨place, hplace, hother place hg hplace ▸ hkey⟩
  | deliver a key' hgiver hasked => exact .inl ⟨place, hplace, hasked ▸ hkey⟩

end NodeState

end ActorCluster.Node
