import ActorCluster.Foundation.History
import ActorCluster.Node.Requests
import ActorCluster.Node.SoleWriter

/-! # The identity of a request

The gateway finds the request behind a result by the identity fields of the result.
They are filled in by hand wherever the node refuses an envelope, and by `Handle`;
`completeResult` only sees what `Handle` returns. The history keeps the envelope that
each goroutine has taken up, whether the wallet could be read for it, and with every
queued result the envelope it is for. All results name the wallet, the transaction and
the request of their envelope. The operation code is echoed as well, except where the
rehydration of a new actor has failed.
-/

namespace ActorCluster.Node

open Remote Wallet Transition ActorCluster.Runtime

/-- The result names the wallet, the request and the transaction of the envelope. -/
structure Names (res : RemoteResult) (env : RemoteEnvelope) : Prop where
  tenantId : res.tenantId = env.tenantId
  uid : res.uid = env.uid
  requestId : res.requestId = env.requestId
  txId : res.txId = env.txId

/-- An envelope that is served, and whether its wallet could not be read. -/
structure Served where
  env : RemoteEnvelope
  unread : Bool
  deriving DecidableEq

/-- The result names the envelope. It has the operation code of the envelope too, or
none if the wallet could not be read. -/
structure Answers (res : RemoteResult) (served : Served) : Prop extends
    Names res served.env where
  opCode : res.opCode = if served.unread then 0 else served.env.opCode

/-- The envelope that each call is busy with and that each loop has executed last, and
the results put on the channel with the envelopes they are for. -/
structure Provenance where
  call : Nat → Option Served
  loop : Nat → Option RemoteEnvelope
  log : List (Served × QueuedResult)

namespace Provenance

def empty : Provenance := ⟨fun _ => none, fun _ => none, []⟩

/-- A result is queued for the envelope at hand. -/
def note (h : Provenance) (served : Option Served) (queued : QueuedResult) : Provenance :=
  { h with log := h.log ++ served.toList.map fun served => (served, queued) }

/-- A call is busy with an envelope. -/
def serve (h : Provenance) (p : Nat) (served : Served) : Provenance :=
  { h with call := Function.update h.call p (some served) }

/-- The call of a rehydration keeps what its query came to. -/
def record (r : NodeRun) (h : Provenance) : Event → Provenance
  | .act (.next p _ env _) => h.serve p ⟨env, false⟩
  | .act (.loadSnapshot p call _ closeErr) =>
      h.serve p ⟨call.env, !(BusinessActor.loadSnapshot
        ⟨(r.db.wallet call.key).snapshot.toList, closeErr⟩).isOk⟩
  | .act (.loadEvents p call now snapshot closeErr) =>
      h.serve p ⟨call.env, ((newBusinessActor call.key.tenantID call.key.uid now).loadEvents
        snapshot ⟨(r.db.wallet call.key).eventsAfter snapshot.lastVersion, closeErr⟩).2.isSome⟩
  | .act (.execute a env _ _) => { h with loop := Function.update h.loop a (some env) }
  | .act (.reject _ sender env _) => h.note (some ⟨env, false⟩) ⟨overloadedResult env, sender⟩
  | .act (.push p sender _ res) => h.note (h.call p) ⟨res, sender⟩
  | .act (.drainPush _ _ env reply _) => h.note (some ⟨env, false⟩) ⟨evictedResult env, reply⟩
  | .act (.deliver a queued) => h.note ((h.loop a).map fun env => ⟨env, false⟩) queued
  | _ => h

end Provenance

/-- A node that starts on the given tables, with the provenance of its results. -/
def traced (cfg : Config) (db : Database) : System (NodeRun × Provenance) Event :=
  ({ node cfg with init := ⟨newNode, db⟩ } : System NodeRun Event).recording .empty
    fun r h event => h.record r event

section Results

theorem answers_errorResult (env : RemoteEnvelope) (code : ErrorCode) (msg : String) :
    Answers (errorResult env code msg) ⟨env, false⟩ where
  tenantId := rfl
  uid := rfl
  requestId := rfl
  txId := rfl
  opCode := rfl

/-- This refusal is built without the operation code. -/
theorem answers_rehydrationFailedResult (env : RemoteEnvelope) (err : RehydrateError) :
    Answers (rehydrationFailedResult env err) ⟨env, true⟩ where
  tenantId := rfl
  uid := rfl
  requestId := rfl
  txId := rfl
  opCode := rfl

/-- What an actor hands over answers the envelope that it has executed. -/
theorem answers_execute {actor : LocalActor} (haddressed : actor.Addressed)
    {env : RemoteEnvelope} (henv : actorKey env = actor.key) (store : WalletStore) (now : Int)
    (outcome : WriteOutcome) :
    Answers (completeResult (actor.state.handle store env now outcome).result env)
      ⟨env, false⟩ := by
  obtain ⟨_, _, htenant, huid, htx, hrequest, hop⟩ :=
    actor.state.handle_identity store env now outcome
  have htenantID := congrArg ActorKey.tenantID henv
  have huserID := congrArg ActorKey.uid henv
  simp only [actorKey] at htenantID huserID
  refine ⟨⟨?_, ?_, ?_, ?_⟩, ?_⟩
  · simp [completeResult, htenant, haddressed.identity.1, htenantID]
  · simp [completeResult, huid, haddressed.identity.2, huserID]
  · simp [completeResult, hrequest]
  · simp [completeResult, htx]
  · simp [completeResult, hop]

end Results

/-- A result in the hands of a loop was there before, or comes from an execution. -/
theorem ActorMove.result_cases {n : NodeState} {db : Database} {action : Action} {a : Nat}
    {actor : LocalActor} (h : ActorMove n db action a actor) {res : RemoteResult}
    (hres : actor.loop.result = some res) :
    (n.actor a).loop.result = some res ∨
      ∃ env now outcome, action = .execute a env now outcome ∧
        (n.actor a).loop = .execute env now ∧
        res = completeResult
          ((n.actor a).state.handle (db.wallet (n.actor a).key) env now outcome).result env := by
  cases h with
  | stay | signal | swap | link | collect => exact Or.inl hres
  | stop =>
      unfold LocalActor.stop at hres
      split at hres <;> exact Or.inl hres
  | dequeue =>
      unfold LocalActor.dequeue at hres
      split at hres <;> cases hres
  | execute env now outcome haction hloop =>
      rw [NodeState.execute, NodeState.setActor_actor_self] at hres
      exact Or.inr ⟨env, now, outcome, haction, hloop, (Option.some.inj hres).symm⟩
  | emit other hloop =>
      rw [hloop]
      cases hroute : n.replyRoutes (resultKey other) with
      | none =>
          rw [hroute] at hres
          cases hres
      | some reply =>
          rw [hroute] at hres
          exact Or.inl hres
  | checkStatus =>
      dsimp only at hres
      split at hres <;> cases hres
  | install | uncount | handle | deliver | wakeUp | exit => cases hres

/-- What is known of the provenance in every reachable state. -/
structure Attributed (r : NodeRun) (h : Provenance) : Prop where
  wellformed : r.node.Wellformed
  serving : ∀ p call pc, r.node.thread p = .serving call pc → h.call p = some ⟨call.env, false⟩
  refusing : ∀ p sender rest res, r.node.thread p = .push sender rest res →
    ∃ served, h.call p = some served ∧ Answers res served
  answering : ∀ a res, (r.node.actor a).loop.result = some res →
    ∃ env, h.loop a = some env ∧ Answers res ⟨env, false⟩
  queued : h.log.map Prod.snd = r.node.put
  answered : ∀ served queued, (served, queued) ∈ h.log → Answers queued.res served

namespace Attributed

variable {cfg : Config} {r : NodeRun} {h : Provenance} {action : Action}

/-- A call keeps its envelope until it takes the next one or queries the store. -/
theorem call_record (henabled : r.node.enabled cfg action = true) {p : Nat}
    (hnext : ∀ sender rest, r.node.thread p ≠ .next sender rest)
    (hloading : (r.node.thread p).loading = none) :
    (h.record r (.act action)).call p = h.call p := by
  cases action with
  | next q sender env rest =>
      have hq : r.node.thread q = .next sender (env :: rest) := by
        simpa [NodeState.enabled] using henabled
      refine Function.update_of_ne ?_ _ _
      rintro rfl
      exact hnext sender (env :: rest) hq
  | loadSnapshot q call now closeErr =>
      have hq : r.node.thread q = .serving call (.loadSnapshot now) := by
        simpa [NodeState.enabled] using henabled
      refine Function.update_of_ne ?_ _ _
      rintro rfl
      rw [hq] at hloading
      cases hloading
  | loadEvents q call now snapshot closeErr =>
      have hq : r.node.thread q = .serving call (.loadEvents now snapshot) := by
        simpa [NodeState.enabled] using henabled
      refine Function.update_of_ne ?_ _ _
      rintro rfl
      rw [hq] at hloading
      cases hloading
  | _ => rfl

/-- Neither the next envelope nor a query leaves the call where it stands. -/
theorem call_record_of_stay (henabled : r.node.enabled cfg action = true) {p : Nat}
    (hstay : (r.node.apply cfg r.db action).thread p = r.node.thread p) :
    (h.record r (.act action)).call p = h.call p := by
  cases action with
  | next q sender env rest =>
      have hq : r.node.thread q = .next sender (env :: rest) := by
        simpa [NodeState.enabled] using henabled
      refine Function.update_of_ne ?_ _ _
      rintro rfl
      rw [hq, NodeState.apply, NodeState.setThread_thread_self] at hstay
      split at hstay <;> cases hstay
  | loadSnapshot q call now closeErr =>
      have hq : r.node.thread q = .serving call (.loadSnapshot now) := by
        simpa [NodeState.enabled] using henabled
      refine Function.update_of_ne ?_ _ _
      rintro rfl
      simp only [NodeState.apply, NodeState.giveUp] at hstay
      split at hstay <;> (rw [hq, NodeState.setThread_thread_self] at hstay; cases hstay)
  | loadEvents q call now snapshot closeErr =>
      have hq : r.node.thread q = .serving call (.loadEvents now snapshot) := by
        simpa [NodeState.enabled] using henabled
      refine Function.update_of_ne ?_ _ _
      rintro rfl
      simp only [NodeState.apply, NodeState.giveUp, NodeState.install] at hstay
      split at hstay <;> (rw [hq, NodeState.setThread_thread_self] at hstay; cases hstay)
  | _ => rfl

/-- A loop hands its result over before it executes the next envelope. -/
theorem loop_record (henabled : r.node.enabled cfg action = true) {a : Nat} {res : RemoteResult}
    (ha : (r.node.actor a).loop.result = some res) :
    (h.record r (.act action)).loop a = h.loop a := by
  cases action with
  | execute b env now outcome =>
      have hb : (r.node.actor b).loop = .execute env now := by
        simpa [NodeState.enabled] using henabled
      have hne : a ≠ b := by
        intro hab
        rw [hab, hb] at ha
        cases ha
      exact Function.update_of_ne hne _ _
  | _ => rfl

theorem serving_step (hr : Attributed r h) (henabled : r.node.enabled cfg action = true)
    {p : Nat} {call : Call} {pc : Serving}
    (hp : (r.node.apply cfg r.db action).thread p = .serving call pc) :
    (h.record r (.act action)).call p = some ⟨call.env, false⟩ := by
  have hmove : ThreadMove r.node r.db action p _ := NodeState.threadMove_apply henabled p
  rw [hp] at hmove
  generalize ht : Thread.serving call pc = t at hmove
  cases hmove with
  | stay =>
      rw [call_record_of_stay henabled (hp.trans ht)]
      exact hr.serving p call pc ht.symm
  | serve sender env rest hold haction =>
      cases ht
      rw [haction]
      exact Function.update_self _ _ _
  | go call' pc' pc'' hold hserving =>
      cases ht
      cases hserving with
      | loaded now snapshot closeErr haction hload =>
          rw [haction, Provenance.record, hload]
          exact Function.update_self _ _ _
      | install now snapshot closeErr haction b hload =>
          rw [haction, Provenance.record, hload]
          exact Function.update_self _ _ _
      | _ =>
          rw [call_record henabled (by rw [hold]; simp) (by rw [hold]; rfl)]
          exact hr.serving p call _ hold
  | arrive | overload | accept | reject | refuse | push | finish | noSnapshot | noEvents | nobody
  | spawn | wake => cases ht

theorem refusing_step (hr : Attributed r h) (henabled : r.node.enabled cfg action = true)
    {p : Nat} {sender : BatchSender} {rest : List RemoteEnvelope} {res : RemoteResult}
    (hp : (r.node.apply cfg r.db action).thread p = .push sender rest res) :
    ∃ served, (h.record r (.act action)).call p = some served ∧ Answers res served := by
  have hmove : ThreadMove r.node r.db action p _ := NodeState.threadMove_apply henabled p
  rw [hp] at hmove
  generalize ht : Thread.push sender rest res = t at hmove
  cases hmove with
  | stay =>
      rw [call_record_of_stay henabled (hp.trans ht)]
      exact hr.refusing p sender rest res ht.symm
  | refuse sender env rest hold haction =>
      cases ht
      rw [haction]
      exact ⟨_, Function.update_self _ _ _, answers_errorResult env _ _⟩
  | noSnapshot call now err hold closeErr haction hload =>
      cases ht
      rw [haction, Provenance.record, hload]
      exact ⟨_, Function.update_self _ _ _, answers_rehydrationFailedResult call.env err⟩
  | noEvents call now snapshot err hold closeErr haction hload =>
      cases ht
      rw [haction, Provenance.record, hload]
      exact ⟨_, Function.update_self _ _ _, answers_rehydrationFailedResult call.env err⟩
  | nobody call hold | spawn call a haction hold =>
      cases ht
      rw [call_record henabled (by rw [hold]; simp) (by rw [hold]; rfl)]
      exact ⟨_, hr.serving p call _ hold, answers_errorResult call.env _ _⟩
  | arrive | overload | accept | reject | serve | push | finish | go | wake => cases ht

theorem answering_step (hr : Attributed r h) (henabled : r.node.enabled cfg action = true)
    {a : Nat} {res : RemoteResult}
    (ha : ((r.node.apply cfg r.db action).actor a).loop.result = some res) :
    ∃ env, (h.record r (.act action)).loop a = some env ∧ Answers res ⟨env, false⟩ := by
  have hmove : ActorMove r.node r.db action a _ := NodeState.actorMove_apply henabled a
  rcases hmove.result_cases ha with hold | ⟨env, now, outcome, haction, hloop, hres⟩
  · obtain ⟨env, hlast, hanswers⟩ := hr.answering a res hold
    refine ⟨env, ?_, hanswers⟩
    rw [loop_record henabled hold]
    exact hlast
  · have haddressed := hr.wellformed.addressed a
    have henv : actorKey env = (r.node.actor a).key :=
      haddressed.inHand env (by rw [hloop]; rfl)
    refine ⟨env, ?_, ?_⟩
    · rw [haction]
      exact Function.update_self _ _ _
    · rw [hres]
      exact answers_execute haddressed henv _ now outcome

/-- The log has one more entry for every result that is put on the channel. -/
theorem log_step (hr : Attributed r h) (henabled : r.node.enabled cfg action = true) :
    (h.record r (.act action)).log.map Prod.snd = (r.node.apply cfg r.db action).put ∧
      ∀ served queued, (served, queued) ∈ (h.record r (.act action)).log →
        Answers queued.res served := by
  have hnote {served : Served} {queued : QueuedResult} (hanswers : Answers queued.res served) :
      (h.note (some served) queued).log.map Prod.snd = r.node.put ++ [queued] ∧
        ∀ served' queued', (served', queued') ∈ (h.note (some served) queued).log →
          Answers queued'.res served' := by
    refine ⟨?_, ?_⟩
    · simp [Provenance.note, hr.queued]
    · intro served' queued' hmem
      simp only [Provenance.note, Option.toList_some, List.map_cons, List.map_nil,
        List.mem_append, List.mem_singleton, Prod.mk.injEq] at hmem
      rcases hmem with hmem | ⟨rfl, rfl⟩
      · exact hr.answered served' queued' hmem
      · exact hanswers
  cases action with
  | reject p sender env rest => exact hnote (answers_errorResult env _ _)
  | drainPush d a env reply envs => exact hnote (answers_errorResult env _ _)
  | push p sender rest res =>
      have hp : r.node.thread p = .push sender rest res ∧ r.node.hasRoom = true := by
        simpa [NodeState.enabled] using henabled
      obtain ⟨served, hcall, hanswers⟩ := hr.refusing p sender rest res hp.1
      simp only [Provenance.record, hcall]
      exact hnote hanswers
  | deliver a queued =>
      have ha : (r.node.actor a).loop = .push queued ∧ r.node.hasRoom = true := by
        simpa [NodeState.enabled] using henabled
      obtain ⟨env, hlast, hanswers⟩ := hr.answering a queued.res (by rw [ha.1]; rfl)
      simp only [Provenance.record, hlast]
      exact hnote hanswers
  | loadSnapshot | loadEvents =>
      simp only [NodeState.apply]
      split <;> exact ⟨hr.queued, hr.answered⟩
  | _ => exact ⟨hr.queued, hr.answered⟩

theorem step (hr : Attributed r h) {event : Event} (henabled : r.enabled cfg event = true) :
    Attributed (r.apply cfg event) (h.record r event) := by
  cases event with
  | land key snapshot =>
      exact ⟨hr.wellformed, hr.serving, hr.refusing, hr.answering, hr.queued, hr.answered⟩
  | act action =>
      obtain ⟨hqueued, hanswered⟩ := hr.log_step henabled
      exact ⟨hr.wellformed.step henabled, fun p call pc => hr.serving_step henabled,
        fun p sender rest res => hr.refusing_step henabled,
        fun a res => hr.answering_step henabled, hqueued, hanswered⟩

end Attributed

theorem attributed_of_run {cfg : Config} {db : Database} {t : NodeRun × Provenance}
    (ht : (traced cfg db).Reachable t) : Attributed t.1 t.2 := by
  apply System.recording_invariant _ _ ht
  · exact ⟨NodeState.wellformed_newNode, nofun, nofun, nofun, rfl, nofun⟩
  · intro r h event r' hr hstep
    obtain ⟨henabled, rfl⟩ := System.guarded_step_eq_some_iff.mp hstep
    exact hr.step henabled

/-- Every result that the node queues for an envelope names it. It has the operation
code of the envelope too, if and only if the wallet could be read or the operation code
of the envelope is 0. -/
theorem identity_echoed {cfg : Config} {db : Database} {t : NodeRun × Provenance}
    (ht : (traced cfg db).Reachable t) :
    t.2.log.map Prod.snd = t.1.node.put ∧
      ∀ served queued, (served, queued) ∈ t.2.log →
        Names queued.res served.env ∧
          (queued.res.opCode = served.env.opCode ↔
            served.unread = false ∨ served.env.opCode = 0) := by
  have hattributed := attributed_of_run ht
  refine ⟨hattributed.queued, fun served queued hmem => ?_⟩
  have hanswers := hattributed.answered served queued hmem
  refine ⟨hanswers.toNames, ?_⟩
  rw [hanswers.opCode]
  cases served.unread <;> simp [eq_comm]

/-- The snapshot of the wallet cannot be read, and the first deposit is refused. -/
def unreadableWallet : List Event :=
  firstArrival ++ [Event.act (.create 0 ⟨0, deposit "1" 1, []⟩ 0),
    .act (.loadSnapshot 0 ⟨0, deposit "1" 1, []⟩ 0 (some "timeout")),
    .act (.push 0 0 [] (rehydrationFailedResult (deposit "1" 1) (.loadSnapshot "timeout"))),
    .act (.finish 0 0)]

/-- The same deposit is sent again, and executed. -/
def readableWallet : List Event := unreadableWallet ++ answeredDeposit

theorem identity_echoed_readableWallet :
    ∃ refusal, ((traced nodeA .empty).after readableWallet).2.log =
        [(⟨deposit "1" 1, true⟩, refusal), (⟨deposit "1" 1, false⟩, ⟨firstResult, 0⟩)] ∧
      Names refusal.res (deposit "1" 1) ∧ refusal.res.opCode ≠ (deposit "1" 1).opCode ∧
      Names firstResult (deposit "1" 1) ∧ firstResult.opCode = (deposit "1" 1).opCode := by
  have hlog : ((traced nodeA .empty).after readableWallet).2.log =
      [(⟨deposit "1" 1, true⟩,
          ⟨rehydrationFailedResult (deposit "1" 1) (.loadSnapshot "timeout"), 0⟩),
        (⟨deposit "1" 1, false⟩, ⟨firstResult, 0⟩)] := by decide +kernel
  have hreachable : (traced nodeA .empty).Reachable ((traced nodeA .empty).after readableWallet) :=
    System.reachable_after readableWallet
  have hechoed := (identity_echoed hreachable).2
  rw [hlog] at hechoed
  obtain ⟨hrefusal, hdropped⟩ := hechoed _ _ List.mem_cons_self
  obtain ⟨hresult, hopCode⟩ := hechoed _ _ (List.mem_cons_of_mem _ (List.mem_singleton_self _))
  exact ⟨_, hlog, hrefusal, fun hsame => absurd (hdropped.mp hsame) (by decide), hresult,
    hopCode.mpr (Or.inl rfl)⟩

/-- The refusal has the operation code 0 in place of that of the deposit. -/
theorem rehydration_drops_opCode :
    ∃ t queued, (traced nodeA .empty).Reachable t ∧ queued ∈ t.1.node.put ∧
      (⟨deposit "1" 1, true⟩, queued) ∈ t.2.log ∧
      (deposit "1" 1).opCode = 1 ∧ queued.res.opCode = 0 :=
  ⟨_, ⟨rehydrationFailedResult (deposit "1" 1) (.loadSnapshot "timeout"), 0⟩,
    System.reachable_after unreadableWallet, by decide +kernel, by decide +kernel, rfl, rfl⟩

end ActorCluster.Node
