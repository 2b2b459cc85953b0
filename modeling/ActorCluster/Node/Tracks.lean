import ActorCluster.Node.Orderly

/-! # The view of a wallet follows its node

A step of a node is a step of one wallet, or it leaves what the node has of the
wallet as it is. The steps of other wallets are treated once, by the moves of the
calls, the actors and the drains; each step of the wallet itself is matched by the
same step of the view.
-/

namespace ActorCluster.Node

open Remote Wallet Transition ActorCluster.Runtime

/-- The wallet whose step an action is. -/
def Action.wallet (n : NodeState) : Action → Option ActorKey
  | .next _ _ env _ => some (actorKey env)
  | .owner _ call _ | .loadSnapshot _ call _ _ | .loadEvents _ call _ _ _ | .route _ call _
  | .unroute _ call _ | .spawn _ call _ => some call.key
  | .push _ _ _ res => some (resultWallet res)
  | .execute a _ _ _ | .emit a _ | .deliver a _ | .answer _ a _ _ | .drainPush _ a _ _ _ =>
      some (n.actor a).key
  | _ => none

/-- The wallet that a call is busy with. -/
def Thread.wallet : Thread → Option ActorKey
  | .serving call _ => some call.key
  | .push _ _ res => some (resultWallet res)
  | _ => none

/-! ## What the view shows -/

/-- What the view of a call has to show while the call stands at a position. -/
def Serving.Shown (c : CallView) : Serving → Prop
  | .loadEvents _ snapshot => c.snapshot = snapshot
  | .kill | .close _ | .killSignal _ | .spawn _ => c.refusal = some (wrongNodeResult c.env)
  | _ => True

def Thread.Shown (c : CallView) : Thread → Prop
  | .serving call pc => c.sender = call.sender ∧ c.env = call.env ∧ pc.Shown c
  | .push sender _ res => c.sender = sender ∧ c.refusal = some res
  | _ => True

structure LocalActor.Shown (v : ActorView) (actor : LocalActor) : Prop where
  state : v.state = actor.state.untimed
  result : ∀ res, actor.loop = .emit res → v.result = some res
  queued : ∀ queued, actor.loop = .push queued → v.queued = some queued

def Drain.Shown (v : DrainView) (drain : Drain) : Prop :=
  ∀ a env reply envs, drain = .push a env reply envs → v.pending = some (env, reply)

namespace NodeState

/-- The results for one wallet, in the order in which they were put on the channel. -/
def resultsOf (n : NodeState) (key : ActorKey) : List QueuedResult :=
  n.put.filter fun queued => resultWallet queued.res = key

def Serves (n : NodeState) (key : ActorKey) (p : Nat) : Prop := (n.thread p).wallet = some key

def Drains (n : NodeState) (key : ActorKey) (d : Nat) : Prop :=
  ∃ a, (n.drain d).target = some a ∧ (n.actor a).key = key

end NodeState

/-- The view agrees with what the node has of the wallet. -/
structure Tracks (key : ActorKey) (o : Observer) (r : NodeRun) (w : WalletView) : Prop where
  store : w.store = (r.db.wallet key).undated
  inFlight : w.inFlight = r.db.inFlight key
  routes : ∀ reqID, w.routes reqID = r.node.replyRoutes ⟨key.tenantID, key.uid, reqID⟩
  put : w.put = r.node.resultsOf key
  calls : w.calls = o.call.next
  call : o.call.Mirror (r.node.Serves key) (fun p c => (r.node.thread p).Shown c) w.call
  actors : w.actors = o.actor.next
  actor : o.actor.Mirror (r.node.Refers key) (fun a v => (r.node.actor a).Shown v) w.actor
  drains : w.drains = o.drain.next
  drain : o.drain.Mirror (r.node.Drains key) (fun d v => (r.node.drain d).Shown v) w.drain

theorem tracks_newNode (key : ActorKey) (db : Database) :
    Tracks key .empty ⟨newNode, db⟩ (.start (db.wallet key).undated (db.inFlight key)) where
  store := rfl
  inFlight := rfl
  routes _ := rfl
  put := rfl
  calls := rfl
  call := .of_forall_not nofun
  actors := rfl
  actor := .of_forall_not fun _ h => absurd h.1 (Nat.not_lt_zero _)
  drains := rfl
  drain := .of_forall_not fun _ ⟨_, h, _⟩ => by cases h

/-! ## Steps of other wallets -/

section Foreign

variable {cfg : Config} {n : NodeState} {db : Database} {action : Action} {key : ActorKey}

theorem ThreadMove.shown {p : Nat} {t : Thread} (h : ThreadMove n db action p t)
    (hforeign : action.wallet n ≠ some key) (ht : t.wallet = some key) :
    n.Serves key p ∧ ∀ c, (n.thread p).Shown c → t.Shown c := by
  cases h with
  | stay => exact ⟨ht, fun _ => id⟩
  | serve _ _ _ _ haction | refuse _ _ _ _ haction | noSnapshot _ _ _ _ _ haction
  | noEvents _ _ _ _ _ _ haction =>
      subst haction
      exact absurd ht hforeign
  | go call pc pc' hp hmove =>
      refine ⟨by rw [NodeState.Serves, hp]; exact ht, fun c hc => ?_⟩
      rw [hp] at hc
      refine ⟨hc.1, hc.2.1, ?_⟩
      cases hmove with
      | disown _ haction | loaded _ _ _ haction =>
          subst haction
          exact absurd ht hforeign
      | kill | close | closed | signal => exact hc.2.2
      | _ => trivial
  | nobody call hp | spawn call _ _ hp =>
      refine ⟨by rw [NodeState.Serves, hp]; exact ht, fun c hc => ?_⟩
      rw [hp] at hc
      obtain ⟨hsender, henv, hrefusal⟩ := hc
      exact ⟨hsender, henv ▸ hrefusal⟩
  | _ => cases ht

theorem ActorMove.shown {a : Nat} {actor : LocalActor} (h : ActorMove n db action a actor)
    (hforeign : action.wallet n ≠ some key) (ha : actor.key = key) (hstarted : a < n.started) :
    ∀ v, (n.actor a).Shown v → actor.Shown v := by
  have hkey : (n.actor a).key = key := (h.key hstarted).symm.trans ha
  intro v hv
  -- a position without a result is shown by any view of the same state
  have hquiet {actor' : LocalActor} (hstate : actor'.state.untimed = (n.actor a).state.untimed)
      (hresult : actor'.loop.result = none) : actor'.Shown v := by
    refine ⟨hv.state.trans hstate.symm, fun res hres => ?_, fun queued hqueued => ?_⟩
    · rw [hres] at hresult
      cases hresult
    · rw [hqueued] at hresult
      cases hresult
  cases h with
  | stay => exact hv
  | install p call now snapshot closeErr b hfresh => omega
  | stop =>
      unfold LocalActor.stop
      split <;> exact ⟨hv.state, hv.result, hv.queued⟩
  | signal | swap | link | collect => exact ⟨hv.state, hv.result, hv.queued⟩
  | dequeue =>
      unfold LocalActor.dequeue
      split <;> exact hquiet rfl rfl
  | execute _ _ _ haction | emit _ _ haction =>
      subst haction
      exact absurd (congrArg some hkey) hforeign
  | checkStatus =>
      refine hquiet rfl ?_
      dsimp only
      split <;> rfl
  | uncount | handle | deliver | wakeUp | exit => exact hquiet rfl rfl

theorem DrainMove.shown {d : Nat} {drain : Drain} (h : DrainMove n action d drain)
    (hforeign : action.wallet n ≠ some key) (hd : n.Drains key d) :
    ∀ v, (n.drain d).Shown v → drain.Shown v := by
  intro v hv
  cases h with
  | stay => exact hv
  | answer a env envs hd' haction =>
      subst haction
      obtain ⟨b, htarget, hkey⟩ := hd
      rw [hd'] at htarget
      cases htarget
      exact absurd (congrArg some hkey) hforeign
  | _ => nofun

/-- The routes of a wallet are the wallet's own. -/
theorem replyRoutes_foreign (ho : Orderly n) (henabled : n.enabled cfg action = true)
    (hforeign : action.wallet n ≠ some key) (reqID : UInt64) :
    (n.apply cfg db action).replyRoutes ⟨key.tenantID, key.uid, reqID⟩ =
      n.replyRoutes ⟨key.tenantID, key.uid, reqID⟩ := by
  have hother {rk : ResultRouteKey} (reply : Option BatchSender)
      (hrk : ActorKey.mk rk.tenant rk.uid ≠ key) :
      Function.update n.replyRoutes rk reply ⟨key.tenantID, key.uid, reqID⟩ =
        n.replyRoutes ⟨key.tenantID, key.uid, reqID⟩ := by
    refine Function.update_of_ne ?_ _ _
    rintro rfl
    exact hrk rfl
  cases action with
  | loadSnapshot | loadEvents =>
      simp only [NodeState.apply]
      split <;> rfl
  | route p call a | unroute p call a =>
      exact hother _ fun hkey => hforeign (congrArg some hkey)
  | emit a res =>
      have ha : (n.actor a).loop = .emit res := by simpa [NodeState.enabled] using henabled
      refine hother none fun hkey => hforeign (congrArg some ?_)
      exact (ho.results a res (by rw [ha]; rfl)).symm.trans hkey
  | answer d a env envs =>
      have hd : n.drain d = .answer a (env :: envs) := by simpa [NodeState.enabled] using henabled
      refine hother none fun hkey => hforeign (congrArg some ?_)
      exact (ho.drained d a env (by rw [hd]; rfl) (by rw [hd]; exact List.mem_cons_self)).symm.trans
        hkey
  | _ => rfl

/-- Results are put on the channel for the wallet they belong to. -/
theorem resultsOf_foreign (ho : Orderly n) (henabled : n.enabled cfg action = true)
    (hforeign : action.wallet n ≠ some key) :
    (n.apply cfg db action).resultsOf key = n.resultsOf key := by
  have hother {queued : QueuedResult} (hne : resultWallet queued.res ≠ key) :
      (n.put ++ [queued]).filter (fun queued => resultWallet queued.res = key) =
        n.resultsOf key := by
    rw [List.filter_append, List.filter_singleton, decide_eq_false hne]
    exact List.append_nil _
  cases action with
  | loadSnapshot | loadEvents =>
      simp only [NodeState.apply]
      split <;> rfl
  | reject p sender env rest =>
      have hp : n.thread p = .reject sender (env :: rest) ∧ n.hasRoom = true := by
        simpa [NodeState.enabled] using henabled
      exact absurd hp.1 (ho.admitting p sender _)
  | push p sender rest res => exact hother fun hkey => hforeign (congrArg some hkey)
  | deliver a queued =>
      have ha : (n.actor a).loop = .push queued ∧ n.hasRoom = true := by
        simpa [NodeState.enabled] using henabled
      refine hother fun hkey => hforeign (congrArg some ?_)
      exact (ho.results a queued.res (by rw [ha.1]; rfl)).symm.trans hkey
  | drainPush d a env reply envs =>
      have hd : n.drain d = .push a env reply envs ∧ n.hasRoom = true := by
        simpa [NodeState.enabled] using henabled
      refine hother fun hkey => hforeign (congrArg some ?_)
      exact (ho.drained d a env (by rw [hd.1]; rfl)
        (by rw [hd.1]; exact List.mem_cons_self)).symm.trans hkey
  | _ => rfl

/-- A step of another wallet writes to other partitions. -/
theorem database_foreign (hforeign : action.wallet n ≠ some key) :
    (db.apply n action).wallet key = db.wallet key ∧
      (db.apply n action).inFlight key = db.inFlight key := by
  cases action with
  | execute a env now outcome =>
      have hne : key ≠ (n.actor a).key := fun hkey => hforeign (congrArg some hkey.symm)
      exact ⟨Function.update_of_ne hne _ _, Function.update_of_ne hne _ _⟩
  | _ => exact ⟨rfl, rfl⟩

/-- An actor of the wallet was one before, unless it has just been rehydrated. -/
theorem refers_foreign (henabled : n.enabled cfg action = true)
    (hforeign : action.wallet n ≠ some key) {a : Nat}
    (ha : (n.apply cfg db action).Refers key a) : n.Refers key a := by
  have hmove : ActorMove n db action a _ := NodeState.actorMove_apply henabled a
  by_cases hlt : a < n.started
  · exact ⟨hlt, (hmove.key hlt).symm.trans ha.2⟩
  · exfalso
    obtain ⟨hstarted, hkey⟩ := ha
    cases action with
    | loadEvents p call now snapshot closeErr =>
        simp only [NodeState.apply] at hstarted hkey
        split at hstarted
        next => exact hlt hstarted
        next b hload =>
          have heq : a = n.started :=
            Nat.le_antisymm (Nat.le_of_lt_succ hstarted) (Nat.le_of_not_lt hlt)
          subst heq
          rw [hload] at hkey
          have hcall : call.key = key :=
            (congrArg LocalActor.key (Function.update_self _ _ _)).symm.trans hkey
          exact hforeign (congrArg some hcall)
    | loadSnapshot =>
        simp only [NodeState.apply] at hstarted
        split at hstarted <;> exact hlt hstarted
    | _ => exact hlt hstarted

theorem drains_foreign (ho : Orderly n) (henabled : n.enabled cfg action = true)
    (hforeign : action.wallet n ≠ some key) {d : Nat}
    (hd : (n.apply cfg db action).Drains key d) : n.Drains key d := by
  obtain ⟨a, ha, hkey⟩ := hd
  have hdrain : DrainMove n action d ((n.apply cfg db action).drain d) :=
    NodeState.drainMove_apply henabled d
  have hmove : ActorMove n db action a _ := NodeState.actorMove_apply henabled a
  rcases hdrain.target_back ha with hold | ⟨p, call, rfl, _⟩
  · exact ⟨a, hold, (hmove.key (ho.kept.drained d a hold)).symm.trans hkey⟩
  · have hp : n.thread p = .serving call (.spawn a) := by simpa [NodeState.enabled] using henabled
    have htarget := ho.wellformed.targets p call _ a hp rfl
    exact absurd (congrArg some (htarget.2.symm.trans hkey)) hforeign

theorem Tracks.foreign (ho : Orderly n) (henabled : n.enabled cfg action = true)
    (hforeign : action.wallet n ≠ some key) {o : Observer} {w : WalletView}
    (h : Tracks key o ⟨n, db⟩ w) :
    Tracks key o (NodeRun.apply cfg ⟨n, db⟩ (.act action)) w where
  store := h.store.trans (congrArg WalletStore.undated (database_foreign hforeign).1.symm)
  inFlight := h.inFlight.trans (database_foreign hforeign).2.symm
  routes reqID := (h.routes reqID).trans (replyRoutes_foreign ho henabled hforeign reqID).symm
  put := h.put.trans (resultsOf_foreign ho henabled hforeign).symm
  calls := h.calls
  call := h.call.keep fun p hp => (NodeState.threadMove_apply henabled p).shown hforeign hp
  actors := h.actors
  actor := h.actor.keep fun a ha =>
    have hold := refers_foreign henabled hforeign ha
    ⟨hold, (NodeState.actorMove_apply henabled a).shown hforeign ha.2 hold.1⟩
  drains := h.drains
  drain := h.drain.keep fun d hd =>
    have hold := drains_foreign ho henabled hforeign hd
    ⟨hold, (NodeState.drainMove_apply henabled d).shown hforeign hold⟩

end Foreign

/-! ## Steps of the wallet -/

namespace Tracks

variable {cfg : Config} {n : NodeState} {db : Database} {key : ActorKey} {o : Observer}
variable {w : WalletView}

/-- The view of a call that serves the wallet. -/
theorem call_of_serving (h : Tracks key o ⟨n, db⟩ w) {p : Nat} {call : Call} {pc : Serving}
    (hp : n.thread p = .serving call pc) (hkey : call.key = key) :
    n.Serves key p ∧ ∃ c, w.call (o.call.of p) = some c ∧ c.sender = call.sender ∧
      c.env = call.env ∧ pc.Shown c := by
  have hserves : n.Serves key p := by rw [NodeState.Serves, hp, Thread.wallet, hkey]
  obtain ⟨c, hc, hshown⟩ := h.call.shows p hserves
  dsimp only at hshown
  rw [hp] at hshown
  exact ⟨hserves, c, hc, hshown⟩

/-- The call decides something, and its view with it. -/
theorem call_update (h : Tracks key o ⟨n, db⟩ w) {p : Nat} (hp : n.Serves key p) (t : Thread)
    (c : CallView) (hc : t.Shown c) :
    o.call.Mirror (fun q => (Function.update n.thread p t q).wallet = some key)
      (fun q c => (Function.update n.thread p t q).Shown c)
      (Function.update w.call (o.call.of p) (some c)) :=
  Roster.Mirror.update (f := n.thread) (L := fun _ t => t.wallet = some key)
    (S := fun t c => t.Shown c) h.call hp t c hc

/-- The call goes on without a decision. -/
theorem call_move (h : Tracks key o ⟨n, db⟩ w) (p : Nat) (t : Thread)
    (ht : t.wallet = some key → n.Serves key p ∧ ∀ c, (n.thread p).Shown c → t.Shown c) :
    o.call.Mirror (fun q => (Function.update n.thread p t q).wallet = some key)
      (fun q c => (Function.update n.thread p t q).Shown c) w.call :=
  Roster.Mirror.move (f := n.thread) (L := fun _ t => t.wallet = some key)
    (S := fun t c => t.Shown c) h.call p t ht

theorem next (h : Tracks key o ⟨n, db⟩ w) {p : Nat} {sender : BatchSender} {env : RemoteEnvelope}
    {rest : List RemoteEnvelope} :
    Tracks key { o with call := o.call.assign p }
      (NodeRun.apply cfg ⟨n, db⟩ (.act (.next p sender env rest)))
      (w.step cfg key (.arrive sender env)) where
  store := h.store
  inFlight := h.inFlight
  routes := h.routes
  put := h.put
  calls := congrArg (· + 1) h.calls
  call := by
    have hassign := Roster.Mirror.assign (f := n.thread) (L := fun _ t => t.wallet = some key)
      (K := fun _ t => t.wallet = some key) (S := fun t c => t.Shown c) h.call p
      (if wellFormed env then .serving ⟨sender, env, rest⟩ .owner
        else .push sender rest (badRequestResult env))
      (some ⟨sender, env, ⟨0, 0⟩, if wellFormed env then none else some (badRequestResult env)⟩)
      (fun _ => ⟨_, rfl, by split <;> simp [Thread.Shown, Serving.Shown, *]⟩) (fun _ _ => id)
    rw [← h.calls] at hassign
    exact hassign
  actors := h.actors
  actor := h.actor
  drains := h.drains
  drain := h.drain

theorem owner (h : Tracks key o ⟨n, db⟩ w) {p : Nat} {call : Call}
    {answer : Option (Except String String)} (hkey : call.key = key)
    (hp : n.thread p = .serving call .owner) :
    Tracks key o (NodeRun.apply cfg ⟨n, db⟩ (.act (.owner p call answer)))
      (w.step cfg key (.owner (o.call.of p) answer)) := by
  obtain ⟨hserves, c, hc, hsender, henv, _⟩ := h.call_of_serving hp hkey
  simp only [WalletView.step, hc, Option.elim_some, WalletView.callStep]
  by_cases howns : cfg.owns answer = true
  · rw [if_pos howns]
    refine ⟨h.store, h.inFlight, h.routes, h.put, h.calls, ?_, h.actors, h.actor, h.drains, h.drain⟩
    refine h.call_move p _ fun _ => ⟨hserves, fun c hc => ?_⟩
    rw [hp] at hc
    rw [if_pos howns]
    exact ⟨hc.1, hc.2.1, trivial⟩
  · rw [if_neg howns]
    refine ⟨h.store, h.inFlight, h.routes, h.put, h.calls, ?_, h.actors, h.actor, h.drains, h.drain⟩
    refine h.call_update hserves _ _ ?_
    rw [if_neg howns]
    exact ⟨hsender, henv, rfl⟩

theorem loadSnapshot (h : Tracks key o ⟨n, db⟩ w) {p : Nat} {call : Call} {now : Int}
    {closeErr : Option String} (hkey : call.key = key)
    (hp : n.thread p = .serving call (.loadSnapshot now)) :
    Tracks key o (NodeRun.apply cfg ⟨n, db⟩ (.act (.loadSnapshot p call now closeErr)))
      (w.step cfg key (.loadSnapshot (o.call.of p) closeErr)) := by
  obtain ⟨hserves, c, hc, hsender, henv, _⟩ := h.call_of_serving hp hkey
  have hrow : w.store.snapshot = (db.wallet call.key).snapshot := by
    rw [h.store, hkey]
    rfl
  simp only [WalletView.step, hc, Option.elim_some, WalletView.callStep, hrow, NodeRun.apply,
    NodeState.apply]
  cases BusinessActor.loadSnapshot ⟨(db.wallet call.key).snapshot.toList, closeErr⟩ with
  | error err =>
      refine ⟨h.store, h.inFlight, h.routes, h.put, h.calls, ?_, h.actors, h.actor, h.drains,
        h.drain⟩
      refine h.call_update hserves
        (.push call.sender call.rest (rehydrationFailedResult call.env err)) _ ?_
      exact ⟨hsender, by rw [← henv]⟩
  | ok snapshot =>
      refine ⟨h.store, h.inFlight, h.routes, h.put, h.calls, ?_, h.actors, h.actor, h.drains,
        h.drain⟩
      exact h.call_update hserves (.serving call (.loadEvents now snapshot)) _ ⟨hsender, henv, rfl⟩

/-- Drains stay with the wallet of their actor. -/
theorem drain_keep (h : Tracks key o ⟨n, db⟩ w) (ho : Orderly n) {action : Action}
    (henabled : n.enabled cfg action = true)
    (hdrain : (n.apply cfg db action).drain = n.drain) :
    o.drain.Mirror ((n.apply cfg db action).Drains key)
      (fun d v => ((n.apply cfg db action).drain d).Shown v) w.drain := by
  refine h.drain.keep fun d ⟨a, ha, hkey⟩ => ?_
  have hmove : ActorMove n db action a _ := NodeState.actorMove_apply henabled a
  rw [hdrain] at ha ⊢
  exact ⟨⟨a, ha, (hmove.key (ho.kept.drained d a ha)).symm.trans hkey⟩, fun _ => id⟩

theorem routes_update (h : Tracks key o ⟨n, db⟩ w) (rk : ResultRouteKey)
    (hrk : ActorKey.mk rk.tenant rk.uid = key) (reply : Option BatchSender) (reqID : UInt64) :
    Function.update w.routes rk.req reply reqID =
      Function.update n.replyRoutes rk reply ⟨key.tenantID, key.uid, reqID⟩ := by
  subst hrk
  by_cases hreq : reqID = rk.req
  · subst hreq
    rw [Function.update_self, Function.update_self]
  · rw [Function.update_of_ne hreq,
      Function.update_of_ne fun heq => hreq (congrArg ResultRouteKey.req heq)]
    exact h.routes reqID

theorem put_append (h : Tracks key o ⟨n, db⟩ w) {queued : QueuedResult}
    (hqueued : resultWallet queued.res = key) :
    w.put ++ [queued] =
      (n.put ++ [queued]).filter fun queued => resultWallet queued.res = key := by
  rw [List.filter_append, List.filter_singleton, decide_eq_true hqueued, h.put]
  rfl

/-- A rehydration that fails. -/
theorem giveUp (h : Tracks key o ⟨n, db⟩ w) {p : Nat} {call : Call} {c : CallView}
    (hserves : n.Serves key p) (hsender : c.sender = call.sender) (henv : c.env = call.env)
    (err : RehydrateError) :
    Tracks key { o with actor := o.actor.assign n.started } ⟨n.giveUp p call err, db⟩
      ((w.refuse (o.call.of p) c (rehydrationFailedResult c.env err)).addActor none) where
  store := h.store
  inFlight := h.inFlight
  routes := h.routes
  put := h.put
  calls := h.calls
  call := by
    refine h.call_update hserves (.push call.sender call.rest (rehydrationFailedResult _ err)) _ ?_
    exact ⟨hsender, by rw [← henv]⟩
  actors := congrArg (· + 1) h.actors
  actor := by
    have hassign := Roster.Mirror.assign (f := n.actor)
      (L := fun a actor => a < n.started ∧ actor.key = key)
      (K := fun a actor => a < n.started ∧ actor.key = key) (S := fun actor v => actor.Shown v)
      h.actor n.started (n.actor n.started) none (fun hlt => absurd hlt.1 (Nat.lt_irrefl _))
      (fun _ _ => id)
    rw [Function.update_eq_self, ← h.actors] at hassign
    exact hassign
  drains := h.drains
  drain := h.drain

/-- A rehydration that succeeds. -/
theorem install (h : Tracks key o ⟨n, db⟩ w) (ho : Orderly n) {p : Nat} {call : Call}
    (hserves : n.Serves key p)
    (hshown : ∀ c, (n.thread p).Shown c → c.sender = call.sender ∧ c.env = call.env)
    (b : BusinessActor) :
    Tracks key { o with actor := o.actor.assign n.started } ⟨n.install p call b, db⟩
      (w.addActor (some ⟨b.untimed, none, none⟩)) where
  store := h.store
  inFlight := h.inFlight
  routes := h.routes
  put := h.put
  calls := h.calls
  call := h.call_move p (.serving call (.route n.started)) fun _ =>
    ⟨hserves, fun c hc => ⟨(hshown c hc).1, (hshown c hc).2, trivial⟩⟩
  actors := congrArg (· + 1) h.actors
  actor := by
    have hassign := Roster.Mirror.assign (f := n.actor)
      (L := fun a actor => a < n.started ∧ actor.key = key)
      (K := fun a actor => a < n.started + 1 ∧ actor.key = key) (S := fun actor v => actor.Shown v)
      h.actor n.started (.start call.key b) (some ⟨b.untimed, none, none⟩)
      (fun _ => ⟨_, rfl, rfl, nofun, nofun⟩)
      (fun a hne hlt => ⟨Nat.lt_of_le_of_ne (Nat.le_of_lt_succ hlt.1) hne, hlt.2⟩)
    rw [← h.actors] at hassign
    exact hassign
  drains := h.drains
  drain := by
    refine h.drain.keep fun d ⟨a, ha, hkey⟩ => ⟨⟨a, ha, ?_⟩, fun _ => id⟩
    have hne : a ≠ n.started := Nat.ne_of_lt (ho.kept.drained d a ha)
    exact (congrArg LocalActor.key (Function.update_of_ne hne _ _)).symm.trans hkey

theorem loadEvents (h : Tracks key o ⟨n, db⟩ w) (ho : Orderly n) {p : Nat} {call : Call}
    {now : Int} {snapshot : Snapshot} {closeErr : Option String} (hkey : call.key = key)
    (hp : n.thread p = .serving call (.loadEvents now snapshot)) :
    Tracks key { o with actor := o.actor.assign n.started }
      (NodeRun.apply cfg ⟨n, db⟩ (.act (.loadEvents p call now snapshot closeErr)))
      (w.step cfg key (.loadEvents (o.call.of p) closeErr)) := by
  obtain ⟨hserves, c, hc, hsender, henv, hsnapshot⟩ := h.call_of_serving hp hkey
  -- the view rehydrates from the same rows, without the clock
  have hload := (newBusinessActor call.key.tenantID call.key.uid now).loadEvents_untimed snapshot
    ((db.wallet call.key).eventsAfter snapshot.lastVersion) closeErr
  rw [← WalletStore.eventsAfter_undated, hkey, ← h.store,
    ← show c.snapshot = snapshot from hsnapshot] at hload
  simp only [WalletView.step, hc, Option.elim_some, WalletView.callStep, NodeRun.apply,
    NodeState.apply, hkey]
  rw [← show c.snapshot = snapshot from hsnapshot]
  rw [show newBusinessActor key.tenantID key.uid 0 =
    (newBusinessActor key.tenantID key.uid now).untimed from rfl, hload]
  rcases (newBusinessActor key.tenantID key.uid now).loadEvents c.snapshot
    ⟨(db.wallet key).eventsAfter c.snapshot.lastVersion, closeErr⟩ with ⟨b, _ | err⟩
  · refine h.install ho hserves (fun c hc => ?_) b
    rw [hp] at hc
    exact ⟨hc.1, hc.2.1⟩
  · exact h.giveUp hserves hsender henv err

theorem route (h : Tracks key o ⟨n, db⟩ w) {p a : Nat} {call : Call} (hkey : call.key = key)
    (hp : n.thread p = .serving call (.route a)) :
    Tracks key o (NodeRun.apply cfg ⟨n, db⟩ (.act (.route p call a)))
      (w.step cfg key (.route (o.call.of p))) := by
  obtain ⟨hserves, c, hc, hsender, henv, _⟩ := h.call_of_serving hp hkey
  simp only [WalletView.step, hc, Option.elim_some, WalletView.callStep, hsender, henv]
  refine ⟨h.store, h.inFlight, h.routes_update (routeKey call.env) hkey _, h.put, h.calls,
    ?_, h.actors, h.actor, h.drains, h.drain⟩
  refine h.call_move p (.serving call (.send a)) fun _ => ⟨hserves, fun c hc => ?_⟩
  rw [hp] at hc
  exact ⟨hc.1, hc.2.1, trivial⟩

theorem unroute (h : Tracks key o ⟨n, db⟩ w) {p a : Nat} {call : Call} (hkey : call.key = key)
    (hp : n.thread p = .serving call (.unroute a)) :
    Tracks key o (NodeRun.apply cfg ⟨n, db⟩ (.act (.unroute p call a)))
      (w.step cfg key (.unroute (o.call.of p))) := by
  obtain ⟨hserves, c, hc, hsender, henv, _⟩ := h.call_of_serving hp hkey
  simp only [WalletView.step, hc, Option.elim_some, WalletView.callStep, henv]
  refine ⟨h.store, h.inFlight, h.routes_update (routeKey call.env) hkey none, h.put, h.calls,
    ?_, h.actors, h.actor, h.drains, h.drain⟩
  refine h.call_move p (.serving call (.forget a)) fun _ => ⟨hserves, fun c hc => ?_⟩
  rw [hp] at hc
  exact ⟨hc.1, hc.2.1, trivial⟩

theorem push (h : Tracks key o ⟨n, db⟩ w) {p : Nat} {sender : BatchSender}
    {rest : List RemoteEnvelope} {res : RemoteResult} (hkey : resultWallet res = key)
    (hp : n.thread p = .push sender rest res) :
    Tracks key o (NodeRun.apply cfg ⟨n, db⟩ (.act (.push p sender rest res)))
      (w.step cfg key (.refuse (o.call.of p))) := by
  have hserves : n.Serves key p := by rw [NodeState.Serves, hp, Thread.wallet, hkey]
  obtain ⟨c, hc, hshown⟩ := h.call.shows p hserves
  dsimp only at hshown
  rw [hp] at hshown
  obtain ⟨hsender, hrefusal⟩ := hshown
  simp only [WalletView.step, hc, Option.elim_some, WalletView.callStep, hsender, hrefusal,
    Option.map_some]
  exact ⟨h.store, h.inFlight, h.routes, h.put_append hkey, h.calls,
    h.call_update hserves (.next sender rest) _ trivial, h.actors, h.actor, h.drains, h.drain⟩

theorem spawn (h : Tracks key o ⟨n, db⟩ w) {p a : Nat} {call : Call} (hkey : call.key = key)
    (hp : n.thread p = .serving call (.spawn a)) :
    Tracks key { o with drain := o.drain.assign n.drains }
      (NodeRun.apply cfg ⟨n, db⟩ (.act (.spawn p call a))) (w.step cfg key .evict) where
  store := h.store
  inFlight := h.inFlight
  routes := h.routes
  put := h.put
  calls := h.calls
  call := by
    obtain ⟨hserves, _⟩ := h.call_of_serving hp hkey
    refine h.call_move p (.push call.sender call.rest (wrongNodeResult call.env)) fun _ =>
      ⟨hserves, fun c hc => ?_⟩
    rw [hp] at hc
    obtain ⟨hsender, henv, hrefusal⟩ := hc
    exact ⟨hsender, henv ▸ hrefusal⟩
  actors := h.actors
  actor := h.actor
  drains := congrArg (· + 1) h.drains
  drain := by
    have hassign := Roster.Mirror.assign (f := n.drain)
      (L := fun _ drain => ∃ b, drain.target = some b ∧ (n.actor b).key = key)
      (K := fun _ drain => ∃ b, drain.target = some b ∧ (n.actor b).key = key)
      (S := fun drain v => drain.Shown v) h.drain n.drains (.await a) (some ⟨none⟩)
      (fun _ => ⟨_, rfl, nofun⟩) (fun _ _ => id)
    rw [← h.drains] at hassign
    exact hassign

/-- The view of an actor of the wallet whose loop is running. -/
theorem actor_of_loop (h : Tracks key o ⟨n, db⟩ w) (ho : Orderly n) {a : Nat}
    (hkey : (n.actor a).key = key) (hloop : (n.actor a).loop ≠ .dead) :
    n.Refers key a ∧ ∃ v, w.actor (o.actor.of a) = some v ∧ (n.actor a).Shown v := by
  have hlt : a < n.started := Nat.lt_of_not_le fun hle => hloop (ho.unstarted a hle)
  exact ⟨⟨hlt, hkey⟩, h.actor.shows a ⟨hlt, hkey⟩⟩

theorem execute (h : Tracks key o ⟨n, db⟩ w) (ho : Orderly n) {a : Nat} {env : RemoteEnvelope}
    {now : Int} {outcome : WriteOutcome} (hkey : (n.actor a).key = key)
    (hloop : (n.actor a).loop = .execute env now) :
    Tracks key o (NodeRun.apply cfg ⟨n, db⟩ (.act (.execute a env now outcome)))
      (w.step cfg key (.handle (o.actor.of a) env outcome)) := by
  have henabled : n.enabled cfg (.execute a env now outcome) = true := by
    simp [NodeState.enabled, hloop]
  obtain ⟨hrefers, v, hv, hshown⟩ := h.actor_of_loop ho hkey (by rw [hloop]; simp)
  have hhandle := (n.actor a).state.handle_untimed (db.wallet key) env now outcome
  rw [← h.store, ← hshown.state] at hhandle
  simp only [WalletView.step, hv, Option.elim_some, WalletView.actorStep, hhandle]
  refine ⟨?_, ?_, h.routes, h.put, h.calls, h.call, h.actors, ?_, h.drains,
    h.drain_keep ho henabled rfl⟩
  · subst hkey
    have hwallet : (db.execute (n.actor a) env now outcome).wallet (n.actor a).key = _ :=
      Function.update_self _ _ _
    exact congrArg WalletStore.undated hwallet.symm
  · subst hkey
    have hlaunched : (db.execute (n.actor a) env now outcome).inFlight (n.actor a).key = _ :=
      Function.update_self _ _ _
    exact (congrArg _ h.inFlight).trans hlaunched.symm
  · refine Roster.Mirror.update (f := n.actor)
      (L := fun a actor => a < n.started ∧ actor.key = key) (S := fun actor v => actor.Shown v)
      h.actor hrefers _ _ ⟨?_, ?_, (by simp)⟩
    · subst hkey
      rfl
    · subst hkey
      intro res hres
      exact congrArg some (Loop.emit.inj hres)

theorem emit (h : Tracks key o ⟨n, db⟩ w) (ho : Orderly n) {a : Nat} {res : RemoteResult}
    (hkey : (n.actor a).key = key) (hloop : (n.actor a).loop = .emit res) :
    Tracks key o (NodeRun.apply cfg ⟨n, db⟩ (.act (.emit a res)))
      (w.step cfg key (.emit (o.actor.of a))) := by
  have henabled : n.enabled cfg (.emit a res) = true := by simp [NodeState.enabled, hloop]
  obtain ⟨hrefers, v, hv, hshown⟩ := h.actor_of_loop ho hkey (by rw [hloop]; simp)
  have hwallet : resultWallet res = key := (ho.results a res (by rw [hloop]; rfl)).trans hkey
  have hroute : w.routes res.requestId = n.replyRoutes (resultKey res) := by
    rw [h.routes, ← hwallet]
    rfl
  simp only [WalletView.step, hv, Option.elim_some, WalletView.actorStep, hshown.result res hloop]
  refine ⟨h.store, h.inFlight, h.routes_update (resultKey res) hwallet none, h.put, h.calls,
    h.call, h.actors, ?_, h.drains, h.drain_keep ho henabled rfl⟩
  refine Roster.Mirror.update (f := n.actor)
    (L := fun a actor => a < n.started ∧ actor.key = key) (S := fun actor v => actor.Shown v)
    h.actor hrefers _ _ ?_
  rw [hroute]
  cases n.replyRoutes (resultKey res) with
  | none => exact ⟨hshown.state, (by simp), (by simp)⟩
  | some reply =>
      refine ⟨hshown.state, (by simp), fun queued hqueued => ?_⟩
      exact congrArg some (Loop.push.inj hqueued)

theorem deliver (h : Tracks key o ⟨n, db⟩ w) (ho : Orderly n) {a : Nat} {queued : QueuedResult}
    (hkey : (n.actor a).key = key)
    (henabled : n.enabled cfg (.deliver a queued) = true) :
    Tracks key o (NodeRun.apply cfg ⟨n, db⟩ (.act (.deliver a queued)))
      (w.step cfg key (.deliver (o.actor.of a))) := by
  have hloop : (n.actor a).loop = .push queued ∧ n.hasRoom = true := by
    simpa [NodeState.enabled] using henabled
  obtain ⟨hrefers, v, hv, hshown⟩ := h.actor_of_loop ho hkey (by rw [hloop.1]; simp)
  have hwallet : resultWallet queued.res = key :=
    (ho.results a queued.res (by rw [hloop.1]; rfl)).trans hkey
  simp only [WalletView.step, hv, Option.elim_some, WalletView.actorStep,
    hshown.queued queued hloop.1]
  refine ⟨h.store, h.inFlight, h.routes, h.put_append hwallet, h.calls, h.call, h.actors, ?_,
    h.drains, h.drain_keep ho henabled rfl⟩
  exact Roster.Mirror.update (f := n.actor)
    (L := fun a actor => a < n.started ∧ actor.key = key) (S := fun actor v => actor.Shown v)
    h.actor hrefers _ _ ⟨hshown.state, (by simp), (by simp)⟩

theorem answer (h : Tracks key o ⟨n, db⟩ w) (ho : Orderly n) {d a : Nat} {env : RemoteEnvelope}
    {envs : List RemoteEnvelope} (hkey : (n.actor a).key = key)
    (hd : n.drain d = .answer a (env :: envs)) :
    Tracks key o (NodeRun.apply cfg ⟨n, db⟩ (.act (.answer d a env envs)))
      (w.step cfg key (.drained (o.drain.of d) env)) := by
  have hwallet : actorKey env = key :=
    (ho.drained d a env (by rw [hd]; rfl) (by rw [hd]; exact List.mem_cons_self)).trans hkey
  have hroute : w.routes env.requestId = n.replyRoutes (routeKey env) := by
    rw [h.routes, ← hwallet]
    rfl
  have hdrains : n.Drains key d := ⟨a, by rw [hd]; rfl, hkey⟩
  obtain ⟨v, hv, _⟩ := h.drain.shows d hdrains
  simp only [WalletView.step, hv, Option.elim_some, WalletView.drainStep]
  refine ⟨h.store, h.inFlight, h.routes_update (routeKey env) hwallet none, h.put, h.calls,
    h.call, h.actors, h.actor, h.drains, ?_⟩
  refine Roster.Mirror.update (f := n.drain)
    (L := fun _ drain => ∃ b, drain.target = some b ∧ (n.actor b).key = key)
    (S := fun drain v => drain.Shown v) h.drain hdrains _ _ ?_
  rw [hroute]
  cases n.replyRoutes (routeKey env) with
  | none => nofun
  | some reply =>
      intro b env' reply' envs' hpush
      cases hpush
      rfl

theorem drainPush (h : Tracks key o ⟨n, db⟩ w) (ho : Orderly n) {d a : Nat} {env : RemoteEnvelope}
    {reply : BatchSender} {envs : List RemoteEnvelope} (hkey : (n.actor a).key = key)
    (hd : n.drain d = .push a env reply envs) :
    Tracks key o (NodeRun.apply cfg ⟨n, db⟩ (.act (.drainPush d a env reply envs)))
      (w.step cfg key (.answer (o.drain.of d))) := by
  have hwallet : actorKey env = key :=
    (ho.drained d a env (by rw [hd]; rfl) (by rw [hd]; exact List.mem_cons_self)).trans hkey
  have hdrains : n.Drains key d := ⟨a, by rw [hd]; rfl, hkey⟩
  obtain ⟨v, hv, hshown⟩ := h.drain.shows d hdrains
  simp only [WalletView.step, hv, Option.elim_some, WalletView.drainStep,
    hshown a env reply envs hd, Option.map_some]
  refine ⟨h.store, h.inFlight, h.routes, h.put_append hwallet, h.calls, h.call, h.actors, h.actor,
    h.drains, ?_⟩
  exact Roster.Mirror.update (f := n.drain)
    (L := fun _ drain => ∃ b, drain.target = some b ∧ (n.actor b).key = key)
    (S := fun drain v => drain.Shown v) h.drain hdrains _ _ nofun

theorem land (h : Tracks key o ⟨n, db⟩ w) {snapshot : Snapshot}
    (hmem : snapshot ∈ db.inFlight key) :
    Tracks key o (NodeRun.apply cfg ⟨n, db⟩ (.land key snapshot))
      (w.step cfg key (.land ((db.inFlight key).idxOf snapshot))) := by
  refine ⟨?_, h.inFlight, h.routes, h.put, h.calls, h.call, h.actors, h.actor, h.drains, h.drain⟩
  have hlanded : (db.land key snapshot).wallet key = (db.wallet key).upsertSnapshot snapshot :=
    Function.update_self _ _ _
  simp only [WalletView.step, h.inFlight, List.getElem?_idxOf hmem, Option.elim_some, h.store]
  exact congrArg WalletStore.undated hlanded.symm

end Tracks

end ActorCluster.Node
