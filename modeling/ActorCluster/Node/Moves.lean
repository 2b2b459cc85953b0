import ActorCluster.Node.Step

/-! # What one step does to an actor, to a call and to a drain

Whatever goroutine takes a step, each actor makes one of a few moves, and the
move tells where the goroutine behind it stood. Facts about single actors are
proved from the moves; the steps are not inspected again. The same holds of the
`HandleBatch` calls and of the background drains.
-/

namespace ActorCluster.Node

open Remote Wallet Transition ActorCluster.Runtime

namespace NodeState

@[simp] theorem setThread_thread_self (n : NodeState) (p : Nat) (t : Thread) :
    (n.setThread p t).thread p = t :=
  Function.update_self _ _ _

theorem setThread_thread_of_ne (n : NodeState) {p r : Nat} (t : Thread) (h : r ≠ p) :
    (n.setThread p t).thread r = n.thread r :=
  Function.update_of_ne h _ _

@[simp] theorem setActor_actor_self (n : NodeState) (a : Nat) (actor : LocalActor) :
    (n.setActor a actor).actor a = actor :=
  Function.update_self _ _ _

theorem setActor_actor_of_ne (n : NodeState) {a b : Nat} (actor : LocalActor) (h : b ≠ a) :
    (n.setActor a actor).actor b = n.actor b :=
  Function.update_of_ne h _ _

@[simp] theorem setShard_shards_self (n : NodeState) (key : ActorKey) (entry : Option Nat) :
    (n.setShard key entry).shards key = entry :=
  Function.update_self _ _ _

theorem setShard_shards_of_ne (n : NodeState) {key key' : ActorKey} (entry : Option Nat)
    (h : key' ≠ key) : (n.setShard key entry).shards key' = n.shards key' :=
  Function.update_of_ne h _ _

end NodeState

/-- The ways in which an actor changes in one step of its node. -/
inductive ActorMove (n : NodeState) (db : Database) (action : Action) (a : Nat) : LocalActor → Prop
  | stay : ActorMove n db action a (n.actor a)
  | install (p : Nat) (call : Call) (now : Int) (snapshot : Snapshot) (closeErr : Option String)
      (b : BusinessActor) (hfresh : a = n.started)
      (haction : action = .loadEvents p call now snapshot closeErr)
      (hp : n.thread p = .serving call (.loadEvents now snapshot))
      (hload : (newBusinessActor call.key.tenantID call.key.uid now).loadEvents snapshot
        ⟨(db.wallet call.key).eventsAfter snapshot.lastVersion, closeErr⟩ = (b, none)) :
      ActorMove n db action a (.start call.key b)
  | stop : ActorMove n db action a (n.actor a).stop
  | signal : ActorMove n db action a (n.actor a).signal
  | swap (p : Nat) (call : Call) (haction : action = .swap p call a)
      (hp : n.thread p = .serving call (.swap a)) :
      ActorMove n db action a { n.actor a with mailbox := (n.actor a).mailbox.swap p call.env }
  | link (p : Nat) (call : Call) (hp : n.thread p = .serving call (.link a)) :
      ActorMove n db action a { n.actor a with mailbox := (n.actor a).mailbox.link p }
  | collect (d : Nat) (envs : List RemoteEnvelope) (env : RemoteEnvelope)
      (haction : action = .collect d a envs) (hfront : (n.actor a).mailbox.front = some env) :
      ActorMove n db action a { n.actor a with mailbox := (n.actor a).mailbox.pop }
  | dequeue (hloop : (n.actor a).loop = .dequeue) : ActorMove n db action a (n.actor a).dequeue
  | uncount (env : RemoteEnvelope) (hloop : (n.actor a).loop = .uncount env) :
      ActorMove n db action a { n.actor a with loop := .handle env }
  | handle (env : RemoteEnvelope) (now : Int) (hloop : (n.actor a).loop = .handle env) :
      ActorMove n db action a { n.actor a with
        state := { (n.actor a).state with lastActive := now }, loop := .execute env now }
  | execute (env : RemoteEnvelope) (now : Int) (outcome : WriteOutcome)
      (haction : action = .execute a env now outcome)
      (hloop : (n.actor a).loop = .execute env now) :
      ActorMove n db action a ((n.execute db a env now outcome).actor a)
  | emit (res : RemoteResult) (hloop : (n.actor a).loop = .emit res)
      (haction : action = .emit a res) :
      ActorMove n db action a { n.actor a with
        loop := (n.replyRoutes (resultKey res)).elim .dequeue fun reply => .push ⟨res, reply⟩ }
  | deliver (queued : QueuedResult) (hloop : (n.actor a).loop = .push queued) :
      ActorMove n db action a { n.actor a with loop := .dequeue }
  | checkStatus (hloop : (n.actor a).loop = .missed) :
      ActorMove n db action a { n.actor a with
        loop := if (n.actor a).mailbox.status = .stopping then .exit else .waiting }
  | wakeUp (hloop : (n.actor a).loop = .waiting) :
      ActorMove n db action a { n.actor a with
        mailbox := { (n.actor a).mailbox with wake := false }, loop := .dequeue }
  | exit (hloop : (n.actor a).loop = .exit) :
      ActorMove n db action a { n.actor a with
        mailbox := { (n.actor a).mailbox with status := .dead }, loop := .dead }

namespace NodeState

variable {cfg : Config} {n : NodeState} {db : Database} {action : Action}

theorem actorMove_setActor {b : Nat} {actor : LocalActor} (h : ActorMove n db action b actor)
    (a : Nat) : ActorMove n db action a ((n.setActor b actor).actor a) := by
  by_cases hab : a = b
  · subst hab
    rwa [setActor_actor_self]
  · rw [n.setActor_actor_of_ne actor hab]
    exact .stay

/-- Every step makes one move of every actor. -/
theorem actorMove_apply (henabled : n.enabled cfg action = true) (a : Nat) :
    ActorMove n db action a ((n.apply cfg db action).actor a) := by
  cases action with
  | loadSnapshot p call now closeErr =>
      simp only [apply]
      split <;> exact .stay
  | loadEvents p call now snapshot closeErr =>
      have hp : n.thread p = .serving call (.loadEvents now snapshot) := by
        simpa [enabled] using henabled
      simp only [apply]
      split
      next => exact .stay
      next b hload =>
        exact actorMove_setActor (.install p call now snapshot closeErr b rfl rfl hp hload) a
  | swap p call b =>
      have hp : n.thread p = .serving call (.swap b) := by simpa [enabled] using henabled
      exact actorMove_setActor (.swap p call rfl hp) a
  | link p call b =>
      have hp : n.thread p = .serving call (.link b) := by simpa [enabled] using henabled
      exact actorMove_setActor (.link p call hp) a
  | wake p call b | killSignal p call b | sweepSignal now b todo c | stopSignal b todo stopping c =>
      exact actorMove_setActor .signal a
  | close p call b | sweepClose now b todo c | stopScan b todo stopping c =>
      exact actorMove_setActor .stop a
  | collect d b envs =>
      refine actorMove_setActor (b := b) ?_ a
      cases hfront : (n.actor b).mailbox.front with
      | none => exact .stay
      | some env => exact .collect d envs env rfl hfront
  | dequeue b =>
      have hb : (n.actor b).loop = .dequeue := by simpa [enabled] using henabled
      exact actorMove_setActor (.dequeue hb) a
  | uncount b env =>
      have hb : (n.actor b).loop = .uncount env := by simpa [enabled] using henabled
      exact actorMove_setActor (.uncount env hb) a
  | handle b env now =>
      have hb : (n.actor b).loop = .handle env := by simpa [enabled] using henabled
      exact actorMove_setActor (.handle env now hb) a
  | execute b env now outcome =>
      have hb : (n.actor b).loop = .execute env now := by simpa [enabled] using henabled
      by_cases hab : a = b
      · subst hab
        exact .execute env now outcome rfl hb
      · exact (n.setActor_actor_of_ne _ hab).symm ▸ .stay
  | emit b res =>
      have hb : (n.actor b).loop = .emit res := by simpa [enabled] using henabled
      exact actorMove_setActor (.emit res hb rfl) a
  | deliver b queued =>
      have hb : (n.actor b).loop = .push queued ∧ n.hasRoom = true := by
        simpa [enabled] using henabled
      exact actorMove_setActor (.deliver queued hb.1) a
  | checkStatus b =>
      have hb : (n.actor b).loop = .missed := by simpa [enabled] using henabled
      exact actorMove_setActor (.checkStatus hb) a
  | wakeUp b =>
      have hb : (n.actor b).loop = .waiting ∧ (n.actor b).mailbox.wake = true := by
        simpa [enabled] using henabled
      exact actorMove_setActor (.wakeUp hb.1) a
  | exit b =>
      have hb : (n.actor b).loop = .exit := by simpa [enabled] using henabled
      exact actorMove_setActor (.exit hb) a
  | arrive | gate | reject | next | push | finish | owner | lookup | create | route | send | count
  | unroute | forget | kill | spawn | await | drainUncount | answer | drainPush | drainEnd | sweep
  | sweepLock | sweepScan | sweepUnlock | sweepRest | sweepReturn | stop | stopLock | stopUnlock
  | stopAwait | stopNext | closeDone | stopReturn | receive | tick | takeDone | flush | respond
  | flushEnd => exact .stay

end NodeState

/-- The ways in which a call goes on with its envelope. -/
inductive ServingMove (n : NodeState) (db : Database) (action : Action) (p : Nat) (call : Call) :
    Serving → Serving → Prop
  | own : ServingMove n db action p call .owner .lookup
  | disown (answer : Option (Except String String)) (haction : action = .owner p call answer) :
      ServingMove n db action p call .owner .kill
  | found (a : Nat) (hentry : n.shards call.key = some a) :
      ServingMove n db action p call .lookup (.route a)
  | missing : ServingMove n db action p call .lookup .create
  | present (a : Nat) (hentry : n.shards call.key = some a) :
      ServingMove n db action p call .create (.route a)
  | create (now : Int) (haction : action = .create p call now) (hentry : n.shards call.key = none) :
      ServingMove n db action p call .create (.loadSnapshot now)
  | loaded (now : Int) (snapshot : Snapshot) (closeErr : Option String)
      (haction : action = .loadSnapshot p call now closeErr)
      (hload : BusinessActor.loadSnapshot ⟨(db.wallet call.key).snapshot.toList, closeErr⟩ =
        .ok snapshot) :
      ServingMove n db action p call (.loadSnapshot now) (.loadEvents now snapshot)
  | install (now : Int) (snapshot : Snapshot) (closeErr : Option String)
      (haction : action = .loadEvents p call now snapshot closeErr) (b : BusinessActor)
      (hload : (newBusinessActor call.key.tenantID call.key.uid now).loadEvents snapshot
        ⟨(db.wallet call.key).eventsAfter snapshot.lastVersion, closeErr⟩ = (b, none)) :
      ServingMove n db action p call (.loadEvents now snapshot) (.route n.started)
  | route (a : Nat) (haction : action = .route p call a) :
      ServingMove n db action p call (.route a) (.send a)
  | accept (a : Nat) (haccepts : (n.actor a).mailbox.status.accepts = true) :
      ServingMove n db action p call (.send a) (.count a)
  | turnAway (a : Nat) : ServingMove n db action p call (.send a) (.unroute a)
  | count (a : Nat) : ServingMove n db action p call (.count a) (.swap a)
  | swap (a : Nat) : ServingMove n db action p call (.swap a) (.link a)
  | link (a : Nat) : ServingMove n db action p call (.link a) (.wake a)
  | unroute (a : Nat) : ServingMove n db action p call (.unroute a) (.forget a)
  | forget (a : Nat) : ServingMove n db action p call (.forget a) .lookup
  | kill (a : Nat) (haction : action = .kill p call) (hentry : n.shards call.key = some a) :
      ServingMove n db action p call .kill (.close a)
  | close (a : Nat) : ServingMove n db action p call (.close a) (.killSignal a)
  | closed (a : Nat) : ServingMove n db action p call (.close a) (.spawn a)
  | signal (a : Nat) : ServingMove n db action p call (.killSignal a) (.spawn a)

/-- The ways in which a call changes in one step of its node. -/
inductive ThreadMove (n : NodeState) (db : Database) (action : Action) (p : Nat) : Thread → Prop
  | stay : ThreadMove n db action p (n.thread p)
  | arrive (sender : BatchSender) (batch : List RemoteEnvelope)
      (haction : action = .arrive p sender batch) (hp : n.thread p = .idle) :
      ThreadMove n db action p (.gate sender batch)
  | overload (sender : BatchSender) (batch : List RemoteEnvelope)
      (hp : n.thread p = .gate sender batch) (haction : action = .gate p sender batch) :
      ThreadMove n db action p (.reject sender batch)
  | accept (sender : BatchSender) (batch : List RemoteEnvelope)
      (hp : n.thread p = .gate sender batch) : ThreadMove n db action p (.next sender batch)
  | reject (sender : BatchSender) (env : RemoteEnvelope) (rest : List RemoteEnvelope)
      (hp : n.thread p = .reject sender (env :: rest)) :
      ThreadMove n db action p (.reject sender rest)
  | serve (sender : BatchSender) (env : RemoteEnvelope) (rest : List RemoteEnvelope)
      (hp : n.thread p = .next sender (env :: rest)) (haction : action = .next p sender env rest) :
      ThreadMove n db action p (.serving ⟨sender, env, rest⟩ .owner)
  | refuse (sender : BatchSender) (env : RemoteEnvelope) (rest : List RemoteEnvelope)
      (hp : n.thread p = .next sender (env :: rest)) (haction : action = .next p sender env rest) :
      ThreadMove n db action p (.push sender rest (badRequestResult env))
  | push (sender : BatchSender) (rest : List RemoteEnvelope) (res : RemoteResult)
      (hp : n.thread p = .push sender rest res) : ThreadMove n db action p (.next sender rest)
  | finish (sender : BatchSender)
      (hp : n.thread p = .reject sender [] ∨ n.thread p = .next sender []) :
      ThreadMove n db action p .idle
  | go (call : Call) (pc pc' : Serving) (hp : n.thread p = .serving call pc)
      (hmove : ServingMove n db action p call pc pc') :
      ThreadMove n db action p (.serving call pc')
  | noSnapshot (call : Call) (now : Int) (err : RehydrateError)
      (hp : n.thread p = .serving call (.loadSnapshot now)) (closeErr : Option String)
      (haction : action = .loadSnapshot p call now closeErr)
      (hload : BusinessActor.loadSnapshot ⟨(db.wallet call.key).snapshot.toList, closeErr⟩ =
        .error err) :
      ThreadMove n db action p
        (.push call.sender call.rest (rehydrationFailedResult call.env err))
  | noEvents (call : Call) (now : Int) (snapshot : Snapshot) (err : RehydrateError)
      (hp : n.thread p = .serving call (.loadEvents now snapshot)) (closeErr : Option String)
      (haction : action = .loadEvents p call now snapshot closeErr)
      (hload : ((newBusinessActor call.key.tenantID call.key.uid now).loadEvents snapshot
        ⟨(db.wallet call.key).eventsAfter snapshot.lastVersion, closeErr⟩).2 = some err) :
      ThreadMove n db action p
        (.push call.sender call.rest (rehydrationFailedResult call.env err))
  | nobody (call : Call) (hp : n.thread p = .serving call .kill) :
      ThreadMove n db action p (.push call.sender call.rest (wrongNodeResult call.env))
  | spawn (call : Call) (a : Nat) (haction : action = .spawn p call a)
      (hp : n.thread p = .serving call (.spawn a)) :
      ThreadMove n db action p (.push call.sender call.rest (wrongNodeResult call.env))
  | wake (call : Call) (a : Nat) (hp : n.thread p = .serving call (.wake a)) :
      ThreadMove n db action p (.next call.sender call.rest)

namespace NodeState

variable {cfg : Config} {n : NodeState} {db : Database} {action : Action}

theorem threadMove_setThread {p : Nat} {t : Thread} (h : ThreadMove n db action p t) (r : Nat) :
    ThreadMove n db action r (Function.update n.thread p t r) := by
  by_cases hr : r = p
  · subst hr
    rwa [Function.update_self]
  · rw [Function.update_of_ne hr]
    exact .stay

/-- Every step makes one move of every call. -/
theorem threadMove_apply (henabled : n.enabled cfg action = true) (r : Nat) :
    ThreadMove n db action r ((n.apply cfg db action).thread r) := by
  have hgo {p : Nat} {call : Call} {pc pc' : Serving} (hp : n.thread p = .serving call pc)
      (hmove : ServingMove n db action p call pc pc') :
      ThreadMove n db action r (Function.update n.thread p (.serving call pc') r) :=
    threadMove_setThread (.go call pc pc' hp hmove) r
  cases action with
  | arrive p sender batch =>
      have hp : n.thread p = .idle := by simpa [enabled] using henabled
      exact threadMove_setThread (.arrive sender batch rfl hp) r
  | gate p sender batch =>
      have hp : n.thread p = .gate sender batch := by simpa [enabled] using henabled
      refine threadMove_setThread (p := p) ?_ r
      split
      · exact .overload sender batch hp rfl
      · exact .accept sender batch hp
  | reject p sender env rest =>
      have hp : n.thread p = .reject sender (env :: rest) ∧ n.hasRoom = true := by
        simpa [enabled] using henabled
      exact threadMove_setThread (.reject sender env rest hp.1) r
  | next p sender env rest =>
      have hp : n.thread p = .next sender (env :: rest) := by simpa [enabled] using henabled
      refine threadMove_setThread (p := p) ?_ r
      split
      · exact .serve sender env rest hp rfl
      · exact .refuse sender env rest hp rfl
  | push p sender rest res =>
      have hp : n.thread p = .push sender rest res ∧ n.hasRoom = true := by
        simpa [enabled] using henabled
      exact threadMove_setThread (.push sender rest res hp.1) r
  | finish p sender =>
      have hp : n.thread p = .reject sender [] ∨ n.thread p = .next sender [] := by
        simpa [enabled] using henabled
      exact threadMove_setThread (.finish sender hp) r
  | owner p call answer =>
      have hp : n.thread p = .serving call .owner ∧ answer.isSome = cfg.resolver := by
        simpa [enabled] using henabled
      refine hgo hp.1 ?_
      split
      · exact .own
      · exact .disown answer rfl
  | lookup p call =>
      have hp : n.thread p = .serving call .lookup ∧ n.unlocked call.key = true := by
        simpa [enabled] using henabled
      refine hgo hp.1 ?_
      cases hentry : n.shards call.key with
      | none => exact .missing
      | some a => exact .found a hentry
  | create p call now =>
      have hp : n.thread p = .serving call .create ∧ n.unlocked call.key = true := by
        simpa [enabled] using henabled
      refine hgo hp.1 ?_
      cases hentry : n.shards call.key with
      | none => exact .create now rfl hentry
      | some a => exact .present a hentry
  | loadSnapshot p call now closeErr =>
      have hp : n.thread p = .serving call (.loadSnapshot now) := by
        simpa [enabled] using henabled
      simp only [apply]
      split
      next err hload =>
        exact threadMove_setThread (.noSnapshot call now err hp closeErr rfl hload) r
      next snapshot hload => exact hgo hp (.loaded now snapshot closeErr rfl hload)
  | loadEvents p call now snapshot closeErr =>
      have hp : n.thread p = .serving call (.loadEvents now snapshot) := by
        simpa [enabled] using henabled
      simp only [apply]
      split
      next err hload =>
        exact threadMove_setThread
          (.noEvents call now snapshot err hp closeErr rfl (congrArg Prod.snd hload)) r
      next b hload => exact hgo hp (.install now snapshot closeErr rfl b hload)
  | route p call a =>
      have hp : n.thread p = .serving call (.route a) := by simpa [enabled] using henabled
      exact hgo hp (.route a rfl)
  | send p call a =>
      have hp : n.thread p = .serving call (.send a) := by simpa [enabled] using henabled
      refine hgo hp ?_
      split
      next haccepts => exact .accept a haccepts
      next => exact .turnAway a
  | count p call a =>
      have hp : n.thread p = .serving call (.count a) := by simpa [enabled] using henabled
      exact hgo hp (.count a)
  | swap p call a =>
      have hp : n.thread p = .serving call (.swap a) := by simpa [enabled] using henabled
      exact hgo hp (.swap a)
  | link p call a =>
      have hp : n.thread p = .serving call (.link a) := by simpa [enabled] using henabled
      exact hgo hp (.link a)
  | wake p call a =>
      have hp : n.thread p = .serving call (.wake a) := by simpa [enabled] using henabled
      exact threadMove_setThread (.wake call a hp) r
  | unroute p call a =>
      have hp : n.thread p = .serving call (.unroute a) := by simpa [enabled] using henabled
      exact hgo hp (.unroute a)
  | forget p call a =>
      have hp : n.thread p = .serving call (.forget a) ∧ n.unlocked call.key = true := by
        simpa [enabled] using henabled
      exact hgo hp.1 (.forget a)
  | kill p call =>
      have hp : n.thread p = .serving call .kill ∧ n.unlocked call.key = true := by
        simpa [enabled] using henabled
      refine threadMove_setThread (p := p) ?_ r
      cases hentry : n.shards call.key with
      | none => exact .nobody call hp.1
      | some a => exact .go call _ _ hp.1 (.kill a rfl hentry)
  | close p call a =>
      have hp : n.thread p = .serving call (.close a) := by simpa [enabled] using henabled
      refine hgo hp ?_
      split
      · exact .close a
      · exact .closed a
  | killSignal p call a =>
      have hp : n.thread p = .serving call (.killSignal a) := by simpa [enabled] using henabled
      exact hgo hp (.signal a)
  | spawn p call a =>
      have hp : n.thread p = .serving call (.spawn a) := by simpa [enabled] using henabled
      exact threadMove_setThread (.spawn call a rfl hp) r
  | _ => exact .stay

end NodeState

/-- The ways in which a drain changes in one step of its node. -/
inductive DrainMove (n : NodeState) (action : Action) (d : Nat) : Drain → Prop
  | stay : DrainMove n action d (n.drain d)
  | spawn (p : Nat) (call : Call) (a : Nat) (haction : action = .spawn p call a)
      (hp : n.thread p = .serving call (.spawn a)) (hfresh : d = n.drains) :
      DrainMove n action d (.await a)
  | await (a : Nat) (hd : n.drain d = .await a) : DrainMove n action d (.collect a [])
  | collect (a : Nat) (envs : List RemoteEnvelope) (env : RemoteEnvelope)
      (haction : action = .collect d a envs) (hd : n.drain d = .collect a envs)
      (hfront : (n.actor a).mailbox.front = some env) :
      DrainMove n action d (.uncount a (envs ++ [env]))
  | collected (a : Nat) (envs : List RemoteEnvelope) (hd : n.drain d = .collect a envs)
      (hfront : (n.actor a).mailbox.front = none) : DrainMove n action d (.answer a envs)
  | uncount (a : Nat) (envs : List RemoteEnvelope) (hd : n.drain d = .uncount a envs) :
      DrainMove n action d (.collect a envs)
  | answer (a : Nat) (env : RemoteEnvelope) (envs : List RemoteEnvelope)
      (hd : n.drain d = .answer a (env :: envs)) (haction : action = .answer d a env envs) :
      DrainMove n action d ((n.replyRoutes (routeKey env)).elim (.answer a envs) fun reply =>
        .push a env reply envs)
  | push (a : Nat) (env : RemoteEnvelope) (reply : BatchSender) (envs : List RemoteEnvelope)
      (haction : action = .drainPush d a env reply envs)
      (hd : n.drain d = .push a env reply envs) : DrainMove n action d (.answer a envs)
  | finish (a : Nat) (hd : n.drain d = .answer a []) : DrainMove n action d (.finished a)

namespace NodeState

variable {cfg : Config} {n : NodeState} {db : Database} {action : Action}

theorem drainMove_setDrain {d : Nat} {drain : Drain} (h : DrainMove n action d drain) (e : Nat) :
    DrainMove n action e (Function.update n.drain d drain e) := by
  by_cases hed : e = d
  · subst hed
    rwa [Function.update_self]
  · rw [Function.update_of_ne hed]
    exact .stay

/-- Every step makes one move of every drain. -/
theorem drainMove_apply (henabled : n.enabled cfg action = true) (e : Nat) :
    DrainMove n action e ((n.apply cfg db action).drain e) := by
  cases action with
  | loadSnapshot | loadEvents =>
      simp only [apply]
      split <;> exact .stay
  | spawn p call a =>
      have hp : n.thread p = .serving call (.spawn a) := by simpa [enabled] using henabled
      exact drainMove_setDrain (.spawn p call a rfl hp rfl) e
  | await d a =>
      have hd : n.drain d = .await a ∧ (n.actor a).Dead := by simpa [enabled] using henabled
      exact drainMove_setDrain (.await a hd.1) e
  | collect d a envs =>
      have hd : n.drain d = .collect a envs := by simpa [enabled] using henabled
      refine drainMove_setDrain (d := d) ?_ e
      cases hfront : (n.actor a).mailbox.front with
      | none => exact .collected a envs hd hfront
      | some env => exact .collect a envs env rfl hd hfront
  | drainUncount d a envs =>
      have hd : n.drain d = .uncount a envs := by simpa [enabled] using henabled
      exact drainMove_setDrain (.uncount a envs hd) e
  | answer d a env envs =>
      have hd : n.drain d = .answer a (env :: envs) := by simpa [enabled] using henabled
      exact drainMove_setDrain (.answer a env envs hd rfl) e
  | drainPush d a env reply envs =>
      have hd : n.drain d = .push a env reply envs ∧ n.hasRoom = true := by
        simpa [enabled] using henabled
      exact drainMove_setDrain (.push a env reply envs rfl hd.1) e
  | drainEnd d a =>
      have hd : n.drain d = .answer a [] := by simpa [enabled] using henabled
      exact drainMove_setDrain (.finish a hd) e
  | _ => exact .stay

end NodeState

end ActorCluster.Node
