import ActorCluster.Foundation.Transition
import ActorCluster.Node.State
import Mathlib.Data.List.Dedup

/-! # The steps of a node

Each action is one atomic step of one goroutine, with that goroutine's local
variables as its operands. What comes from outside is an operand as well: the
clock, the answers of the resolver, the errors of the store, and the order in
which a map is visited. Atomic operations are sequentially consistent.
-/

namespace ActorCluster.Node

open Remote Wallet Transition ActorCluster.Runtime

def resultChCap : Nat := 10000

def maxBatchSize : Nat := 1000

/-- 24 hours in nanoseconds. -/
def idleThreshold : Int := 86400000000000

def shardCount : Nat := 256

/-- The slices of at most `maxBatchSize` results that are sent one by one. -/
def slices (ress : List RemoteResult) : List (List RemoteResult) :=
  (List.range ((ress.length + (maxBatchSize - 1)) / maxBatchSize)).map fun j =>
    (ress.drop (j * maxBatchSize)).take maxBatchSize

/-- The results of a batch for one stream. -/
def resultsFor (batch : List QueuedResult) (reply : BatchSender) : List RemoteResult :=
  (batch.filter fun queued => queued.reply = reply).map QueuedResult.res

/-- The responses that a flush sends, with the streams in the given order. -/
def responses (batch : List QueuedResult) (order : List BatchSender) :
    List (BatchSender × List RemoteResult) :=
  order.flatMap fun reply => (slices (resultsFor batch reply)).map fun ress => (reply, ress)

/-- What `dequeue` does: take the oldest linked message, or miss. -/
def LocalActor.dequeue (actor : LocalActor) : LocalActor :=
  match actor.mailbox.front with
  | some env => { actor with mailbox := actor.mailbox.pop, loop := .uncount env }
  | none => { actor with loop := .missed }

inductive Action where
  -- `HandleBatch`
  | arrive (p : Nat) (sender : BatchSender) (batch : List RemoteEnvelope)
  | gate (p : Nat) (sender : BatchSender) (batch : List RemoteEnvelope)
  | reject (p : Nat) (sender : BatchSender) (env : RemoteEnvelope) (rest : List RemoteEnvelope)
  | next (p : Nat) (sender : BatchSender) (env : RemoteEnvelope) (rest : List RemoteEnvelope)
  | push (p : Nat) (sender : BatchSender) (rest : List RemoteEnvelope) (res : RemoteResult)
  | finish (p : Nat) (sender : BatchSender)
  | owner (p : Nat) (call : Call) (answer : Option (Except String String))
  | lookup (p : Nat) (call : Call)
  | create (p : Nat) (call : Call) (now : Int)
  | loadSnapshot (p : Nat) (call : Call) (now : Int) (closeErr : Option String)
  | loadEvents (p : Nat) (call : Call) (now : Int) (snapshot : Snapshot)
      (closeErr : Option String)
  | route (p : Nat) (call : Call) (a : Nat)
  | send (p : Nat) (call : Call) (a : Nat)
  | count (p : Nat) (call : Call) (a : Nat)
  | swap (p : Nat) (call : Call) (a : Nat)
  | link (p : Nat) (call : Call) (a : Nat)
  | wake (p : Nat) (call : Call) (a : Nat)
  | unroute (p : Nat) (call : Call) (a : Nat)
  | forget (p : Nat) (call : Call) (a : Nat)
  -- `forceKillLocalActor`
  | kill (p : Nat) (call : Call)
  | close (p : Nat) (call : Call) (a : Nat)
  | killSignal (p : Nat) (call : Call) (a : Nat)
  | spawn (p : Nat) (call : Call) (a : Nat)
  | await (d a : Nat)
  | collect (d a : Nat) (envs : List RemoteEnvelope)
  | drainUncount (d a : Nat) (envs : List RemoteEnvelope)
  | answer (d a : Nat) (env : RemoteEnvelope) (envs : List RemoteEnvelope)
  | drainPush (d a : Nat) (env : RemoteEnvelope) (reply : BatchSender)
      (envs : List RemoteEnvelope)
  | drainEnd (d a : Nat)
  -- the loop of an actor
  | dequeue (a : Nat)
  | uncount (a : Nat) (env : RemoteEnvelope)
  | handle (a : Nat) (env : RemoteEnvelope) (now : Int)
  | execute (a : Nat) (env : RemoteEnvelope) (now : Int) (outcome : WriteOutcome)
  | emit (a : Nat) (res : RemoteResult)
  | deliver (a : Nat) (queued : QueuedResult)
  | checkStatus (a : Nat)
  | wakeUp (a : Nat)
  | exit (a : Nat)
  -- `passivationLoop`
  | sweep (now : Int)
  | sweepLock (now : Int) (i : Nat)
  | sweepScan (now : Int) (i : Nat) (todo : List Nat) (a : Nat)
  | sweepClose (now : Int) (i : Nat) (todo : List Nat) (a : Nat)
  | sweepSignal (now : Int) (i : Nat) (todo : List Nat) (a : Nat)
  | sweepUnlock (now : Int) (i : Nat)
  | sweepRest (now : Int)
  | sweepReturn
  -- `Stop`
  | stop
  | stopLock (i : Nat) (stopping : List Nat)
  | stopScan (i : Nat) (todo stopping : List Nat) (a : Nat)
  | stopSignal (i : Nat) (todo stopping : List Nat) (a : Nat)
  | stopUnlock (i : Nat) (stopping : List Nat)
  | stopAwait (stopping : List Nat)
  | stopNext (a : Nat) (stopping : List Nat)
  | closeDone
  | stopReturn
  -- `aggregatorLoop`
  | receive (queued : QueuedResult) (rest : List QueuedResult)
  | tick
  | takeDone
  | flush (last : Bool) (order : List BatchSender)
  | respond (response : BatchSender × List RemoteResult)
      (rest : List (BatchSender × List RemoteResult)) (last : Bool)
  | flushEnd (last : Bool)

namespace NodeState

def setThread (n : NodeState) (p : Nat) (t : Thread) : NodeState :=
  { n with thread := Function.update n.thread p t }

def setActor (n : NodeState) (a : Nat) (actor : LocalActor) : NodeState :=
  { n with actor := Function.update n.actor a actor }

def setLoop (n : NodeState) (a : Nat) (loop : Loop) : NodeState :=
  n.setActor a { n.actor a with loop := loop }

def setDrain (n : NodeState) (d : Nat) (drain : Drain) : NodeState :=
  { n with drain := Function.update n.drain d drain }

def setShard (n : NodeState) (key : ActorKey) (entry : Option Nat) : NodeState :=
  { n with shards := Function.update n.shards key entry }

def setLock (n : NodeState) (i : UInt64) (holder : Option Holder) : NodeState :=
  { n with lock := Function.update n.lock i holder }

def setRoute (n : NodeState) (rk : ResultRouteKey) (reply : Option BatchSender) : NodeState :=
  { n with replyRoutes := Function.update n.replyRoutes rk reply }

/-- `processMailboxPending.Add(1)` -/
def addPending (n : NodeState) : NodeState :=
  { n with mailboxPending := n.mailboxPending + 1 }

/-- `processMailboxPending.Add(^uint64(0))` -/
def subPending (n : NodeState) : NodeState :=
  { n with mailboxPending := n.mailboxPending - 1 }

/-- `resultCh <- queued`, once there is room. -/
def enqueue (n : NodeState) (queued : QueuedResult) : NodeState :=
  { n with resultCh := n.resultCh ++ [queued], put := n.put ++ [queued] }

/-- The result is made where it is enqueued. -/
def enqueueResult (n : NodeState) (reply : BatchSender) (res : RemoteResult) : NodeState :=
  { n.enqueue ⟨res, reply⟩ with produced := n.produced ++ [res] }

def hasRoom (n : NodeState) : Bool := n.resultCh.length < resultChCap

/-- Nobody holds the lock of the key's shard. -/
def unlocked (n : NodeState) (key : ActorKey) : Bool := n.lock key.shardIndex = none

/-- The actors in one shard map. -/
def shardActors (n : NodeState) (i : Nat) : List Nat :=
  (List.range n.started).filter fun a =>
    n.shards (n.actor a).key = some a && (n.actor a).key.shardIndex = UInt64.ofNat i

/-- The goroutine that takes the step stands where the step begins, and what it
waits for has happened. -/
def enabled (cfg : Config) (n : NodeState) : Action → Bool
  | .arrive p _ _ => n.thread p = .idle
  | .gate p sender batch => n.thread p = .gate sender batch
  | .reject p sender env rest => n.thread p = .reject sender (env :: rest) && n.hasRoom
  | .next p sender env rest => n.thread p = .next sender (env :: rest)
  | .push p sender rest res => n.thread p = .push sender rest res && n.hasRoom
  | .finish p sender => n.thread p = .reject sender [] || n.thread p = .next sender []
  | .owner p call answer => n.thread p = .serving call .owner && answer.isSome = cfg.resolver
  | .lookup p call => n.thread p = .serving call .lookup && n.unlocked call.key
  | .create p call _ => n.thread p = .serving call .create && n.unlocked call.key
  | .loadSnapshot p call now _ => n.thread p = .serving call (.loadSnapshot now)
  | .loadEvents p call now snapshot _ => n.thread p = .serving call (.loadEvents now snapshot)
  | .route p call a => n.thread p = .serving call (.route a)
  | .send p call a => n.thread p = .serving call (.send a)
  | .count p call a => n.thread p = .serving call (.count a)
  | .swap p call a => n.thread p = .serving call (.swap a)
  | .link p call a => n.thread p = .serving call (.link a)
  | .wake p call a => n.thread p = .serving call (.wake a)
  | .unroute p call a => n.thread p = .serving call (.unroute a)
  | .forget p call a => n.thread p = .serving call (.forget a) && n.unlocked call.key
  | .kill p call => n.thread p = .serving call .kill && n.unlocked call.key
  | .close p call a => n.thread p = .serving call (.close a)
  | .killSignal p call a => n.thread p = .serving call (.killSignal a)
  | .spawn p call a => n.thread p = .serving call (.spawn a)
  | .await d a => n.drain d = .await a && decide (n.actor a).Dead
  | .collect d a envs => n.drain d = .collect a envs
  | .drainUncount d a envs => n.drain d = .uncount a envs
  | .answer d a env envs => n.drain d = .answer a (env :: envs)
  | .drainPush d a env reply envs => n.drain d = .push a env reply envs && n.hasRoom
  | .drainEnd d a => n.drain d = .answer a []
  | .dequeue a => (n.actor a).loop = .dequeue
  | .uncount a env => (n.actor a).loop = .uncount env
  | .handle a env _ => (n.actor a).loop = .handle env
  | .execute a env now _ => (n.actor a).loop = .execute env now
  | .emit a res => (n.actor a).loop = .emit res
  | .deliver a queued => (n.actor a).loop = .push queued && n.hasRoom
  | .checkStatus a => (n.actor a).loop = .missed
  | .wakeUp a => (n.actor a).loop = .waiting && (n.actor a).mailbox.wake
  | .exit a => (n.actor a).loop = .exit
  | .sweep _ => n.sweeper = .resting
  | .sweepLock now i =>
      n.sweeper = .lock now i && decide (i < shardCount) && n.lock (UInt64.ofNat i) = none
  | .sweepScan now i todo a => n.sweeper = .scan now i todo && decide (a ∈ todo)
  | .sweepClose now i todo a => n.sweeper = .close now i todo a
  | .sweepSignal now i todo a => n.sweeper = .signal now i todo a
  | .sweepUnlock now i => n.sweeper = .scan now i []
  | .sweepRest now => n.sweeper = .lock now shardCount
  | .sweepReturn => n.sweeper = .resting && n.done
  | .stop => n.stopper = .uncalled
  | .stopLock i stopping =>
      n.stopper = .lock i stopping && decide (i < shardCount) && n.lock (UInt64.ofNat i) = none
  | .stopScan i todo stopping a => n.stopper = .scan i todo stopping && decide (a ∈ todo)
  | .stopSignal i todo stopping a => n.stopper = .signal i todo stopping a
  | .stopUnlock i stopping => n.stopper = .scan i [] stopping
  | .stopAwait stopping => n.stopper = .lock shardCount stopping
  | .stopNext a stopping => n.stopper = .await (a :: stopping) && decide (n.actor a).Dead
  | .closeDone => n.stopper = .await []
  | .stopReturn => n.stopper = .join && n.aggregator = .returned && n.sweeper = .returned
  | .receive queued rest => n.aggregator = .select && n.resultCh = queued :: rest
  | .tick => n.aggregator = .select
  | .takeDone => n.aggregator = .select && n.done
  | .flush last order =>
      n.aggregator = .flush last && decide (order.Perm (n.batch.map QueuedResult.reply).dedup)
  | .respond response rest last => n.aggregator = .send (response :: rest) last
  | .flushEnd last => n.aggregator = .send [] last

/-- A failed rehydration: unlock, and refuse the envelope. -/
def giveUp (n : NodeState) (p : Nat) (call : Call) (err : RehydrateError) : NodeState :=
  (n.setLock call.key.shardIndex none).setThread p
    (.push call.sender call.rest (rehydrationFailedResult call.env err))

/-- A rehydrated actor is put into the map and started before the unlock. -/
def install (n : NodeState) (p : Nat) (call : Call) (b : BusinessActor) : NodeState :=
  { ((n.setShard call.key (some n.started)).setLock call.key.shardIndex none).setActor n.started
      (.start call.key b) with started := n.started + 1 }.setThread p
    (.serving call (.route n.started))

/-- Execute one envelope and record what came of it. -/
def execute (n : NodeState) (db : Database) (a : Nat) (env : RemoteEnvelope) (now : Int)
    (outcome : WriteOutcome) : NodeState :=
  let actor := n.actor a
  let h := actor.state.handle (db.wallet actor.key) env now outcome
  let res := completeResult h.result env
  { n.setActor a { actor with
      loop := .emit res
      state := h.actor
      executed := actor.executed ++ [env]
      written := actor.written ++
        if actor.state.Admits env ∧ outcome.takesEffect then [actor.state.eventRow env now]
        else [] } with
    produced := n.produced ++ [res] }

def apply (cfg : Config) (n : NodeState) (db : Database) : Action → NodeState
  | .arrive p sender batch =>
      { n with arrived := n.arrived ++ batch.map fun env => (env, sender) }.setThread p
        (.gate sender batch)
  | .gate p sender batch =>
      n.setThread p (if cfg.limit ≤ n.mailboxPending then .reject sender batch
        else .next sender batch)
  | .reject p sender env rest =>
      (n.enqueueResult sender (overloadedResult env)).setThread p (.reject sender rest)
  | .next p sender env rest =>
      n.setThread p (if wellFormed env then .serving ⟨sender, env, rest⟩ .owner
        else .push sender rest (badRequestResult env))
  | .push p sender rest res => (n.enqueueResult sender res).setThread p (.next sender rest)
  | .finish p _ => n.setThread p .idle
  | .owner p call answer =>
      n.setThread p (.serving call (if cfg.owns answer then .lookup else .kill))
  | .lookup p call =>
      n.setThread p (.serving call ((n.shards call.key).elim .create .route))
  | .create p call now =>
      -- the lock is kept only if the actor has to be made
      (n.setLock call.key.shardIndex
          ((n.shards call.key).elim (some (.thread p)) fun _ => none)).setThread p
        (.serving call ((n.shards call.key).elim (.loadSnapshot now) .route))
  | .loadSnapshot p call now closeErr =>
      match BusinessActor.loadSnapshot ⟨(db.wallet call.key).snapshot.toList, closeErr⟩ with
      | .error err => n.giveUp p call err
      | .ok snapshot => n.setThread p (.serving call (.loadEvents now snapshot))
  | .loadEvents p call now snapshot closeErr =>
      match (newBusinessActor call.key.tenantID call.key.uid now).loadEvents snapshot
          ⟨(db.wallet call.key).eventsAfter snapshot.lastVersion, closeErr⟩ with
      | (_, some err) => n.giveUp p call err
      | (b, none) => n.install p call b
  | .route p call a =>
      (n.setRoute (routeKey call.env) (some call.sender)).setThread p (.serving call (.send a))
  | .send p call a =>
      n.setThread p (.serving call
        (if (n.actor a).mailbox.status.accepts then .count a else .unroute a))
  | .count p call a => n.addPending.setThread p (.serving call (.swap a))
  | .swap p call a =>
      (n.setActor a { n.actor a with mailbox := (n.actor a).mailbox.swap p call.env }).setThread p
        (.serving call (.link a))
  | .link p call a =>
      (n.setActor a { n.actor a with mailbox := (n.actor a).mailbox.link p }).setThread p
        (.serving call (.wake a))
  | .wake p call a => (n.setActor a (n.actor a).signal).setThread p (.next call.sender call.rest)
  | .unroute p call a =>
      (n.setRoute (routeKey call.env) none).setThread p (.serving call (.forget a))
  | .forget p call a =>
      (n.setShard call.key (if n.shards call.key = some a then none
        else n.shards call.key)).setThread p (.serving call .lookup)
  | .kill p call =>
      (n.setShard call.key none).setThread p ((n.shards call.key).elim
        (.push call.sender call.rest (wrongNodeResult call.env)) fun a => .serving call (.close a))
  | .close p call a =>
      (n.setActor a (n.actor a).stop).setThread p (.serving call
        (if (n.actor a).mailbox.status.accepts then .killSignal a else .spawn a))
  | .killSignal p call a =>
      (n.setActor a (n.actor a).signal).setThread p (.serving call (.spawn a))
  | .spawn p call a =>
      { n.setDrain n.drains (.await a) with drains := n.drains + 1 }.setThread p
        (.push call.sender call.rest (wrongNodeResult call.env))
  | .await d a => n.setDrain d (.collect a [])
  | .collect d a envs =>
      (n.setActor a { n.actor a with
          mailbox := (n.actor a).mailbox.front.elim (n.actor a).mailbox
            fun _ => (n.actor a).mailbox.pop }).setDrain d
        ((n.actor a).mailbox.front.elim (.answer a envs) fun env => .uncount a (envs ++ [env]))
  | .drainUncount d a envs => n.subPending.setDrain d (.collect a envs)
  | .answer d a env envs =>
      (n.setRoute (routeKey env) none).setDrain d ((n.replyRoutes (routeKey env)).elim
        (.answer a envs) fun reply => .push a env reply envs)
  | .drainPush d a env reply envs =>
      (n.enqueueResult reply (evictedResult env)).setDrain d (.answer a envs)
  | .drainEnd d a => n.setDrain d (.finished a)
  | .dequeue a => n.setActor a (n.actor a).dequeue
  | .uncount a env => n.subPending.setLoop a (.handle env)
  | .handle a env now =>
      n.setActor a { n.actor a with
        state := { (n.actor a).state with lastActive := now }, loop := .execute env now }
  | .execute a env now outcome => n.execute db a env now outcome
  | .emit a res =>
      (n.setRoute (resultKey res) none).setLoop a ((n.replyRoutes (resultKey res)).elim
        .dequeue fun reply => .push ⟨res, reply⟩)
  | .deliver a queued => (n.enqueue queued).setLoop a .dequeue
  | .checkStatus a =>
      n.setLoop a (if (n.actor a).mailbox.status = .stopping then .exit else .waiting)
  | .wakeUp a =>
      n.setActor a { n.actor a with
        mailbox := { (n.actor a).mailbox with wake := false }, loop := .dequeue }
  | .exit a =>
      n.setActor a { n.actor a with
        mailbox := { (n.actor a).mailbox with status := .dead }, loop := .dead }
  | .sweep now => { n with sweeper := .lock now 0 }
  | .sweepLock now i =>
      { n.setLock (UInt64.ofNat i) (some .sweeper) with
        sweeper := .scan now i (n.shardActors i) }
  | .sweepScan now i todo a =>
      { n with sweeper := if idleThreshold < now - (n.actor a).state.lastActive
          then .close now i (todo.erase a) a else .scan now i (todo.erase a) }
  | .sweepClose now i todo a =>
      let accepts := (n.actor a).mailbox.status.accepts
      { (n.setActor a (n.actor a).stop).setShard (n.actor a).key
          (if accepts then n.shards (n.actor a).key else none) with
        sweeper := if accepts then .signal now i todo a else .scan now i todo }
  | .sweepSignal now i todo a =>
      { (n.setActor a (n.actor a).signal).setShard (n.actor a).key none with
        sweeper := .scan now i todo }
  | .sweepUnlock now i => { n.setLock (UInt64.ofNat i) none with sweeper := .lock now (i + 1) }
  | .sweepRest _ => { n with sweeper := .resting }
  | .sweepReturn => { n with sweeper := .returned }
  | .stop => { n with stopper := .lock 0 [] }
  | .stopLock i stopping =>
      { n.setLock (UInt64.ofNat i) (some .stopper) with
        stopper := .scan i (n.shardActors i) stopping }
  | .stopScan i todo stopping a =>
      let accepts := (n.actor a).mailbox.status.accepts
      { (n.setActor a (n.actor a).stop).setShard (n.actor a).key
          (if accepts then n.shards (n.actor a).key else none) with
        stopper := if accepts then .signal i (todo.erase a) stopping a
          else .scan i (todo.erase a) (stopping ++ [a]) }
  | .stopSignal i todo stopping a =>
      { (n.setActor a (n.actor a).signal).setShard (n.actor a).key none with
        stopper := .scan i todo (stopping ++ [a]) }
  | .stopUnlock i stopping =>
      { n.setLock (UInt64.ofNat i) none with stopper := .lock (i + 1) stopping }
  | .stopAwait stopping => { n with stopper := .await stopping }
  | .stopNext _ stopping => { n with stopper := .await stopping }
  | .closeDone => { n with done := true, stopper := .join }
  | .stopReturn => { n with stopper := .returned }
  | .receive queued rest =>
      { n with
        resultCh := rest
        batch := n.batch ++ [queued]
        aggregator := if maxBatchSize ≤ n.batch.length + 1 then .flush false else .select }
  | .tick => { n with aggregator := .flush false }
  | .takeDone => { n with aggregator := .flush true }
  | .flush last order =>
      { n with batch := [], aggregator := .send (responses n.batch order) last }
  | .respond response rest last =>
      { n with sent := n.sent ++ [response], aggregator := .send rest last }
  | .flushEnd last => { n with aggregator := if last then .returned else .select }

end NodeState

namespace Database

/-- What one handled envelope does to the tables. -/
def execute (db : Database) (actor : LocalActor) (env : RemoteEnvelope) (now : Int)
    (outcome : WriteOutcome) : Database :=
  let h := actor.state.handle (db.wallet actor.key) env now outcome
  { wallet := Function.update db.wallet actor.key h.store
    inFlight := Function.update db.inFlight actor.key
      (h.snapshot.toList ++ db.inFlight actor.key)
    acked := Function.update db.acked actor.key (db.acked actor.key ++
      if actor.state.Admits env ∧ outcome = .applied then [actor.state.eventRow env now]
      else []) }

/-- Only the execution of an envelope writes. -/
def apply (db : Database) (n : NodeState) : Action → Database
  | .execute a env now outcome => db.execute (n.actor a) env now outcome
  | _ => db

/-- A snapshot write lands. -/
def land (db : Database) (key : ActorKey) (snapshot : Snapshot) : Database :=
  { db with wallet := Function.update db.wallet key ((db.wallet key).upsertSnapshot snapshot) }

end Database

/-- One node and the tables it works on. -/
structure NodeRun where
  node : NodeState
  db : Database

inductive Event where
  | act (action : Action)
  | land (key : ActorKey) (snapshot : Snapshot)

namespace NodeRun

def enabled (cfg : Config) (r : NodeRun) : Event → Bool
  | .act action => r.node.enabled cfg action
  | .land key snapshot => decide (snapshot ∈ r.db.inFlight key)

def apply (cfg : Config) (r : NodeRun) : Event → NodeRun
  | .act action => ⟨r.node.apply cfg r.db action, r.db.apply r.node action⟩
  | .land key snapshot => ⟨r.node, r.db.land key snapshot⟩

end NodeRun

/-- A node that starts on empty tables. -/
def node (cfg : Config) : System NodeRun Event :=
  System.guarded ⟨newNode, .empty⟩ (NodeRun.enabled cfg) (NodeRun.apply cfg)

end ActorCluster.Node
