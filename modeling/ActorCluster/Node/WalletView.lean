import ActorCluster.Foundation.Roster
import ActorCluster.Node.Step
import ActorCluster.Wallet.Clock

/-! # A wallet on its own

What a node does for one wallet, told without the rest of the node. The steps of
the wallet are those in which one of its envelopes is taken up, checked, routed,
handled or answered, in which its tables are read or written, and in which its
actor is evicted. They name the calls, the actors and the drains of the wallet in
the order in which they appear. The view of the wallet is computed from its steps
alone; it has no clock. A result is decided at one step and put on the channel at a
later one. What waits in between is handed on once.
-/

namespace ActorCluster.Node

open Remote Wallet

/-- The wallet that a result is for. -/
def resultWallet (res : RemoteResult) : ActorKey := ⟨res.tenantId, res.uid⟩

/-- A step of one wallet. -/
inductive OwnStep where
  | arrive (sender : BatchSender) (env : RemoteEnvelope)
  | owner (i : Nat) (answer : Option (Except String String))
  | loadSnapshot (i : Nat) (closeErr : Option String)
  | loadEvents (i : Nat) (closeErr : Option String)
  | route (i : Nat)
  | unroute (i : Nat)
  | refuse (i : Nat)
  | evict
  | handle (j : Nat) (env : RemoteEnvelope) (outcome : WriteOutcome)
  | emit (j : Nat)
  | deliver (j : Nat)
  | drained (d : Nat) (env : RemoteEnvelope)
  | answer (d : Nat)
  | land (i : Nat)
  deriving DecidableEq

/-- The steps that bear on the rows and the results of the wallet. The others route
results, pass them on and put them on the channel. -/
def OwnStep.decisive : OwnStep → Bool
  | .route _ | .unroute _ | .refuse _ | .emit _ | .deliver _ | .answer _ => false
  | _ => true

/-- The names that one wallet has given out. -/
structure Observer where
  call : Roster
  actor : Roster
  drain : Roster

namespace Observer

def empty : Observer := ⟨.empty, .empty, .empty⟩

/-- A call is named when it takes up an envelope of the wallet, an actor when it is
rehydrated, and a drain when it is spawned. -/
def next (key : ActorKey) (o : Observer) (r : NodeRun) : Event → Observer
  | .act (.next p _ env _) => if actorKey env = key then { o with call := o.call.assign p } else o
  | .act (.loadEvents _ call _ _ _) =>
      if call.key = key then { o with actor := o.actor.assign r.node.started } else o
  | .act (.spawn _ call _) =>
      if call.key = key then { o with drain := o.drain.assign r.node.drains } else o
  | _ => o

/-- The step of the wallet that a step of the node is, if it is one. -/
def ownStep (key : ActorKey) (o : Observer) (r : NodeRun) : Event → Option OwnStep
  | .act (.next _ sender env _) => if actorKey env = key then some (.arrive sender env) else none
  | .act (.owner p call answer) =>
      if call.key = key then some (.owner (o.call.of p) answer) else none
  | .act (.loadSnapshot p call _ closeErr) =>
      if call.key = key then some (.loadSnapshot (o.call.of p) closeErr) else none
  | .act (.loadEvents p call _ _ closeErr) =>
      if call.key = key then some (.loadEvents (o.call.of p) closeErr) else none
  | .act (.route p call _) => if call.key = key then some (.route (o.call.of p)) else none
  | .act (.unroute p call _) => if call.key = key then some (.unroute (o.call.of p)) else none
  | .act (.push p _ _ res) =>
      if resultWallet res = key then some (.refuse (o.call.of p)) else none
  | .act (.spawn _ call _) => if call.key = key then some .evict else none
  | .act (.execute a env _ outcome) =>
      if (r.node.actor a).key = key then some (.handle (o.actor.of a) env outcome) else none
  | .act (.emit a _) => if (r.node.actor a).key = key then some (.emit (o.actor.of a)) else none
  | .act (.deliver a _) =>
      if (r.node.actor a).key = key then some (.deliver (o.actor.of a)) else none
  | .act (.answer d a env _) =>
      if (r.node.actor a).key = key then some (.drained (o.drain.of d) env) else none
  | .act (.drainPush d a _ _ _) =>
      if (r.node.actor a).key = key then some (.answer (o.drain.of d)) else none
  | .land key' snapshot =>
      if key' = key then some (.land ((r.db.inFlight key).idxOf snapshot)) else none
  | _ => none

end Observer

/-- The steps of the wallet along a run of the node. -/
def ownSteps (cfg : Config) (key : ActorKey) : Observer → NodeRun → List Event → List OwnStep
  | _, _, [] => []
  | o, r, event :: rest =>
      (o.ownStep key r event).toList ++
        ownSteps cfg key (o.next key r event) (r.apply cfg event) rest

/-- A call, with the snapshot it has loaded and the refusal it has decided on. -/
structure CallView where
  sender : BatchSender
  env : RemoteEnvelope
  snapshot : Snapshot
  refusal : Option RemoteResult

/-- An actor, with its last result and what is to be put on the result channel. -/
structure ActorView where
  state : BusinessActor
  result : Option RemoteResult
  queued : Option QueuedResult

/-- A drain, with the envelope that it is about to refuse, and the stream. -/
structure DrainView where
  pending : Option (RemoteEnvelope × BatchSender)

/-- All that a node has of one wallet, and the results it has decided on. -/
structure WalletView where
  store : WalletStore
  inFlight : List Snapshot
  routes : UInt64 → Option BatchSender
  decided : List RemoteResult
  put : List QueuedResult
  calls : Nat
  call : Nat → Option CallView
  actors : Nat
  actor : Nat → Option ActorView
  drains : Nat
  drain : Nat → Option DrainView

namespace WalletView

/-- The wallet of a node that has just been started on the given tables. -/
def start (store : WalletStore) (inFlight : List Snapshot) : WalletView where
  store := store
  inFlight := inFlight
  routes _ := none
  decided := []
  put := []
  calls := 0
  call _ := none
  actors := 0
  actor _ := none
  drains := 0
  drain _ := none

def setCall (w : WalletView) (i : Nat) (c : CallView) : WalletView :=
  { w with call := Function.update w.call i (some c) }

def setActor (w : WalletView) (j : Nat) (actor : ActorView) : WalletView :=
  { w with actor := Function.update w.actor j (some actor) }

def setDrain (w : WalletView) (d : Nat) (drain : DrainView) : WalletView :=
  { w with drain := Function.update w.drain d (some drain) }

/-- The next call, actor or drain. -/
def addCall (w : WalletView) (c : CallView) : WalletView :=
  { w.setCall w.calls c with calls := w.calls + 1 }

def addActor (w : WalletView) (actor : Option ActorView) : WalletView :=
  { w with actor := Function.update w.actor w.actors actor, actors := w.actors + 1 }

def addDrain (w : WalletView) (drain : DrainView) : WalletView :=
  { w.setDrain w.drains drain with drains := w.drains + 1 }

def setRoute (w : WalletView) (reqID : UInt64) (reply : Option BatchSender) : WalletView :=
  { w with routes := Function.update w.routes reqID reply }

/-- The tables are written, and snapshot writes launched. -/
def write (w : WalletView) (store : WalletStore) (launched : List Snapshot) : WalletView :=
  { w with store := store, inFlight := launched ++ w.inFlight }

def enqueue (w : WalletView) (queued : Option QueuedResult) : WalletView :=
  { w with put := w.put ++ queued.toList }

def decide (w : WalletView) (ress : List RemoteResult) : WalletView :=
  { w with decided := w.decided ++ ress }

/-- A call decides to refuse its envelope. -/
def refuse (w : WalletView) (i : Nat) (c : CallView) (res : RemoteResult) : WalletView :=
  (w.setCall i { c with refusal := some res }).decide [res]

/-- The step of a call of the wallet. -/
def callStep (cfg : Config) (key : ActorKey) (w : WalletView) (i : Nat) (c : CallView) :
    OwnStep → WalletView
  | .owner _ answer => if cfg.owns answer then w else w.refuse i c (wrongNodeResult c.env)
  | .loadSnapshot _ closeErr =>
      match BusinessActor.loadSnapshot ⟨w.store.snapshot.toList, closeErr⟩ with
      | .error err => w.refuse i c (rehydrationFailedResult c.env err)
      | .ok snapshot => w.setCall i { c with snapshot := snapshot }
  | .loadEvents _ closeErr =>
      -- a failed rehydration uses its number up
      match (newBusinessActor key.tenantID key.uid 0).loadEvents c.snapshot
          ⟨w.store.eventsAfter c.snapshot.lastVersion, closeErr⟩ with
      | (_, some err) => (w.refuse i c (rehydrationFailedResult c.env err)).addActor none
      | (b, none) => w.addActor (some ⟨b, none, none⟩)
  | .route _ => w.setRoute c.env.requestId (some c.sender)
  | .unroute _ => w.setRoute c.env.requestId none
  | .refuse _ =>
      (w.setCall i { c with refusal := none }).enqueue (c.refusal.map fun res => ⟨res, c.sender⟩)
  | _ => w

/-- The step of an actor of the wallet. -/
def actorStep (w : WalletView) (j : Nat) (actor : ActorView) : OwnStep → WalletView
  | .handle _ env outcome =>
      let h := actor.state.handle w.store env 0 outcome
      let res := completeResult h.result env
      ((w.write h.store h.snapshot.toList).setActor j ⟨h.actor, some res, none⟩).decide [res]
  | .emit _ =>
      actor.result.elim w fun res =>
        (w.setRoute res.requestId none).setActor j { actor with
          result := none
          queued := (w.routes res.requestId).map fun reply => ⟨res, reply⟩ }
  | .deliver _ => (w.setActor j { actor with queued := none }).enqueue actor.queued
  | _ => w

/-- The step of a drain of the wallet. -/
def drainStep (w : WalletView) (d : Nat) (drain : DrainView) : OwnStep → WalletView
  | .drained _ env =>
      ((w.setRoute env.requestId none).setDrain d
        ⟨(w.routes env.requestId).map fun reply => (env, reply)⟩).decide [evictedResult env]
  | .answer _ =>
      (w.setDrain d ⟨none⟩).enqueue (drain.pending.map fun pending =>
        ⟨evictedResult pending.1, pending.2⟩)
  | _ => w

/-- An envelope of the wallet is taken up. -/
def arrive (w : WalletView) (sender : BatchSender) (env : RemoteEnvelope) : WalletView :=
  let refusal := if wellFormed env then none else some (badRequestResult env)
  (w.addCall ⟨sender, env, ⟨0, 0⟩, refusal⟩).decide refusal.toList

/-- What one step does to the wallet. -/
def step (cfg : Config) (key : ActorKey) (w : WalletView) (own : OwnStep) : WalletView :=
  match own with
  | .arrive sender env => w.arrive sender env
  | .evict => w.addDrain ⟨none⟩
  | .owner i _ | .loadSnapshot i _ | .loadEvents i _ | .route i | .unroute i | .refuse i =>
      (w.call i).elim w fun c => w.callStep cfg key i c own
  | .handle j _ _ | .emit j | .deliver j =>
      (w.actor j).elim w fun actor => w.actorStep j actor own
  | .drained d _ | .answer d => (w.drain d).elim w fun drain => w.drainStep d drain own
  | .land i => w.write ((w.inFlight[i]?).elim w.store w.store.upsertSnapshot) []

/-- The wallet after a list of its steps. -/
def run (cfg : Config) (key : ActorKey) (w : WalletView) (steps : List OwnStep) : WalletView :=
  steps.foldl (WalletView.step cfg key) w

end WalletView

end ActorCluster.Node
