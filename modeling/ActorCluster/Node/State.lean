import ActorCluster.Runtime.Mailbox
import ActorCluster.Wallet.BusinessActor
import Mathlib.Logic.Function.Basic

/-! # The state of a node

A node keeps the actors it has started in 256 locked shard maps, the reply
routes of the requests that its actors hold, and one result channel that the
aggregator empties. The goroutines of the node are the `HandleBatch` calls, the
loops of the actors, the background drains of evicted actors, the passivation
sweep, the aggregator and `Stop`; each of them stands at one of the positions
below. A critical section that only reads or changes the map is one step; the
lock is held across steps by a rehydration, by the sweep and by `Stop`.
-/

namespace ActorCluster.Node

open Remote Wallet ActorCluster.Runtime

structure ActorKey where
  tenantID : Int32
  uid : Int64
  deriving DecidableEq, Repr

/-- `uint64(k.TenantID^int32(k.UID)) % 256`. The conversion extends the sign. -/
def ActorKey.shardIndex (k : ActorKey) : UInt64 :=
  (k.tenantID ^^^ k.uid.toInt32).toInt64.toUInt64 % 256

/-- What a reply is routed by. -/
structure ResultRouteKey where
  tenant : Int32
  uid : Int64
  req : UInt64
  deriving DecidableEq, Repr

/-- The stream a batch arrived on. -/
abbrev BatchSender := Nat

structure QueuedResult where
  res : RemoteResult
  reply : BatchSender
  deriving DecidableEq, Repr

/-- The actor an envelope is addressed to. -/
def actorKey (env : RemoteEnvelope) : ActorKey := ⟨env.tenantId, env.uid⟩

/-- The route registered for an envelope. -/
def routeKey (env : RemoteEnvelope) : ResultRouteKey := ⟨env.tenantId, env.uid, env.requestId⟩

/-- The route looked up for a result. -/
def resultKey (res : RemoteResult) : ResultRouteKey := ⟨res.tenantId, res.uid, res.requestId⟩

def defaultMailboxLimit : UInt64 := 1500000

/-- The configured backlog limit, whether there is a resolver, and the address
that the resolver gives for this node. -/
structure Config where
  mailboxLimit : UInt64
  resolver : Bool
  myIP : String
  deriving DecidableEq, Repr

/-- The backlog limit in force. -/
def Config.limit (cfg : Config) : UInt64 :=
  if cfg.mailboxLimit = 0 then defaultMailboxLimit else cfg.mailboxLimit

/-- The ownership check, given what the resolver answers. -/
def Config.owns (cfg : Config) : Option (Except String String) → Bool
  | none => true
  | some (.error _) => false
  | some (.ok ownerIP) => ownerIP = cfg.myIP

/-- The test that every envelope passes before it is dispatched. -/
def wellFormed (env : RemoteEnvelope) : Bool :=
  env.tenantId ≠ 0 && env.uid ≠ 0 && env.txId ≠ "" && env.requestId ≠ 0

/-- A refusal by the node itself. -/
def errorResult (env : RemoteEnvelope) (code : ErrorCode) (msg : String) : RemoteResult where
  tenantId := env.tenantId
  uid := env.uid
  txId := env.txId
  requestId := env.requestId
  opCode := env.opCode
  success := false
  errorCode := some code
  errorMsg := msg
  payload := []

def overloadedResult (env : RemoteEnvelope) : RemoteResult :=
  errorResult env .nodeOverloaded "node mailbox backlog limit reached, please retry"

def badRequestResult (env : RemoteEnvelope) : RemoteResult :=
  errorResult env .badRequest "missing tenant_id, uid, tx_id, or request_id"

def wrongNodeResult (env : RemoteEnvelope) : RemoteResult :=
  errorResult env .wrongNode "routing table indicates this node is not the owner"

def evictedResult (env : RemoteEnvelope) : RemoteResult :=
  errorResult env .wrongNode "actor evicted due to ownership change, please retry"

/-- Unlike the other refusals, this one does not echo the operation code. -/
def rehydrationFailedResult (env : RemoteEnvelope) (err : RehydrateError) : RemoteResult :=
  { errorResult env .rehydrationFailed err.text with opCode := 0 }

/-- Fill in the metadata that a handler left at zero. -/
def completeResult (result : RemoteResult) (env : RemoteEnvelope) : RemoteResult :=
  { result with
    tenantId := if result.tenantId = 0 then env.tenantId else result.tenantId
    uid := if result.uid = 0 then env.uid else result.uid
    requestId := if result.requestId = 0 then env.requestId else result.requestId
    txId := if result.txId = "" then env.txId else result.txId
    opCode := if result.opCode = 0 then env.opCode else result.opCode }

/-- Where the loop of an actor stands. -/
inductive Loop where
  | dequeue
  | uncount (env : RemoteEnvelope)
  | handle (env : RemoteEnvelope)
  | execute (env : RemoteEnvelope) (now : Int)
  | emit (res : RemoteResult)
  | push (queued : QueuedResult)
  | missed
  | waiting
  | exit
  | dead
  deriving DecidableEq

/-- An actor that the node has started: its mailbox, its loop and its wallet.
The history has the envelopes it has executed and the events it has written. -/
structure LocalActor where
  key : ActorKey
  mailbox : Mailbox RemoteEnvelope
  loop : Loop
  state : BusinessActor
  executed : List RemoteEnvelope
  written : List EventRow

/-- The actor as it is put into the shard map and started. -/
def LocalActor.start (key : ActorKey) (b : BusinessActor) : LocalActor where
  key := key
  mailbox := ⟨.running, false, []⟩
  loop := .dequeue
  state := b
  executed := []
  written := []

/-- An identity that has not been given to an actor yet. -/
def LocalActor.unused : LocalActor where
  key := ⟨0, 0⟩
  mailbox := ⟨.dead, false, []⟩
  loop := .dead
  state := newBusinessActor 0 0 0
  executed := []
  written := []

/-- The actor has reached the end of its life. -/
def LocalActor.Dead (actor : LocalActor) : Prop := actor.mailbox.status = .dead

instance (actor : LocalActor) : Decidable actor.Dead :=
  inferInstanceAs (Decidable (_ = _))

/-- `Stop` on the runtime of the actor, up to its wake-up. -/
def LocalActor.stop (actor : LocalActor) : LocalActor :=
  if actor.mailbox.status.accepts then { actor with mailbox := actor.mailbox.close } else actor

/-- The wake-up of `Stop` and of `Send`. -/
def LocalActor.signal (actor : LocalActor) : LocalActor :=
  { actor with mailbox := actor.mailbox.signal }

/-- One envelope of a batch, its stream, and the envelopes behind it. -/
structure Call where
  sender : BatchSender
  env : RemoteEnvelope
  rest : List RemoteEnvelope
  deriving DecidableEq

def Call.key (call : Call) : ActorKey := actorKey call.env

/-- Where `HandleBatch` stands with one envelope. -/
inductive Serving where
  | owner
  | kill
  | close (a : Nat)
  | killSignal (a : Nat)
  | spawn (a : Nat)
  | lookup
  | create
  | loadSnapshot (now : Int)
  | loadEvents (now : Int) (snapshot : Snapshot)
  | route (a : Nat)
  | send (a : Nat)
  | count (a : Nat)
  | swap (a : Nat)
  | link (a : Nat)
  | wake (a : Nat)
  | unroute (a : Nat)
  | forget (a : Nat)
  deriving DecidableEq

/-- Where a `HandleBatch` call stands. -/
inductive Thread where
  | idle
  | gate (sender : BatchSender) (batch : List RemoteEnvelope)
  | reject (sender : BatchSender) (rest : List RemoteEnvelope)
  | next (sender : BatchSender) (rest : List RemoteEnvelope)
  | push (sender : BatchSender) (rest : List RemoteEnvelope) (res : RemoteResult)
  | serving (call : Call) (pc : Serving)
  deriving DecidableEq

/-- Where the goroutine stands that `forceKillLocalActor` leaves behind. -/
inductive Drain where
  | unused
  | await (a : Nat)
  | collect (a : Nat) (envs : List RemoteEnvelope)
  | uncount (a : Nat) (envs : List RemoteEnvelope)
  | answer (a : Nat) (envs : List RemoteEnvelope)
  | push (a : Nat) (env : RemoteEnvelope) (reply : BatchSender) (envs : List RemoteEnvelope)
  | finished (a : Nat)
  deriving DecidableEq

/-- Where the passivation sweep stands. Map entries are visited in any order. -/
inductive Sweeper where
  | resting
  | lock (now : Int) (i : Nat)
  | scan (now : Int) (i : Nat) (todo : List Nat)
  | close (now : Int) (i : Nat) (todo : List Nat) (a : Nat)
  | signal (now : Int) (i : Nat) (todo : List Nat) (a : Nat)
  | returned
  deriving DecidableEq

/-- Where `Stop` stands, with the actors it has told to stop. -/
inductive Stopper where
  | uncalled
  | lock (i : Nat) (stopping : List Nat)
  | scan (i : Nat) (todo stopping : List Nat)
  | signal (i : Nat) (todo stopping : List Nat) (a : Nat)
  | await (stopping : List Nat)
  | join
  | returned
  deriving DecidableEq

/-- Where the aggregator stands. The last flush is the one for `done`. -/
inductive Aggregator where
  | select
  | flush (last : Bool)
  | send (responses : List (BatchSender × List RemoteResult)) (last : Bool)
  | returned
  deriving DecidableEq

/-- Who holds the lock of a shard across several steps. -/
inductive Holder where
  | thread (p : Nat)
  | sweeper
  | stopper
  deriving DecidableEq

/-- The state of a node. The history has the envelopes that arrived, with their
streams, the results that were made for them, those put on the result channel,
and the responses sent. -/
structure NodeState where
  shards : ActorKey → Option Nat
  lock : UInt64 → Option Holder
  actor : Nat → LocalActor
  started : Nat
  replyRoutes : ResultRouteKey → Option BatchSender
  resultCh : List QueuedResult
  mailboxPending : UInt64
  thread : Nat → Thread
  drain : Nat → Drain
  drains : Nat
  sweeper : Sweeper
  stopper : Stopper
  aggregator : Aggregator
  batch : List QueuedResult
  done : Bool
  arrived : List (RemoteEnvelope × BatchSender)
  produced : List RemoteResult
  put : List QueuedResult
  sent : List (BatchSender × List RemoteResult)

/-- A node as `NewNode` makes it. -/
def newNode : NodeState where
  shards _ := none
  lock _ := none
  actor _ := .unused
  started := 0
  replyRoutes _ := none
  resultCh := []
  mailboxPending := 0
  thread _ := .idle
  drain _ := .unused
  drains := 0
  sweeper := .resting
  stopper := .uncalled
  aggregator := .select
  batch := []
  done := false
  arrived := []
  produced := []
  put := []
  sent := []

/-- The tables that all wallets share, and the snapshot writes under way. The
history has the events acknowledged with success. -/
structure Database where
  wallet : ActorKey → WalletStore
  inFlight : ActorKey → List Snapshot
  acked : ActorKey → List EventRow

/-- Tables that were never written. -/
def Database.empty : Database where
  wallet _ := .empty
  inFlight _ := []
  acked _ := []

end ActorCluster.Node
