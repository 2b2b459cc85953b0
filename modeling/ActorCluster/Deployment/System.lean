import ActorCluster.Client.Gateway
import ActorCluster.Node.Step
import Mathlib.Data.Nat.Pairing

/-! # Gateways and nodes together

Any number of client processes talk to any number of nodes, and the nodes work on
the same tables. A stream carries batches of envelopes to the node it was opened
to and responses back, in order, and loses what is on the way when it breaks. A
node may crash at any time and start again with nothing in memory. What the
resolvers answer is left open on both sides, so the views of the topology may
differ, and two nodes may serve one wallet.
-/

namespace ActorCluster.Deployment

open Remote Wallet Transition Client Node

/-- A streamer of a client process. -/
abbrev Stream := MachineID × Nat

/-- The identity of a stream on its node, and of the goroutine that serves it. -/
def streamID (stream : Stream) : BatchSender := Nat.pair stream.1 stream.2

theorem streamID_injective : Function.Injective streamID := by
  intro first second h
  obtain ⟨hmachine, ha⟩ := Nat.pair_eq_pair.mp h
  exact Prod.ext (Fin.ext hmachine) ha

/-- The limit that `main` gives to the transport adapter. -/
def serverMaxBatchSize : Nat := 5000

/-- The processes, the tables, and what is on the way. The history has the envelopes that
nodes have received on each stream, and the events written for each wallet. -/
structure World where
  gateway : MachineID → GatewayState
  node : String → NodeState
  db : Database
  up : Stream → List (List RemoteEnvelope)
  down : BatchSender → List (List RemoteResult)
  received : Stream → List RemoteEnvelope
  written : ActorKey → List EventRow

def newWorld : World where
  gateway := newGateway
  node _ := newNode
  db := .empty
  up _ := []
  down _ := []
  received _ := []
  written _ := []

inductive WorldAction where
  | gateway (machineID : MachineID) (action : GatewayAction)
  -- the server hands the next batch of a stream to `HandleBatch`
  | accept (ip : String) (stream : Stream) (batch : List RemoteEnvelope)
  | node (ip : String) (action : Node.Action)
  -- a snapshot write lands
  | land (key : ActorKey) (snapshot : Snapshot)
  | sever (stream : Stream)
  | crash (ip : String)

/-- A call of `HandleBatch`. -/
def arrival (stream : Stream) (batch : List RemoteEnvelope) : Node.Action :=
  .arrive (streamID stream) (streamID stream) batch

/-- The event that a step writes. -/
def writes (n : NodeState) : Node.Action → Option (ActorKey × EventRow)
  | .execute a env now outcome =>
      if (n.actor a).state.Admits env ∧ outcome.takesEffect then
        some ((n.actor a).key, (n.actor a).state.eventRow env now)
      else none
  | _ => none

namespace World

def streamer (w : World) (stream : Stream) : NodeStreamer :=
  (w.gateway stream.1).client.streamer stream.2

/-- A receiver gets the responses of its stream in order. -/
def provides (w : World) (machineID : MachineID) : GatewayAction → Bool
  | .client (.recv a results) => (w.down (streamID (machineID, a))).head? = some results
  | _ => true

def enabled (clientCfg : MachineID → Client.Config) (nodeCfg : String → Node.Config) (w : World) :
    WorldAction → Bool
  | .gateway machineID action =>
      (w.gateway machineID).enabled (clientCfg machineID) action && w.provides machineID action
  | .accept ip stream batch =>
      (w.streamer stream).targetIP = ip && (w.up stream).head? = some batch &&
        decide (batch.length ≤ serverMaxBatchSize) &&
        (w.node ip).enabled (nodeCfg ip) (arrival stream batch)
  | .node _ (.arrive _ _ _) => false
  | .node ip action => (w.node ip).enabled (nodeCfg ip) action
  | .land key snapshot => decide (snapshot ∈ w.db.inFlight key)
  | .sever _ => true
  | .crash _ => true

/-- The batches on the way after a step of a client process. -/
def sending (w : World) (machineID : MachineID) :
    GatewayAction → Stream → List (List RemoteEnvelope)
  | .client (.send a batch _) =>
      Function.update w.up (machineID, a) (w.up (machineID, a) ++ [batch])
  | _ => w.up

/-- The responses on the way after a step of a client process. -/
def receiving (w : World) (machineID : MachineID) :
    GatewayAction → BatchSender → List (List RemoteResult)
  | .client (.recv a _) =>
      Function.update w.down (streamID (machineID, a)) (w.down (streamID (machineID, a))).tail
  | _ => w.down

/-- The responses on the way after a step of a node. -/
def responding (w : World) : Node.Action → BatchSender → List (List RemoteResult)
  | .respond response _ _ =>
      Function.update w.down response.1 (w.down response.1 ++ [response.2])
  | _ => w.down

/-- The events written, after a step of a node. -/
def recording (w : World) (n : NodeState) (action : Node.Action) : ActorKey → List EventRow :=
  match writes n action with
  | none => w.written
  | some (key, row) => Function.update w.written key (w.written key ++ [row])

def apply (clientCfg : MachineID → Client.Config) (nodeCfg : String → Node.Config) (w : World) :
    WorldAction → World
  | .gateway machineID action =>
      { w with
        gateway := Function.update w.gateway machineID
          ((w.gateway machineID).apply (clientCfg machineID) action)
        up := w.sending machineID action
        down := w.receiving machineID action }
  | .accept ip stream batch =>
      { w with
        node := Function.update w.node ip
          ((w.node ip).apply (nodeCfg ip) w.db (arrival stream batch))
        up := Function.update w.up stream (w.up stream).tail
        received := Function.update w.received stream (w.received stream ++ batch) }
  | .node ip action =>
      { w with
        node := Function.update w.node ip ((w.node ip).apply (nodeCfg ip) w.db action)
        db := w.db.apply (w.node ip) action
        down := w.responding action
        written := w.recording (w.node ip) action }
  | .land key snapshot => { w with db := w.db.land key snapshot }
  | .sever stream =>
      { w with
        up := Function.update w.up stream []
        down := Function.update w.down (streamID stream) [] }
  | .crash ip => { w with node := Function.update w.node ip newNode }

/-- No process has used up its request ids. -/
def InSequence (w : World) : WorldAction → Prop
  | .gateway machineID action => (w.gateway machineID).InSequence action
  | _ => True

instance (w : World) (action : WorldAction) : Decidable (w.InSequence action) := by
  cases action <;> unfold InSequence <;> infer_instance

end World

/-- All processes start at once, on empty tables; a process that takes no step is as good
as absent. -/
def deployment (clientCfg : MachineID → Client.Config) (nodeCfg : String → Node.Config) :
    System World WorldAction :=
  System.guarded newWorld (World.enabled clientCfg nodeCfg) (World.apply clientCfg nodeCfg)

end ActorCluster.Deployment
