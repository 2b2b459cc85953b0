import ActorCluster.Client.CallbackMap
import ActorCluster.Remote.Message

/-! # The state of the client

The router keeps one streamer for each target address. A streamer is one gRPC
stream with two goroutines: the flusher sends the envelopes in batches, and the
receiver hands the results to the callbacks. When the stream fails, one of the
two runs the body of `fail`, which is entered once. The other goroutines are the
callers of `EmulateGatewayFlow` and `ExecuteAndWait`, and `StopAll`.
-/

namespace ActorCluster.Client

open Remote

/-- The batch size of the router. An unbuffered `envelopeCh` is not modelled. -/
structure Config where
  batchSize : Nat
  positive : 0 < batchSize

/-- Where the flusher stands, with its batch. The last batch is the one for
`stopCh`. -/
inductive Flusher where
  | select (batch : List RemoteEnvelope)
  | send (batch : List RemoteEnvelope) (last : Bool)
  | count (batch : List RemoteEnvelope) (last : Bool)
  | closeSend
  | failing
  | returned
  deriving DecidableEq

/-- Where the receiver stands, with the results that it has received and not yet
handed on. -/
inductive Receiver where
  | loop (rest : List RemoteResult)
  | demux (res : RemoteResult) (rest : List RemoteResult)
  | deliver (res : RemoteResult) (ch : Nat) (rest : List RemoteResult)
  | failing
  | returned
  deriving DecidableEq

/-- Where the body of `fail` stands. -/
inductive Failure where
  | unstarted
  | mark (code : ErrorCode)
  | load (code : ErrorCode)
  | evict (code : ErrorCode)
  | lock (code : ErrorCode) (i : Nat)
  | scan (code : ErrorCode) (i : Nat)
  | done
  deriving DecidableEq

/-- A streamer. The stream is over once `Send` or `Recv` has reported an error;
no `Send` succeeds after that. The history has the envelopes that were sent. -/
structure NodeStreamer where
  targetIP : String
  envelopeCh : List RemoteEnvelope
  callbackMap : ShardedCallbackMap
  cancelled : Bool
  stopped : Bool
  dead : Bool
  ended : Bool
  flusher : Flusher
  receiver : Receiver
  failure : Failure
  sent : List RemoteEnvelope

/-- A streamer as `NewNodeStreamer` makes it. -/
def newNodeStreamer (ip : String) : NodeStreamer where
  targetIP := ip
  envelopeCh := []
  callbackMap := .new
  cancelled := false
  stopped := false
  dead := false
  ended := false
  flusher := .select []
  receiver := .loop []
  failure := .unstarted
  sent := []

/-- An identity that has not been given to a streamer yet. -/
def NodeStreamer.unused : NodeStreamer :=
  { newNodeStreamer "" with
    ended := true, flusher := .returned, receiver := .returned, failure := .done }

/-- `FailAll` holds the lock of the request's shard. -/
def NodeStreamer.locked (ns : NodeStreamer) (reqID : UInt64) : Bool :=
  match ns.failure with
  | .scan _ i => shardIdx reqID = i
  | _ => false

/-- One call of `dispatchEnvelope` whose target is known. -/
structure Dispatch where
  env : RemoteEnvelope
  entry : CallbackEntry
  targetIP : String
  attempts : Nat
  deriving DecidableEq

/-- Where `dispatchEnvelope` stands in its loop. The stages up to `publish` are
those of `getStreamer`; from `reload` on the mutex is held. -/
inductive Stage where
  | load
  | check (a : Nat)
  | evict (a : Nat)
  | lock
  | reload
  | recheck (a : Nat)
  | reevict (a : Nat)
  | create
  | publish (a : Nat)
  | store (a : Nat)
  | select (a : Nat)
  | drop (a : Nat)
  deriving DecidableEq

/-- Where a caller stands. -/
inductive Caller where
  | idle
  | resolve (env : RemoteEnvelope) (entry : CallbackEntry)
  | dispatch (d : Dispatch) (stage : Stage)
  | giveUp (env : RemoteEnvelope) (entry : CallbackEntry) (code : ErrorCode) (msg : String)
  | wait (env : RemoteEnvelope) (ch : Nat)
  | expire (env : RemoteEnvelope) (todo : List String)
  | expireDelete (env : RemoteEnvelope) (todo : List String) (a : Nat)
  deriving DecidableEq

/-- Where `StopAll` stands. -/
inductive Stopper where
  | uncalled
  | range (todo : List String)
  | check (todo : List String) (a : Nat)
  | await (todo : List String) (a : Nat) (cancel : Bool)
  | returned
  deriving DecidableEq

/-- What is put on a stream, and what becomes of a callback: `FailAll` has failed
it, or a result has been handed to it. -/
inductive Event where
  | sent (a : Nat) (reqID : UInt64)
  | failed (reqID : UInt64) (respCh : Option Nat)
  | answered (res : RemoteResult) (respCh : Option Nat)
  deriving DecidableEq

/-- The state of the client. Response channels hold one result. The history has
the calls made so far, and the events. -/
structure ClientState where
  streamers : String → Option Nat
  mu : Option Nat
  streamer : Nat → NodeStreamer
  created : Nat
  caller : Nat → Caller
  stopper : Stopper
  respCh : Nat → Option RemoteResult
  opened : Nat
  reqSent : UInt64
  respRecv : UInt64
  errCount : UInt64
  errBreakdown : String → UInt64
  issued : List (UInt64 × CallbackEntry)
  log : List Event
  returned : List RemoteResult

/-- The client as `NewRouter` makes it. -/
def newClient : ClientState where
  streamers _ := none
  mu := none
  streamer _ := .unused
  created := 0
  caller _ := .idle
  stopper := .uncalled
  respCh _ := none
  opened := 0
  reqSent := 0
  respRecv := 0
  errCount := 0
  errBreakdown _ := 0
  issued := []
  log := []
  returned := []

/-- A result made by the client itself. -/
def syntheticResult (env : RemoteEnvelope) (errCode : ErrorCode) (errMsg : String) :
    RemoteResult where
  tenantId := env.tenantId
  uid := env.uid
  txId := env.txId
  requestId := env.requestId
  opCode := env.opCode
  success := false
  errorCode := some errCode
  errorMsg := errMsg
  payload := []

/-- The result that `FailAll` delivers. Only the request is identified. -/
def failedResult (reqID : UInt64) (errCode : ErrorCode) : RemoteResult where
  tenantId := 0
  uid := 0
  txId := ""
  requestId := reqID
  opCode := 0
  success := false
  errorCode := some errCode
  errorMsg := errCode.text
  payload := []

/-- What a failure reported by the server is counted under. -/
def errKey (res : RemoteResult) : String :=
  let code := (res.errorCode.map ErrorCode.text).getD ""
  if res.errorMsg ≠ "" then code ++ " (" ++ res.errorMsg ++ ")" else code

end ActorCluster.Client
