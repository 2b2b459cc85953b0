/-! # Wire messages

The envelopes and results that cross a gRPC stream, and the stable error codes
carried in a result. The deadline of an envelope is read by no component and is
left out.
-/

namespace ActorCluster.Remote

/-- The error codes of a result. The last five are made by the client. -/
inductive ErrorCode where
  | badRequest
  | wrongNode
  | rehydrationFailed
  | nodeOverloaded
  | invalidPayload
  | insufficientFunds
  | persistenceFailed
  | transportClosed
  | deadlineExceeded
  | discovery
  | connection
  | streamInterrupted
  deriving DecidableEq, Repr

/-- The literal sent on the wire. -/
def ErrorCode.text : ErrorCode → String
  | .badRequest => "ERR_BAD_REQUEST"
  | .wrongNode => "ERR_WRONG_NODE"
  | .rehydrationFailed => "ERR_REHYDRATION_FAILED"
  | .nodeOverloaded => "ERR_NODE_OVERLOADED"
  | .invalidPayload => "ERR_INVALID_PAYLOAD"
  | .insufficientFunds => "ERR_INSUFFICIENT_FUNDS"
  | .persistenceFailed => "ERR_PERSISTENCE_FAILED"
  | .transportClosed => "ERR_TRANSPORT_CLOSED"
  | .deadlineExceeded => "ERR_DEADLINE_EXCEEDED"
  | .discovery => "ERR_DISCOVERY"
  | .connection => "ERR_CONNECTION"
  | .streamInterrupted => "ERR_STREAM_INTERRUPTED"

theorem ErrorCode.text_injective : Function.Injective ErrorCode.text := by
  intro first second h
  cases first <;> cases second <;> first | rfl | exact absurd h (by decide)

/-- A request addressed to the actor of `(tenantId, uid)`. -/
structure RemoteEnvelope where
  tenantId : Int32
  uid : Int64
  txId : String
  requestId : UInt64
  opCode : Int32
  payload : List UInt8
  deriving DecidableEq, Repr

/-- The answer to one envelope. A successful result carries no error code. -/
structure RemoteResult where
  tenantId : Int32
  uid : Int64
  txId : String
  requestId : UInt64
  opCode : Int32
  success : Bool
  errorCode : Option ErrorCode
  errorMsg : String
  payload : List UInt8
  deriving DecidableEq, Repr

end ActorCluster.Remote
