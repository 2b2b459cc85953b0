import ActorCluster.Remote.Message
import Mathlib.Data.List.Infix

/-! # The server side of a stream

`StreamMessages` receives batches and hands them to the handler of the node, one by
one, until the stream ends or something is wrong with a batch.
-/

namespace ActorCluster.Remote

/-- The status codes that the server gives, and those that a handler may give. -/
inductive Code where
  | canceled
  | invalidArgument
  | deadlineExceeded
  | internal
  | unavailable
  | other (code : UInt32)
  deriving DecidableEq, Repr

structure Status where
  code : Code
  message : String
  deriving DecidableEq, Repr

/-- The messages of a status that no result carries. -/
def errBatchTooLarge : String := "ERR_BATCH_TOO_LARGE"

def errInternal : String := "ERR_INTERNAL"

/-- What the handler returns: a status, an error of its context, or any other error. -/
inductive HandlerError where
  | status (st : Status)
  | canceled
  | deadlineExceeded
  | other
  deriving DecidableEq, Repr

def normalizeHandlerError : HandlerError → Status
  | .status st => st
  | .canceled => ⟨.canceled, ErrorCode.transportClosed.text⟩
  | .deadlineExceeded => ⟨.deadlineExceeded, ErrorCode.deadlineExceeded.text⟩
  | .other => ⟨.internal, errInternal⟩

/-- `HandleBatch` on the batch of a stream, after the batches that came before it. -/
abbrev BatchHandler := List (List RemoteEnvelope) → List RemoteEnvelope → Option HandlerError

def defaultMaxBatchSize : Int := 256

/-- The transport adapter. -/
structure Server where
  handler : BatchHandler
  maxBatchSize : Int
  positive : 0 < maxBatchSize

/-- A limit that is not positive stands for the default. -/
def newServer (handler : BatchHandler) (maxBatchSize : Int) : Server :=
  if h : 0 < maxBatchSize then ⟨handler, maxBatchSize, h⟩
  else ⟨handler, defaultMaxBatchSize, by decide⟩

/-- What `Recv` gives. -/
inductive Recv where
  | batch (envelopes : List RemoteEnvelope)
  | nilBatch
  | eof
  | error
  deriving DecidableEq

/-- Where `StreamMessages` stands. -/
inductive StreamState where
  | receiving
  | returned (err : Option Status)
  deriving DecidableEq

/-- The batches that were passed to the handler, and where that has led. -/
structure StreamRun where
  handled : List (List RemoteEnvelope)
  state : StreamState
  deriving DecidableEq

namespace Server

/-- The loop of `StreamMessages`, after the batches that it has passed on. -/
def streamMessages (s : Server) (handled : List (List RemoteEnvelope)) : List Recv → StreamRun
  | [] => ⟨handled, .receiving⟩
  | .eof :: _ => ⟨handled, .returned none⟩
  | .error :: _ => ⟨handled, .returned (some ⟨.unavailable, ErrorCode.transportClosed.text⟩)⟩
  | .nilBatch :: _ => ⟨handled, .returned (some ⟨.invalidArgument, ErrorCode.badRequest.text⟩)⟩
  | .batch envelopes :: rest =>
      if s.maxBatchSize < envelopes.length then
        ⟨handled, .returned (some ⟨.invalidArgument, errBatchTooLarge⟩)⟩
      else
        match s.handler handled envelopes with
        | some err => ⟨handled ++ [envelopes], .returned (some (normalizeHandlerError err))⟩
        | none => s.streamMessages (handled ++ [envelopes]) rest

/-- The handler returns `nil` for each of the batches. -/
def Accepts (s : Server) (handled batches : List (List RemoteEnvelope)) : Prop :=
  ∀ first batch, first ++ [batch] <+: batches → s.handler (handled ++ first) batch = none

/-- Batches within the limit are passed on one by one as long as the handler returns
`nil`. -/
theorem streamMessages_append {s : Server} {handled batches : List (List RemoteEnvelope)}
    (hfits : ∀ batch ∈ batches, (batch.length : Int) ≤ s.maxBatchSize)
    (haccepts : s.Accepts handled batches) (rest : List Recv) :
    s.streamMessages handled (batches.map .batch ++ rest) =
      s.streamMessages (handled ++ batches) rest := by
  induction batches generalizing handled with
  | nil => rw [List.append_nil, List.map_nil, List.nil_append]
  | cons batch batches ih =>
      rw [List.forall_mem_cons] at hfits
      have hnil : s.handler handled batch = none := by
        have hfirst := haccepts [] batch ⟨batches, rfl⟩
        rwa [List.append_nil] at hfirst
      have hrest : s.Accepts (handled ++ [batch]) batches := by
        intro first next hbefore
        rw [List.append_assoc]
        exact haccepts (batch :: first) next (List.cons_prefix_cons.mpr ⟨rfl, hbefore⟩)
      rw [List.map_cons, List.cons_append, streamMessages, if_neg (Int.not_lt.mpr hfits.1), hnil]
      simp only
      rw [ih hfits.2 hrest, List.append_assoc, List.singleton_append]

end Server

end ActorCluster.Remote
