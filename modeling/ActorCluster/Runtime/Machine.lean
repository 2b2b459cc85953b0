import ActorCluster.Foundation.Transition
import ActorCluster.Runtime.Mailbox
import Mathlib.Logic.Function.Basic

/-! # The actor runtime

Any number of actors and goroutines over one heap of queue nodes and one pool.
Each action is one atomic step of `Send`, `SendEnvelope`, `GetEnvelope`,
`PutEnvelope`, `Stop`, `Start`, `Drain` or of an actor's `loop`, with the local
variables of the goroutine as its operands. Atomic operations are sequentially
consistent. Every actor identity counts as constructed from the beginning; its
dummy node is known to nobody else before its first use.
-/

namespace ActorCluster.Runtime

open Transition

/-- The address of a queue node: the dummy made by `New`, or the `n`-th node
made by the pool. -/
inductive Addr where
  | dummy (a : Nat)
  | node (n : Nat)
  deriving DecidableEq, Repr

/-- A node of the intrusive queue. -/
structure Envelope (Msg : Type) where
  msg : Option Msg
  next : Option Addr
  deriving DecidableEq, Repr

/-- The steps of taking an old head out of use. -/
inductive Recycle where
  | count
  | clearMsg
  | clearNext
  | put
  deriving DecidableEq, Repr

/-- Where the goroutine that consumes a mailbox stands. While it recycles the
old head it remembers the node it is about to deliver; `Drain` delivers none. -/
inductive Loop where
  | unstarted
  | dequeue
  | advance (next : Addr)
  | recycle (stage : Recycle) (old : Addr) (qnode : Option Addr)
  | handle (qnode : Addr)
  | release (qnode : Addr)
  | missed
  | exit
  | waiting
  | dead
  | drain (next : Addr)
  deriving DecidableEq, Repr

structure Actor where
  head : Addr
  tail : Addr
  status : Status
  wake : Bool
  loop : Loop
  deriving DecidableEq, Repr

/-- Where a goroutine that uses the runtime stands. A ticket numbers the tail
swaps of one actor; it is carried for the sake of the history only. -/
inductive Thread (Msg : Type) where
  | idle
  | get (a : Nat) (msg : Msg)
  | fill (a : Nat) (msg : Msg) (qnode : Addr)
  | reset (a : Nat) (qnode : Addr)
  | count (a : Nat) (qnode : Addr)
  | swap (a : Nat) (qnode : Addr)
  | link (a : Nat) (qnode prev : Addr) (ticket : Nat)
  | signal (a : Nat) (ticket : Nat)
  | holding (env : Addr)
  | clearNext (env : Addr)
  | put (env : Addr)
  | stop (a : Nat)
  | compareAndSwap (a : Nat) (st : Status)
  | stopSignal (a : Nat)
  deriving DecidableEq, Repr

/-- The shared state, the local states, and the history of each actor: the
messages swapped in, handled and drained, and the tickets whose `Send` has
returned true. -/
structure Machine (Msg : Type) where
  heap : Addr → Envelope Msg
  envelopePool : List Addr
  made : Nat
  processMailboxPending : UInt64
  actor : Nat → Actor
  thread : Nat → Thread Msg
  swaps : Nat → List (Option Msg)
  handled : Nat → List (Option Msg)
  drained : Nat → List (Option Msg)
  returned : Nat → List Nat

inductive Action (Msg : Type) where
  | send (p a : Nat) (msg : Msg)
  | get (p a : Nat) (msg : Msg) (qnode : Addr)
  | fill (p a : Nat) (msg : Msg) (qnode : Addr)
  | reset (p a : Nat) (qnode : Addr)
  | count (p a : Nat) (qnode : Addr)
  | swap (p a : Nat) (qnode : Addr)
  | link (p a : Nat) (qnode prev : Addr) (ticket : Nat)
  | signal (p a : Nat) (ticket : Nat)
  | getEnvelope (p : Nat) (env : Addr)
  | setMsg (p : Nat) (env : Addr) (msg : Option Msg)
  | sendEnvelope (p a : Nat) (env : Addr)
  | putEnvelope (p : Nat) (env : Addr)
  | putClearNext (p : Nat) (env : Addr)
  | poolPut (p : Nat) (env : Addr)
  | callStop (p a : Nat)
  | stop (p a : Nat)
  | compareAndSwap (p a : Nat) (st : Status)
  | stopSignal (p a : Nat)
  | start (a : Nat)
  | peek (a : Nat)
  | advance (a : Nat) (next : Addr)
  | recycle (a : Nat) (stage : Recycle) (old : Addr) (qnode : Option Addr)
  | handle (a : Nat) (qnode : Addr)
  | release (a : Nat) (qnode : Addr)
  | checkStatus (a : Nat)
  | exit (a : Nat)
  | wake (a : Nat)
  | cancel (a : Nat)
  | drainPeek (a : Nat)
  | drain (a : Nat) (next : Addr)
  | poolDrop (env : Addr)
  deriving DecidableEq, Repr

namespace Machine

variable {Msg : Type}

def setThread (s : Machine Msg) (p : Nat) (t : Thread Msg) : Machine Msg :=
  { s with thread := Function.update s.thread p t }

def setActor (s : Machine Msg) (a : Nat) (actor : Actor) : Machine Msg :=
  { s with actor := Function.update s.actor a actor }

def setLoop (s : Machine Msg) (a : Nat) (loop : Loop) : Machine Msg :=
  s.setActor a { s.actor a with loop := loop }

def setEnvelope (s : Machine Msg) (addr : Addr) (env : Envelope Msg) : Machine Msg :=
  { s with heap := Function.update s.heap addr env }

/-- `env.Msg = msg` -/
def storeMsg (s : Machine Msg) (addr : Addr) (msg : Option Msg) : Machine Msg :=
  s.setEnvelope addr { s.heap addr with msg := msg }

/-- `env.next.Store(next)` -/
def storeNext (s : Machine Msg) (addr : Addr) (next : Option Addr) : Machine Msg :=
  s.setEnvelope addr { s.heap addr with next := next }

@[simp] theorem setThread_thread_self (s : Machine Msg) (p : Nat) (t : Thread Msg) :
    (s.setThread p t).thread p = t :=
  Function.update_self _ _ _

theorem setThread_thread_of_ne (s : Machine Msg) {p r : Nat} (t : Thread Msg) (h : r ≠ p) :
    (s.setThread p t).thread r = s.thread r :=
  Function.update_of_ne h _ _

@[simp] theorem setActor_actor_self (s : Machine Msg) (a : Nat) (actor : Actor) :
    (s.setActor a actor).actor a = actor :=
  Function.update_self _ _ _

theorem setActor_actor_of_ne (s : Machine Msg) {a b : Nat} (actor : Actor) (h : b ≠ a) :
    (s.setActor a actor).actor b = s.actor b :=
  Function.update_of_ne h _ _

@[simp] theorem setEnvelope_heap_self (s : Machine Msg) (addr : Addr) (env : Envelope Msg) :
    (s.setEnvelope addr env).heap addr = env :=
  Function.update_self _ _ _

theorem setEnvelope_heap_of_ne (s : Machine Msg) {addr z : Addr} (env : Envelope Msg)
    (h : z ≠ addr) : (s.setEnvelope addr env).heap z = s.heap z :=
  Function.update_of_ne h _ _

/-- `envelopePool.Get` yields some pooled node, or makes a new one. -/
def canGet (s : Machine Msg) (qnode : Addr) : Bool :=
  decide (qnode ∈ s.envelopePool ∨ qnode = .node s.made)

def poolGet (s : Machine Msg) (qnode : Addr) : Machine Msg :=
  { s with
    envelopePool := s.envelopePool.erase qnode
    made := if qnode = .node s.made then s.made + 1 else s.made }

def poolPut (s : Machine Msg) (addr : Addr) : Machine Msg :=
  { s with envelopePool := addr :: s.envelopePool }

/-- `processMailboxPending.Add(delta)` -/
def addPending (s : Machine Msg) (delta : UInt64) : Machine Msg :=
  { s with processMailboxPending := s.processMailboxPending + delta }

section

variable [DecidableEq Msg]

/-- The goroutine or loop that takes the step stands where the step begins. -/
def enabled (s : Machine Msg) : Action Msg → Bool
  | .send p _ _ => s.thread p = .idle
  | .get p a msg qnode => s.thread p = .get a msg && s.canGet qnode
  | .fill p a msg qnode => s.thread p = .fill a msg qnode
  | .reset p a qnode => s.thread p = .reset a qnode
  | .count p a qnode => s.thread p = .count a qnode
  | .swap p a qnode => s.thread p = .swap a qnode
  | .link p a qnode prev ticket => s.thread p = .link a qnode prev ticket
  | .signal p a ticket => s.thread p = .signal a ticket
  | .getEnvelope p env => s.thread p = .idle && s.canGet env
  | .setMsg p env _ => s.thread p = .holding env
  | .sendEnvelope p _ env => s.thread p = .holding env
  | .putEnvelope p env => s.thread p = .holding env
  | .putClearNext p env => s.thread p = .clearNext env
  | .poolPut p env => s.thread p = .put env
  | .callStop p _ => s.thread p = .idle
  | .stop p a => s.thread p = .stop a
  | .compareAndSwap p a st => s.thread p = .compareAndSwap a st
  | .stopSignal p a => s.thread p = .stopSignal a
  | .start a => (s.actor a).status = .init
  | .peek a => (s.actor a).loop = .dequeue
  | .advance a next => (s.actor a).loop = .advance next
  | .recycle a stage old qnode => (s.actor a).loop = .recycle stage old qnode
  | .handle a qnode => (s.actor a).loop = .handle qnode
  | .release a qnode => (s.actor a).loop = .release qnode
  | .checkStatus a => (s.actor a).loop = .missed
  | .exit a => (s.actor a).loop = .exit
  | .wake a => (s.actor a).loop = .waiting && (s.actor a).wake
  | .cancel a => (s.actor a).loop = .waiting
  | .drainPeek a => (s.actor a).loop = .dead
  | .drain a next => (s.actor a).loop = .drain next
  | .poolDrop env => env ∈ s.envelopePool

/-- Each step of `PutEnvelope` on the old head, after the pending count. -/
def recycle (s : Machine Msg) (a : Nat) (old : Addr) (qnode : Option Addr) :
    Recycle → Machine Msg
  | .count => (s.addPending (-1)).setLoop a (.recycle .clearMsg old qnode)
  | .clearMsg => (s.storeMsg old none).setLoop a (.recycle .clearNext old qnode)
  | .clearNext => (s.storeNext old none).setLoop a (.recycle .put old qnode)
  | .put => (s.poolPut old).setLoop a (qnode.elim .dead .handle)

def apply (s : Machine Msg) : Action Msg → Machine Msg
  -- `Send`
  | .send p a msg => s.setThread p (if (s.actor a).status.accepts then .get a msg else .idle)
  | .get p a msg qnode => (s.poolGet qnode).setThread p (.fill a msg qnode)
  | .fill p a msg qnode => (s.storeMsg qnode (some msg)).setThread p (.reset a qnode)
  -- `sendEnvelope`
  | .reset p a qnode => (s.storeNext qnode none).setThread p (.count a qnode)
  | .count p a qnode => (s.addPending 1).setThread p (.swap a qnode)
  | .swap p a qnode =>
      let prev := (s.actor a).tail
      let s' := { s with
        swaps := Function.update s.swaps a (s.swaps a ++ [(s.heap qnode).msg]) }
      (s'.setActor a { s.actor a with tail := qnode }).setThread p
        (.link a qnode prev (s.swaps a).length)
  | .link p a qnode prev ticket => (s.storeNext prev (some qnode)).setThread p (.signal a ticket)
  | .signal p a ticket =>
      let s' := { s with returned := Function.update s.returned a (s.returned a ++ [ticket]) }
      (s'.setActor a { s.actor a with wake := true }).setThread p .idle
  -- `GetEnvelope`, `SendEnvelope` and `PutEnvelope` on a node of one's own
  | .getEnvelope p env => (s.poolGet env).setThread p (.holding env)
  | .setMsg _ env msg => s.storeMsg env msg
  | .sendEnvelope p a env =>
      s.setThread p (if (s.actor a).status.accepts then .reset a env else .holding env)
  | .putEnvelope p env => (s.storeMsg env none).setThread p (.clearNext env)
  | .putClearNext p env => (s.storeNext env none).setThread p (.put env)
  | .poolPut p env => (s.poolPut env).setThread p .idle
  -- `Stop`
  | .callStop p a => s.setThread p (.stop a)
  | .stop p a =>
      s.setThread p
        (if (s.actor a).status.accepts then .compareAndSwap a (s.actor a).status else .idle)
  | .compareAndSwap p a st =>
      let swapped := decide ((s.actor a).status = st)
      (s.setActor a { s.actor a with
          status := if swapped then .stopping else (s.actor a).status }).setThread p
        (if swapped then .stopSignal a else .stop a)
  | .stopSignal p a => (s.setActor a { s.actor a with wake := true }).setThread p .idle
  -- `Start`, `dequeue` and `loop`
  | .start a => s.setActor a { s.actor a with status := .running, loop := .dequeue }
  | .peek a => s.setLoop a ((s.heap (s.actor a).head).next.elim .missed .advance)
  | .advance a next =>
      s.setActor a { s.actor a with
        head := next, loop := .recycle .count (s.actor a).head (some next) }
  | .recycle a stage old qnode => s.recycle a old qnode stage
  | .handle a qnode =>
      { s.setLoop a (.release qnode) with
        handled := Function.update s.handled a (s.handled a ++ [(s.heap qnode).msg]) }
  | .release a qnode => (s.storeMsg qnode none).setLoop a .dequeue
  | .checkStatus a =>
      s.setLoop a (if (s.actor a).status = .stopping then .exit else .waiting)
  | .exit a => s.setActor a { s.actor a with status := .dead, loop := .dead }
  | .wake a => s.setActor a { s.actor a with wake := false, loop := .dequeue }
  | .cancel a => s.setActor a { s.actor a with status := .dead, loop := .dead }
  -- `Drain`
  | .drainPeek a => s.setLoop a ((s.heap (s.actor a).head).next.elim .dead .drain)
  | .drain a next =>
      { (s.storeMsg next none).setActor a { s.actor a with
          head := next, loop := .recycle .count (s.actor a).head none } with
        drained := Function.update s.drained a (s.drained a ++ [(s.heap next).msg]) }
  -- the garbage collector empties pools
  | .poolDrop env => { s with envelopePool := s.envelopePool.erase env }

end

end Machine

/-- Every mailbox is empty, and no pool node has been made. -/
def initial (Msg : Type) : Machine Msg where
  heap _ := ⟨none, none⟩
  envelopePool := []
  made := 0
  processMailboxPending := 0
  actor a := ⟨.dummy a, .dummy a, .init, false, .unstarted⟩
  thread _ := .idle
  swaps _ := []
  handled _ := []
  drained _ := []
  returned _ := []

/-- The runtime with messages of one type. -/
def runtime (Msg : Type) [DecidableEq Msg] : System (Machine Msg) (Action Msg) :=
  System.guarded (initial Msg) Machine.enabled Machine.apply

end ActorCluster.Runtime
