import ActorCluster.Client.State
import ActorCluster.Foundation.Transition

/-! # The steps of the client

Each action is one atomic step of one goroutine, with that goroutine's local
variables as its operands. What comes from outside is an operand as well: the
answers of the resolver, whether a connection is made, and the results that the
server sends. The server answers only envelopes that it has received.
-/

namespace ActorCluster.Client

open Remote Transition

inductive Action where
  -- `EmulateGatewayFlow`, `ExecuteAndWait` and `dispatchEnvelope`
  | emulate (p : Nat) (env : RemoteEnvelope)
  | execute (p : Nat) (env : RemoteEnvelope)
  | resolve (p : Nat) (env : RemoteEnvelope) (entry : CallbackEntry)
      (answer : Except String String)
  | store (p : Nat) (d : Dispatch) (a : Nat)
  | enqueue (p : Nat) (d : Dispatch) (a : Nat)
  | ctxDone (p : Nat) (d : Dispatch) (a : Nat)
  | drop (p : Nat) (d : Dispatch) (a : Nat)
  | giveUp (p : Nat) (env : RemoteEnvelope) (entry : CallbackEntry) (code : ErrorCode)
      (msg : String)
  | receive (p : Nat) (env : RemoteEnvelope) (ch : Nat) (res : RemoteResult)
  | timeout (p : Nat) (env : RemoteEnvelope) (ch : Nat)
  | expireVisit (p : Nat) (env : RemoteEnvelope) (todo : List String) (ip : String)
  | expireDelete (p : Nat) (env : RemoteEnvelope) (todo : List String) (a : Nat)
  | expireReturn (p : Nat) (env : RemoteEnvelope)
  -- `getStreamer`
  | load (p : Nat) (d : Dispatch)
  | check (p : Nat) (d : Dispatch) (a : Nat)
  | evict (p : Nat) (d : Dispatch) (a : Nat)
  | lock (p : Nat) (d : Dispatch)
  | reload (p : Nat) (d : Dispatch)
  | recheck (p : Nat) (d : Dispatch) (a : Nat)
  | reevict (p : Nat) (d : Dispatch) (a : Nat)
  | create (p : Nat) (d : Dispatch) (connected : Bool)
  | publish (p : Nat) (d : Dispatch) (a : Nat)
  -- `flusherLoop`
  | take (a : Nat) (batch : List RemoteEnvelope) (env : RemoteEnvelope)
      (rest : List RemoteEnvelope)
  | tick (a : Nat) (batch : List RemoteEnvelope)
  | stopSeen (a : Nat) (batch : List RemoteEnvelope)
  | cancelSeen (a : Nat) (batch : List RemoteEnvelope)
  | send (a : Nat) (batch : List RemoteEnvelope) (last : Bool)
  | sendErr (a : Nat) (batch : List RemoteEnvelope) (last : Bool)
  | count (a : Nat) (batch : List RemoteEnvelope) (last : Bool)
  | closeSend (a : Nat)
  | flusherReturn (a : Nat)
  -- `receiverLoop`
  | recv (a : Nat) (results : List RemoteResult)
  | recvEOF (a : Nat)
  | recvErr (a : Nat)
  | tally (a : Nat) (res : RemoteResult) (rest : List RemoteResult)
  | demux (a : Nat) (res : RemoteResult) (rest : List RemoteResult)
  | deliver (a : Nat) (res : RemoteResult) (ch : Nat) (rest : List RemoteResult)
  | receiverReturn (a : Nat)
  -- `fail`
  | mark (a : Nat) (code : ErrorCode)
  | evictLoad (a : Nat) (code : ErrorCode)
  | evictDelete (a : Nat) (code : ErrorCode)
  | failLock (a : Nat) (code : ErrorCode) (i : Nat)
  | failEntry (a : Nat) (code : ErrorCode) (i : Nat) (reqID : UInt64) (entry : CallbackEntry)
  | failUnlock (a : Nat) (code : ErrorCode) (i : Nat)
  | closeTransport (a : Nat) (code : ErrorCode)
  -- `StopAll`
  | stopAll
  | stopVisit (todo : List String) (ip : String)
  | stopCheck (todo : List String) (a : Nat)
  | stopDone (todo : List String) (a : Nat) (cancel : Bool)
  | stopReturn

namespace NodeStreamer

/-- A call of `fail`: the first one enters its body. -/
def startFail (ns : NodeStreamer) (code : ErrorCode) : NodeStreamer :=
  if ns.failure = .unstarted then { ns with failure := .mark code } else ns

/-- What the flusher does once it has sent a batch. -/
def afterSend (last : Bool) : Flusher := if last then .closeSend else .select []

end NodeStreamer

/-- What a call does once the envelope is in the channel of a streamer. -/
def Dispatch.accepted (d : Dispatch) : Caller :=
  d.entry.respCh.elim .idle (.wait d.env)

namespace ClientState

def setCaller (s : ClientState) (p : Nat) (c : Caller) : ClientState :=
  { s with caller := Function.update s.caller p c }

def setStreamer (s : ClientState) (a : Nat) (ns : NodeStreamer) : ClientState :=
  { s with streamer := Function.update s.streamer a ns }

def setEntry (s : ClientState) (ip : String) (entry : Option Nat) : ClientState :=
  { s with streamers := Function.update s.streamers ip entry }

/-- `RecordError` -/
def recordError (s : ClientState) (errCode : String) : ClientState :=
  let key := if errCode = "" then "UNKNOWN" else errCode
  { s with errBreakdown := Function.update s.errBreakdown key (s.errBreakdown key + 1) }

/-- `errCount.Add(1)` and `RecordError` -/
def countError (s : ClientState) (errCode : String) : ClientState :=
  { s with errCount := s.errCount + 1 }.recordError errCode

/-- `respCh <- res`, once there is room. -/
def respond (s : ClientState) (ch : Nat) (res : RemoteResult) : ClientState :=
  { s with respCh := Function.update s.respCh ch (some res) }

def setCallbackMap (s : ClientState) (a : Nat) (sm : ShardedCallbackMap) : ClientState :=
  s.setStreamer a { s.streamer a with callbackMap := sm }

def setFlusher (s : ClientState) (a : Nat) (flusher : Flusher) : ClientState :=
  s.setStreamer a { s.streamer a with flusher := flusher }

def setReceiver (s : ClientState) (a : Nat) (receiver : Receiver) : ClientState :=
  s.setStreamer a { s.streamer a with receiver := receiver }

def setFailure (s : ClientState) (a : Nat) (failure : Failure) : ClientState :=
  s.setStreamer a { s.streamer a with failure := failure }

/-- The addresses that have a streamer. -/
def targets (s : ClientState) : List String :=
  ((List.range s.created).filter fun a =>
    s.streamers (s.streamer a).targetIP = some a).map fun a => (s.streamer a).targetIP

/-- The channel can take a result, if there is one. -/
def hasRoom (s : ClientState) (respCh : Option Nat) : Bool :=
  respCh.all fun ch => (s.respCh ch).isNone

/-- The goroutine that takes the step stands where the step begins, and what it
waits for has happened. -/
def enabled (cfg : Config) (s : ClientState) : Action → Bool
  | .emulate p _ => s.caller p = .idle
  | .execute p _ => s.caller p = .idle
  | .resolve p env entry _ => s.caller p = .resolve env entry
  | .store p d a =>
      s.caller p = .dispatch d (.store a) && !(s.streamer a).locked d.env.requestId
  | .enqueue p d a =>
      s.caller p = .dispatch d (.select a) &&
        decide ((s.streamer a).envelopeCh.length < cfg.batchSize * 2)
  | .ctxDone p d a => s.caller p = .dispatch d (.select a) && (s.streamer a).cancelled
  | .drop p d a =>
      s.caller p = .dispatch d (.drop a) && !(s.streamer a).locked d.env.requestId
  | .giveUp p env entry code msg => s.caller p = .giveUp env entry code msg
  | .receive p env ch res => s.caller p = .wait env ch && s.respCh ch = some res
  | .timeout p env ch => s.caller p = .wait env ch
  | .expireVisit p env todo ip => s.caller p = .expire env todo && decide (ip ∈ todo)
  | .expireDelete p env todo a =>
      s.caller p = .expireDelete env todo a && !(s.streamer a).locked env.requestId
  | .expireReturn p env => s.caller p = .expire env []
  | .load p d => s.caller p = .dispatch d .load
  | .check p d a => s.caller p = .dispatch d (.check a)
  | .evict p d a => s.caller p = .dispatch d (.evict a)
  | .lock p d => s.caller p = .dispatch d .lock && s.mu = none
  | .reload p d => s.caller p = .dispatch d .reload
  | .recheck p d a => s.caller p = .dispatch d (.recheck a)
  | .reevict p d a => s.caller p = .dispatch d (.reevict a)
  | .create p d _ => s.caller p = .dispatch d .create
  | .publish p d a => s.caller p = .dispatch d (.publish a)
  | .take a batch env rest =>
      (s.streamer a).flusher = .select batch && (s.streamer a).envelopeCh = env :: rest
  | .tick a batch => (s.streamer a).flusher = .select batch
  | .stopSeen a batch => (s.streamer a).flusher = .select batch && (s.streamer a).stopped
  | .cancelSeen a batch => (s.streamer a).flusher = .select batch && (s.streamer a).cancelled
  | .send a batch last => (s.streamer a).flusher = .send batch last && !(s.streamer a).ended
  | .sendErr a batch last => (s.streamer a).flusher = .send batch last
  | .count a batch last => (s.streamer a).flusher = .count batch last
  | .closeSend a => (s.streamer a).flusher = .closeSend
  | .flusherReturn a => (s.streamer a).flusher = .failing && (s.streamer a).failure = .done
  | .recv a results =>
      (s.streamer a).receiver = .loop [] && results.all fun res =>
        (s.streamer a).sent.any fun env => env.requestId = res.requestId
  | .recvEOF a => (s.streamer a).receiver = .loop []
  | .recvErr a => (s.streamer a).receiver = .loop []
  | .tally a res rest => (s.streamer a).receiver = .loop (res :: rest)
  | .demux a res rest =>
      (s.streamer a).receiver = .demux res rest && !(s.streamer a).locked res.requestId
  | .deliver a res ch rest =>
      (s.streamer a).receiver = .deliver res ch rest && s.hasRoom (some ch)
  | .receiverReturn a => (s.streamer a).receiver = .failing && (s.streamer a).failure = .done
  | .mark a code => (s.streamer a).failure = .mark code
  | .evictLoad a code => (s.streamer a).failure = .load code
  | .evictDelete a code => (s.streamer a).failure = .evict code
  | .failLock a code i => (s.streamer a).failure = .lock code i && decide (i < shardCount)
  | .failEntry a code i reqID entry =>
      (s.streamer a).failure = .scan code i && decide (shardIdx reqID = i) &&
        (s.streamer a).callbackMap.lookup reqID = some entry && s.hasRoom entry.respCh
  | .failUnlock a code i =>
      (s.streamer a).failure = .scan code i && ((s.streamer a).callbackMap.shards i).entries.isEmpty
  | .closeTransport a code => (s.streamer a).failure = .lock code shardCount
  | .stopAll => s.stopper = .uncalled
  | .stopVisit todo ip => s.stopper = .range todo && decide (ip ∈ todo)
  | .stopCheck todo a => s.stopper = .check todo a
  | .stopDone todo a cancel =>
      s.stopper = .await todo a cancel && (s.streamer a).receiver = .returned
  | .stopReturn => s.stopper = .range []

/-- The caller gets a result back. Only `ExecuteAndWait` hands it on. -/
def returnResult (s : ClientState) (p : Nat) (entry : CallbackEntry) (res : RemoteResult) :
    ClientState :=
  { s with returned := s.returned ++ if entry.respCh.isSome then [res] else [] }.setCaller p .idle

def apply (cfg : Config) (s : ClientState) : Action → ClientState
  | .emulate p env =>
      { s with issued := s.issued ++ [(env.requestId, CallbackEntry.mk none)] }.setCaller p
        (.resolve env ⟨none⟩)
  | .execute p env =>
      { s with
        issued := s.issued ++ [(env.requestId, CallbackEntry.mk (some s.opened))]
        opened := s.opened + 1 }.setCaller p (.resolve env ⟨some s.opened⟩)
  | .resolve p env entry answer =>
      s.setCaller p (match answer with
        | .error err => .giveUp env entry .discovery err
        | .ok targetIP => .dispatch ⟨env, entry, targetIP, 0⟩ .load)
  | .store p d a =>
      (s.setCallbackMap a ((s.streamer a).callbackMap.store d.env.requestId d.entry)).setCaller p
        (.dispatch d (.select a))
  | .enqueue p d a =>
      (s.setStreamer a { s.streamer a with
        envelopeCh := (s.streamer a).envelopeCh ++ [d.env] }).setCaller p d.accepted
  | .ctxDone p d a => s.setCaller p (.dispatch d (.drop a))
  | .drop p d a =>
      (s.setCallbackMap a ((s.streamer a).callbackMap.delete d.env.requestId)).setCaller p
        (if d.attempts + 1 < 2 then .dispatch { d with attempts := d.attempts + 1 } .load
          else .giveUp d.env d.entry .transportClosed ErrorCode.transportClosed.text)
  | .giveUp p env entry code msg =>
      (s.countError code.text).returnResult p entry (syntheticResult env code msg)
  | .receive p _ ch res =>
      { s with
        respCh := Function.update s.respCh ch none
        returned := s.returned ++ [res] }.setCaller p .idle
  | .timeout p env _ =>
      (s.countError ErrorCode.deadlineExceeded.text).setCaller p (.expire env s.targets)
  | .expireVisit p env todo ip =>
      s.setCaller p ((s.streamers ip).elim (.expire env (todo.erase ip)) fun a =>
        .expireDelete env (todo.erase ip) a)
  | .expireDelete p env todo a =>
      (s.setCallbackMap a ((s.streamer a).callbackMap.delete env.requestId)).setCaller p
        (.expire env todo)
  | .expireReturn p env =>
      { s with returned := s.returned ++
          [syntheticResult env .deadlineExceeded "gateway wait timeout"] }.setCaller p .idle
  | .load p d => s.setCaller p (.dispatch d ((s.streamers d.targetIP).elim .lock .check))
  | .check p d a =>
      s.setCaller p (.dispatch d (if (s.streamer a).dead then .evict a else .store a))
  | .evict p d _ => (s.setEntry d.targetIP none).setCaller p (.dispatch d .lock)
  | .lock p d => { s with mu := some p }.setCaller p (.dispatch d .reload)
  | .reload p d => s.setCaller p (.dispatch d ((s.streamers d.targetIP).elim .create .recheck))
  | .recheck p d a =>
      -- the mutex is released on return
      { s with mu := if (s.streamer a).dead then s.mu else none }.setCaller p
        (.dispatch d (if (s.streamer a).dead then .reevict a else .store a))
  | .reevict p d _ => (s.setEntry d.targetIP none).setCaller p (.dispatch d .create)
  | .create p d connected =>
      if connected then
        { s.setStreamer s.created (newNodeStreamer d.targetIP) with
          created := s.created + 1 }.setCaller p (.dispatch d (.publish s.created))
      else
        { s with mu := none }.setCaller p
          (.giveUp d.env d.entry .connection ErrorCode.connection.text)
  | .publish p d a =>
      { s.setEntry d.targetIP (some a) with mu := none }.setCaller p (.dispatch d (.store a))
  | .take a batch env rest =>
      s.setStreamer a { s.streamer a with
        envelopeCh := rest
        flusher := if cfg.batchSize ≤ (batch ++ [env]).length then .send (batch ++ [env]) false
          else .select (batch ++ [env]) }
  | .tick a batch => s.setFlusher a (if batch = [] then .select [] else .send batch false)
  | .stopSeen a batch => s.setFlusher a (if batch = [] then .closeSend else .send batch true)
  | .cancelSeen a _ => s.setFlusher a .returned
  | .send a batch last =>
      { s.setStreamer a { s.streamer a with
          sent := (s.streamer a).sent ++ batch, flusher := .count batch last } with
        log := s.log ++ batch.map fun env => .sent a env.requestId }
  | .sendErr a _ _ =>
      s.setStreamer a
        ({ s.streamer a with ended := true, flusher := .failing }.startFail .transportClosed)
  | .count a batch last =>
      { s with reqSent := s.reqSent + UInt64.ofNat batch.length }.setFlusher a
        (NodeStreamer.afterSend last)
  | .closeSend a => s.setFlusher a .returned
  | .flusherReturn a => s.setFlusher a .returned
  | .recv a results => s.setReceiver a (.loop results)
  | .recvEOF a =>
      s.setStreamer a (if (s.streamer a).cancelled
        then { s.streamer a with ended := true, receiver := .returned }
        else { s.streamer a with ended := true, receiver := .failing }.startFail .transportClosed)
  | .recvErr a =>
      s.setStreamer a
        ({ s.streamer a with ended := true, receiver := .failing }.startFail .streamInterrupted)
  | .tally a res rest =>
      (if res.success then { s with respRecv := s.respRecv + 1 }
        else s.countError (errKey res)).setReceiver a (.demux res rest)
  | .demux a res rest =>
      match (s.streamer a).callbackMap.lookup res.requestId with
      | none => s.setReceiver a (.loop rest)
      | some ⟨none⟩ =>
          { s.setStreamer a { s.streamer a with
              callbackMap := (s.streamer a).callbackMap.delete res.requestId
              receiver := .loop rest } with
            log := s.log ++ [Event.answered res none] }
      | some ⟨some ch⟩ =>
          s.setStreamer a { s.streamer a with
            callbackMap := (s.streamer a).callbackMap.delete res.requestId
            receiver := .deliver res ch rest }
  | .deliver a res ch rest =>
      { (s.respond ch res).setReceiver a (.loop rest) with
        log := s.log ++ [Event.answered res (some ch)] }
  | .receiverReturn a => s.setReceiver a .returned
  | .mark a code => s.setStreamer a { s.streamer a with dead := true, failure := .load code }
  | .evictLoad a code =>
      s.setFailure a (if s.streamers (s.streamer a).targetIP = some a then .evict code
        else .lock code 0)
  | .evictDelete a code =>
      (s.setEntry (s.streamer a).targetIP none).setFailure a (.lock code 0)
  | .failLock a code i => s.setFailure a (.scan code i)
  | .failEntry a code _ reqID entry =>
      let s := (s.countError code.text).setCallbackMap a
        ((s.streamer a).callbackMap.delete reqID)
      { entry.respCh.elim s fun ch => s.respond ch (failedResult reqID code) with
        log := s.log ++ [Event.failed reqID entry.respCh] }
  | .failUnlock a code i => s.setFailure a (.lock code (i + 1))
  | .closeTransport a _ =>
      s.setStreamer a { s.streamer a with cancelled := true, failure := .done }
  | .stopAll => { s with stopper := .range s.targets }
  | .stopVisit todo ip =>
      { s with stopper := (s.streamers ip).elim (.range (todo.erase ip)) fun a =>
          .check (todo.erase ip) a }
  | .stopCheck todo a =>
      { s.setStreamer a { s.streamer a with
          stopped := (s.streamer a).stopped || !(s.streamer a).dead } with
        stopper := .await todo a !(s.streamer a).dead }
  | .stopDone todo a cancel =>
      { s.setStreamer a { s.streamer a with
          cancelled := (s.streamer a).cancelled || cancel } with stopper := .range todo }
  | .stopReturn => { s with stopper := .returned }

end ClientState

/-- The client with its environment. -/
def client (cfg : Config) : System ClientState Action :=
  System.guarded newClient (ClientState.enabled cfg) (ClientState.apply cfg)

end ActorCluster.Client
