import ActorCluster.Client.Step

/-! # What one step does to a caller and to a streamer

Whatever goroutine takes a step, each caller and each streamer makes one of a few
moves. Facts about single callers and streamers are proved from the moves; the
steps are not inspected again.
-/

namespace ActorCluster.Client

open Remote Transition
open scoped List

/-- The ways in which a call goes on with its attempt. -/
inductive StageMove (s : ClientState) (action : Action) (p : Nat) (d : Dispatch) :
    Stage → Stage → Prop
  | found (a : Nat) (haction : action = .load p d) (hentry : s.streamers d.targetIP = some a) :
      StageMove s action p d .load (.check a)
  | missing (haction : action = .load p d) : StageMove s action p d .load .lock
  | alive (a : Nat) (haction : action = .check p d a) :
      StageMove s action p d (.check a) (.store a)
  | dead (a : Nat) (haction : action = .check p d a) (hdead : (s.streamer a).dead = true) :
      StageMove s action p d (.check a) (.evict a)
  | evict (a : Nat) (haction : action = .evict p d a) : StageMove s action p d (.evict a) .lock
  | lock (haction : action = .lock p d) : StageMove s action p d .lock .reload
  | refound (a : Nat) (haction : action = .reload p d)
      (hentry : s.streamers d.targetIP = some a) : StageMove s action p d .reload (.recheck a)
  | remissing (haction : action = .reload p d) (hentry : s.streamers d.targetIP = none) :
      StageMove s action p d .reload .create
  | realive (a : Nat) (haction : action = .recheck p d a) :
      StageMove s action p d (.recheck a) (.store a)
  | redead (a : Nat) (haction : action = .recheck p d a) (hdead : (s.streamer a).dead = true) :
      StageMove s action p d (.recheck a) (.reevict a)
  | reevict (a : Nat) (haction : action = .reevict p d a) :
      StageMove s action p d (.reevict a) .create
  | create (haction : action = .create p d true) :
      StageMove s action p d .create (.publish s.created)
  | publish (a : Nat) (haction : action = .publish p d a) :
      StageMove s action p d (.publish a) (.store a)
  | store (a : Nat) (haction : action = .store p d a) :
      StageMove s action p d (.store a) (.select a)
  | ctxDone (a : Nat) (haction : action = .ctxDone p d a)
      (hcancelled : (s.streamer a).cancelled = true) : StageMove s action p d (.select a) (.drop a)

/-- The ways in which a caller changes in one step of the client. -/
inductive CallerMove (s : ClientState) (action : Action) (p : Nat) : Caller → Prop
  | stay : CallerMove s action p (s.caller p)
  | emulate (env : RemoteEnvelope) (haction : action = .emulate p env) (hp : s.caller p = .idle) :
      CallerMove s action p (.resolve env ⟨none⟩)
  | execute (env : RemoteEnvelope) (haction : action = .execute p env) (hp : s.caller p = .idle) :
      CallerMove s action p (.resolve env ⟨some s.opened⟩)
  | resolved (env : RemoteEnvelope) (entry : CallbackEntry) (targetIP : String)
      (hp : s.caller p = .resolve env entry) :
      CallerMove s action p (.dispatch ⟨env, entry, targetIP, 0⟩ .load)
  | unresolved (env : RemoteEnvelope) (entry : CallbackEntry) (err : String)
      (hp : s.caller p = .resolve env entry) :
      CallerMove s action p (.giveUp env entry .discovery err)
  | go (d : Dispatch) (stage stage' : Stage) (hp : s.caller p = .dispatch d stage)
      (hmove : StageMove s action p d stage stage') : CallerMove s action p (.dispatch d stage')
  | refused (d : Dispatch) (haction : action = .create p d false)
      (hp : s.caller p = .dispatch d .create) :
      CallerMove s action p (.giveUp d.env d.entry .connection ErrorCode.connection.text)
  | enqueue (d : Dispatch) (a : Nat) (haction : action = .enqueue p d a)
      (hp : s.caller p = .dispatch d (.select a)) : CallerMove s action p d.accepted
  | retry (d : Dispatch) (a : Nat) (haction : action = .drop p d a)
      (hp : s.caller p = .dispatch d (.drop a)) :
      CallerMove s action p (.dispatch { d with attempts := d.attempts + 1 } .load)
  | surrender (d : Dispatch) (a : Nat) (haction : action = .drop p d a)
      (hp : s.caller p = .dispatch d (.drop a)) :
      CallerMove s action p
        (.giveUp d.env d.entry .transportClosed ErrorCode.transportClosed.text)
  | giveUp (env : RemoteEnvelope) (entry : CallbackEntry) (code : ErrorCode) (msg : String)
      (hp : s.caller p = .giveUp env entry code msg) : CallerMove s action p .idle
  | receive (env : RemoteEnvelope) (ch : Nat) (hp : s.caller p = .wait env ch) :
      CallerMove s action p .idle
  | timeout (env : RemoteEnvelope) (ch : Nat) (hp : s.caller p = .wait env ch) :
      CallerMove s action p (.expire env s.targets)
  | visit (env : RemoteEnvelope) (todo rest : List String) (a : Nat)
      (hp : s.caller p = .expire env todo) : CallerMove s action p (.expireDelete env rest a)
  | skip (env : RemoteEnvelope) (todo rest : List String) (hp : s.caller p = .expire env todo) :
      CallerMove s action p (.expire env rest)
  | expire (env : RemoteEnvelope) (todo : List String) (a : Nat)
      (hp : s.caller p = .expireDelete env todo a) : CallerMove s action p (.expire env todo)
  | expired (env : RemoteEnvelope) (hp : s.caller p = .expire env []) :
      CallerMove s action p .idle

namespace ClientState

variable {cfg : Config} {s : ClientState} {action : Action}

theorem callerMove_update {p : Nat} {c : Caller} (h : CallerMove s action p c) (q : Nat) :
    CallerMove s action q (Function.update s.caller p c q) := by
  by_cases hq : q = p
  · subst hq
    rwa [Function.update_self]
  · rw [Function.update_of_ne hq]
    exact .stay

/-- Every step makes one move of every caller. -/
theorem callerMove_apply (henabled : s.enabled cfg action = true) (q : Nat) :
    CallerMove s action q ((s.apply cfg action).caller q) := by
  have hgo {p : Nat} {d : Dispatch} {stage stage' : Stage} (hp : s.caller p = .dispatch d stage)
      (hmove : StageMove s action p d stage stage') :
      CallerMove s action q (Function.update s.caller p (.dispatch d stage') q) :=
    callerMove_update (.go d stage stage' hp hmove) q
  cases action with
  | emulate p env =>
      exact callerMove_update (.emulate env rfl (by simpa [enabled] using henabled)) q
  | execute p env =>
      exact callerMove_update (.execute env rfl (by simpa [enabled] using henabled)) q
  | resolve p env entry answer =>
      have hp : s.caller p = .resolve env entry := by simpa [enabled] using henabled
      cases answer with
      | error err => exact callerMove_update (.unresolved env entry err hp) q
      | ok targetIP => exact callerMove_update (.resolved env entry targetIP hp) q
  | store p d a =>
      have hp := henabled
      simp only [enabled, Bool.and_eq_true, decide_eq_true_eq] at hp
      exact hgo hp.1 (.store a rfl)
  | enqueue p d a =>
      have hp := henabled
      simp only [enabled, Bool.and_eq_true, decide_eq_true_eq] at hp
      exact callerMove_update (.enqueue d a rfl hp.1) q
  | ctxDone p d a =>
      have hp := henabled
      simp only [enabled, Bool.and_eq_true, decide_eq_true_eq] at hp
      exact hgo hp.1 (.ctxDone a rfl hp.2)
  | drop p d a =>
      have hp := henabled
      simp only [enabled, Bool.and_eq_true, decide_eq_true_eq] at hp
      refine callerMove_update (p := p) ?_ q
      split
      · exact .retry d a rfl hp.1
      · exact .surrender d a rfl hp.1
  | giveUp p env entry code msg =>
      have hp : s.caller p = .giveUp env entry code msg := by simpa [enabled] using henabled
      exact callerMove_update (.giveUp env entry code msg hp) q
  | receive p env ch res =>
      have hp := henabled
      simp only [enabled, Bool.and_eq_true, decide_eq_true_eq] at hp
      exact callerMove_update (.receive env ch hp.1) q
  | timeout p env ch =>
      have hp : s.caller p = .wait env ch := by simpa [enabled] using henabled
      exact callerMove_update (.timeout env ch hp) q
  | expireVisit p env todo ip =>
      have hp := henabled
      simp only [enabled, Bool.and_eq_true, decide_eq_true_eq] at hp
      refine callerMove_update (p := p) ?_ q
      cases s.streamers ip with
      | none => exact .skip env todo _ hp.1
      | some a => exact .visit env todo _ a hp.1
  | expireDelete p env todo a =>
      have hp := henabled
      simp only [enabled, Bool.and_eq_true, decide_eq_true_eq] at hp
      exact callerMove_update (.expire env todo a hp.1) q
  | expireReturn p env =>
      have hp : s.caller p = .expire env [] := by simpa [enabled] using henabled
      exact callerMove_update (.expired env hp) q
  | load p d =>
      have hp : s.caller p = .dispatch d .load := by simpa [enabled] using henabled
      refine hgo hp ?_
      cases hentry : s.streamers d.targetIP with
      | none => exact .missing rfl
      | some a => exact .found a rfl hentry
  | check p d a =>
      have hp : s.caller p = .dispatch d (.check a) := by simpa [enabled] using henabled
      refine hgo hp ?_
      split
      next hdead => exact .dead a rfl hdead
      next => exact .alive a rfl
  | evict p d a =>
      exact hgo (by simpa [enabled] using henabled) (.evict a rfl)
  | lock p d =>
      have hp := henabled
      simp only [enabled, Bool.and_eq_true, decide_eq_true_eq] at hp
      exact hgo hp.1 (.lock rfl)
  | reload p d =>
      have hp : s.caller p = .dispatch d .reload := by simpa [enabled] using henabled
      refine hgo hp ?_
      cases hentry : s.streamers d.targetIP with
      | none => exact .remissing rfl hentry
      | some a => exact .refound a rfl hentry
  | recheck p d a =>
      have hp : s.caller p = .dispatch d (.recheck a) := by simpa [enabled] using henabled
      refine hgo hp ?_
      split
      next hdead => exact .redead a rfl hdead
      next => exact .realive a rfl
  | reevict p d a =>
      exact hgo (by simpa [enabled] using henabled) (.reevict a rfl)
  | create p d connected =>
      have hp : s.caller p = .dispatch d .create := by simpa [enabled] using henabled
      cases connected with
      | true => exact hgo hp (.create rfl)
      | false => exact callerMove_update (.refused d rfl hp) q
  | publish p d a =>
      exact hgo (by simpa [enabled] using henabled) (.publish a rfl)
  | tally a res rest =>
      simp only [apply]
      split <;> exact .stay
  | demux a res rest =>
      simp only [apply]
      split <;> exact .stay
  | failEntry a code i reqID entry =>
      obtain ⟨_ | ch⟩ := entry <;> exact .stay
  | _ => exact .stay

end ClientState

/-- The envelopes in the hands of the flusher. -/
def Flusher.batch : Flusher → List RemoteEnvelope
  | .select batch | .send batch _ => batch
  | _ => []

/-- The results in the hands of the receiver. -/
def Receiver.pending : Receiver → List RemoteResult
  | .loop rest => rest
  | .demux res rest | .deliver res _ rest => res :: rest
  | _ => []

/-- The result that the receiver is delivering, and its channel. -/
def Receiver.delivering : Receiver → Option (RemoteResult × Nat)
  | .deliver res ch _ => some (res, ch)
  | _ => none

/-- The ways in which the body of `fail` goes on. -/
inductive FailureMove (s : ClientState) (action : Action) (a : Nat) : Failure → Failure → Prop
  | found (code : ErrorCode) : FailureMove s action a (.load code) (.evict code)
  | missing (code : ErrorCode) : FailureMove s action a (.load code) (.lock code 0)
  | evict (code : ErrorCode) (haction : action = .evictDelete a code) :
      FailureMove s action a (.evict code) (.lock code 0)
  | lock (code : ErrorCode) (i : Nat) (hi : i < shardCount) :
      FailureMove s action a (.lock code i) (.scan code i)
  | unlock (code : ErrorCode) (i : Nat) (hempty : (s.streamer a).callbackMap.shards i = ∅) :
      FailureMove s action a (.scan code i) (.lock code (i + 1))

/-- The ways in which a streamer changes in one step of the client. -/
inductive StreamerMove (s : ClientState) (action : Action) (a : Nat) : NodeStreamer → Prop
  | stay : StreamerMove s action a (s.streamer a)
  | create (p : Nat) (d : Dispatch) (haction : action = .create p d true)
      (hp : s.caller p = .dispatch d .create) (hfresh : a = s.created) :
      StreamerMove s action a (newNodeStreamer d.targetIP)
  | store (p : Nat) (d : Dispatch) (haction : action = .store p d a)
      (hp : s.caller p = .dispatch d (.store a))
      (hfree : (s.streamer a).locked d.env.requestId = false) :
      StreamerMove s action a { s.streamer a with
        callbackMap := (s.streamer a).callbackMap.store d.env.requestId d.entry }
  | enqueue (p : Nat) (d : Dispatch) (haction : action = .enqueue p d a)
      (hp : s.caller p = .dispatch d (.select a)) :
      StreamerMove s action a { s.streamer a with
        envelopeCh := (s.streamer a).envelopeCh ++ [d.env] }
  | drop (p : Nat) (d : Dispatch) (haction : action = .drop p d a)
      (hp : s.caller p = .dispatch d (.drop a)) :
      StreamerMove s action a { s.streamer a with
        callbackMap := (s.streamer a).callbackMap.delete d.env.requestId }
  | expire (p : Nat) (env : RemoteEnvelope) (todo : List String)
      (hp : s.caller p = .expireDelete env todo a) :
      StreamerMove s action a { s.streamer a with
        callbackMap := (s.streamer a).callbackMap.delete env.requestId }
  | take (batch : List RemoteEnvelope) (env : RemoteEnvelope) (rest : List RemoteEnvelope)
      (flusher : Flusher) (hflusher : (s.streamer a).flusher = .select batch)
      (hch : (s.streamer a).envelopeCh = env :: rest) (hbatch : flusher.batch = batch ++ [env]) :
      StreamerMove s action a { s.streamer a with envelopeCh := rest, flusher := flusher }
  | flusher (flusher : Flusher) (hbatch : flusher.batch <+ (s.streamer a).flusher.batch) :
      StreamerMove s action a { s.streamer a with flusher := flusher }
  | send (batch : List RemoteEnvelope) (last : Bool) (haction : action = .send a batch last)
      (hflusher : (s.streamer a).flusher = .send batch last)
      (hended : (s.streamer a).ended = false) :
      StreamerMove s action a { s.streamer a with
        sent := (s.streamer a).sent ++ batch, flusher := .count batch last }
  | sendErr (code : ErrorCode) :
      StreamerMove s action a
        ({ s.streamer a with ended := true, flusher := .failing }.startFail code)
  | recvErr (code : ErrorCode) :
      StreamerMove s action a
        ({ s.streamer a with ended := true, receiver := .failing }.startFail code)
  | recvEnd (hcancelled : (s.streamer a).cancelled = true) :
      StreamerMove s action a { s.streamer a with ended := true, receiver := .returned }
  | receiver (receiver : Receiver)
      (hpending : ∀ res ∈ receiver.pending, res ∈ (s.streamer a).receiver.pending ∨
        ∃ env ∈ (s.streamer a).sent, env.requestId = res.requestId)
      (hdelivering : receiver.delivering = none)
      (hreturned : receiver = .returned → (s.streamer a).failure = .done) :
      StreamerMove s action a { s.streamer a with receiver := receiver }
  | demux (res : RemoteResult) (rest : List RemoteResult) (entry : CallbackEntry)
      (receiver : Receiver) (haction : action = .demux a res rest)
      (hreceiver : (s.streamer a).receiver = .demux res rest)
      (hlookup : (s.streamer a).callbackMap.lookup res.requestId = some entry)
      (hnext : receiver = entry.respCh.elim (.loop rest) fun ch => .deliver res ch rest) :
      StreamerMove s action a { s.streamer a with
        callbackMap := (s.streamer a).callbackMap.delete res.requestId, receiver := receiver }
  | mark (code : ErrorCode) (hfailure : (s.streamer a).failure = .mark code) :
      StreamerMove s action a { s.streamer a with dead := true, failure := .load code }
  | failure (failure : Failure) (hmove : FailureMove s action a (s.streamer a).failure failure) :
      StreamerMove s action a { s.streamer a with failure := failure }
  | failEntry (code : ErrorCode) (i : Nat) (reqID : UInt64) (entry : CallbackEntry)
      (haction : action = .failEntry a code i reqID entry)
      (hfailure : (s.streamer a).failure = .scan code i) (hi : shardIdx reqID = i)
      (hlookup : (s.streamer a).callbackMap.lookup reqID = some entry) :
      StreamerMove s action a { s.streamer a with
        callbackMap := (s.streamer a).callbackMap.delete reqID }
  | close (code : ErrorCode) (hfailure : (s.streamer a).failure = .lock code shardCount) :
      StreamerMove s action a { s.streamer a with cancelled := true, failure := .done }
  | stop (stopped : Bool) : StreamerMove s action a { s.streamer a with stopped := stopped }
  | cancel (cancel : Bool) (hreceiver : (s.streamer a).receiver = .returned) :
      StreamerMove s action a { s.streamer a with
        cancelled := (s.streamer a).cancelled || cancel }

namespace ClientState

variable {cfg : Config} {s : ClientState} {action : Action}

theorem streamerMove_update {a : Nat} {ns : NodeStreamer} (h : StreamerMove s action a ns)
    (b : Nat) : StreamerMove s action b (Function.update s.streamer a ns b) := by
  by_cases hb : b = a
  · subst hb
    rwa [Function.update_self]
  · rw [Function.update_of_ne hb]
    exact .stay

/-- Every step makes one move of every streamer. -/
theorem streamerMove_apply (henabled : s.enabled cfg action = true) (b : Nat) :
    StreamerMove s action b ((s.apply cfg action).streamer b) := by
  cases action with
  | store p d a =>
      have hp := henabled
      simp only [enabled, Bool.and_eq_true, decide_eq_true_eq, Bool.not_eq_true'] at hp
      exact streamerMove_update (.store p d rfl hp.1 hp.2) b
  | enqueue p d a =>
      have hp := henabled
      simp only [enabled, Bool.and_eq_true, decide_eq_true_eq] at hp
      exact streamerMove_update (.enqueue p d rfl hp.1) b
  | drop p d a =>
      have hp := henabled
      simp only [enabled, Bool.and_eq_true, decide_eq_true_eq] at hp
      exact streamerMove_update (.drop p d rfl hp.1) b
  | expireDelete p env todo a =>
      have hp := henabled
      simp only [enabled, Bool.and_eq_true, decide_eq_true_eq] at hp
      exact streamerMove_update (.expire p env todo hp.1) b
  | create p d connected =>
      have hp : s.caller p = .dispatch d .create := by simpa [enabled] using henabled
      cases connected with
      | true => exact streamerMove_update (.create p d rfl hp rfl) b
      | false => exact .stay
  | take a batch env rest =>
      have ha := henabled
      simp only [enabled, Bool.and_eq_true, decide_eq_true_eq] at ha
      refine streamerMove_update (.take batch env rest _ ha.1 ha.2 ?_) b
      split <;> rfl
  | tick a batch =>
      have ha : (s.streamer a).flusher = .select batch := by simpa [enabled] using henabled
      refine streamerMove_update (.flusher _ ?_) b
      rw [ha]
      split
      next h => rw [h]
      next => exact List.Sublist.refl _
  | stopSeen a batch =>
      have ha := henabled
      simp only [enabled, Bool.and_eq_true, decide_eq_true_eq] at ha
      refine streamerMove_update (.flusher _ ?_) b
      rw [ha.1]
      split
      next => exact List.nil_sublist _
      next => exact List.Sublist.refl _
  | cancelSeen a _ | closeSend a | flusherReturn a =>
      exact streamerMove_update (.flusher .returned (List.nil_sublist _)) b
  | count a batch last =>
      refine streamerMove_update (.flusher _ ?_) b
      cases last <;> exact List.nil_sublist _
  | send a batch last =>
      have ha := henabled
      simp only [enabled, Bool.and_eq_true, decide_eq_true_eq, Bool.not_eq_true'] at ha
      exact streamerMove_update (.send batch last rfl ha.1 ha.2) b
  | sendErr a batch last => exact streamerMove_update (.sendErr _) b
  | recv a results =>
      have ha := henabled
      simp only [enabled, Bool.and_eq_true, decide_eq_true_eq, List.all_eq_true,
        List.any_eq_true] at ha
      exact streamerMove_update (.receiver (.loop results) (fun res hres => .inr (ha.2 res hres))
        rfl Receiver.noConfusion) b
  | recvEOF a =>
      refine streamerMove_update (a := a) ?_ b
      split
      next hcancelled => exact .recvEnd hcancelled
      next => exact .recvErr _
  | recvErr a => exact streamerMove_update (.recvErr _) b
  | tally a res rest =>
      have ha : (s.streamer a).receiver = .loop (res :: rest) := by
        simpa [enabled] using henabled
      have hmove : StreamerMove s (.tally a res rest) a
          { s.streamer a with receiver := .demux res rest } :=
        .receiver _ (fun other hother => .inl (by rw [ha]; exact hother)) rfl Receiver.noConfusion
      simp only [apply]
      split <;> exact streamerMove_update hmove b
  | demux a res rest =>
      have ha := henabled
      simp only [enabled, Bool.and_eq_true, decide_eq_true_eq] at ha
      simp only [apply]
      split
      next =>
        refine streamerMove_update (.receiver _ (fun other hother => .inl ?_) rfl
          Receiver.noConfusion) b
        rw [ha.1]
        exact List.mem_cons_of_mem _ hother
      next hlookup => exact streamerMove_update (.demux res rest ⟨none⟩ _ rfl ha.1 hlookup rfl) b
      next ch hlookup =>
        exact streamerMove_update (.demux res rest ⟨some ch⟩ _ rfl ha.1 hlookup rfl) b
  | deliver a res ch rest =>
      have ha := henabled
      simp only [enabled, Bool.and_eq_true, decide_eq_true_eq] at ha
      refine streamerMove_update (.receiver _ (fun other hother => .inl ?_) rfl
        Receiver.noConfusion) b
      rw [ha.1]
      exact List.mem_cons_of_mem _ hother
  | receiverReturn a =>
      have ha := henabled
      simp only [enabled, Bool.and_eq_true, decide_eq_true_eq] at ha
      exact streamerMove_update (.receiver .returned (by simp [Receiver.pending]) rfl
        fun _ => ha.2) b
  | mark a code =>
      exact streamerMove_update (.mark code (by simpa [enabled] using henabled)) b
  | evictLoad a code =>
      have ha : (s.streamer a).failure = .load code := by simpa [enabled] using henabled
      refine streamerMove_update (.failure _ ?_) b
      rw [ha]
      split
      · exact .found code
      · exact .missing code
  | evictDelete a code =>
      have ha : (s.streamer a).failure = .evict code := by simpa [enabled] using henabled
      exact streamerMove_update (.failure _ (ha ▸ .evict code rfl)) b
  | failLock a code i =>
      have ha := henabled
      simp only [enabled, Bool.and_eq_true, decide_eq_true_eq] at ha
      exact streamerMove_update (.failure _ (ha.1 ▸ .lock code i ha.2)) b
  | failEntry a code i reqID entry =>
      have ha := henabled
      simp only [enabled, Bool.and_eq_true, decide_eq_true_eq] at ha
      obtain ⟨⟨⟨hfailure, hi⟩, hlookup⟩, _⟩ := ha
      obtain ⟨_ | ch⟩ := entry <;>
        exact streamerMove_update (.failEntry code i reqID _ rfl hfailure hi hlookup) b
  | failUnlock a code i =>
      have ha := henabled
      simp only [enabled, Bool.and_eq_true, decide_eq_true_eq, List.isEmpty_iff] at ha
      exact streamerMove_update (.failure _ (ha.1 ▸ .unlock code i (AList.ext ha.2))) b
  | closeTransport a code =>
      exact streamerMove_update (.close code (by simpa [enabled] using henabled)) b
  | stopCheck todo a => exact streamerMove_update (.stop _) b
  | stopDone todo a cancel =>
      have ha := henabled
      simp only [enabled, Bool.and_eq_true, decide_eq_true_eq] at ha
      exact streamerMove_update (.cancel cancel ha.2) b
  | _ => exact .stay

end ClientState

section

variable {s : ClientState} {action : Action} {a : Nat} {ns : NodeStreamer}

/-- Nothing but the position of `fail` changes when it is called. -/
theorem NodeStreamer.startFail_eq (ns : NodeStreamer) (code : ErrorCode) :
    ns.startFail code = { ns with failure := (ns.startFail code).failure } := by
  unfold startFail
  split <;> rfl

/-- A callback that is new in the map has been stored by the step. -/
theorem StreamerMove.lookup_back (h : StreamerMove s action a ns) {reqID : UInt64}
    {entry : CallbackEntry} (hns : ns.callbackMap.lookup reqID = some entry) :
    (s.streamer a).callbackMap.lookup reqID = some entry ∨
      ∃ p d, action = .store p d a ∧ s.caller p = .dispatch d (.store a) ∧
        d.env.requestId = reqID ∧ d.entry = entry := by
  cases h with
  | create p d =>
      rw [newNodeStreamer, ShardedCallbackMap.lookup_new] at hns
      cases hns
  | store p d haction hp =>
      by_cases hne : reqID = d.env.requestId
      · subst hne
        rw [ShardedCallbackMap.lookup_store_self, Option.some.injEq] at hns
        exact .inr ⟨p, d, haction, hp, rfl, hns⟩
      · rw [ShardedCallbackMap.lookup_store_of_ne _ hne] at hns
        exact .inl hns
  | drop | expire | demux | failEntry =>
      exact .inl (ShardedCallbackMap.lookup_of_lookup_delete hns).2
  | sendErr code | recvErr code =>
      rw [NodeStreamer.startFail_eq] at hns
      exact .inl hns
  | _ => exact .inl hns

end

/-- The ways in which the entry of an address changes in one step of the client. -/
inductive EntryMove (s : ClientState) (action : Action) (ip : String) : Option Nat → Prop
  | stay : EntryMove s action ip (s.streamers ip)
  | evict (p : Nat) (d : Dispatch) (a : Nat) (haction : action = .evict p d a)
      (hp : s.caller p = .dispatch d (.evict a)) (hip : ip = d.targetIP) :
      EntryMove s action ip none
  | reevict (p : Nat) (d : Dispatch) (a : Nat) (haction : action = .reevict p d a)
      (hp : s.caller p = .dispatch d (.reevict a)) (hip : ip = d.targetIP) :
      EntryMove s action ip none
  | evictDelete (a : Nat) (code : ErrorCode) (haction : action = .evictDelete a code)
      (hfailure : (s.streamer a).failure = .evict code) (hip : ip = (s.streamer a).targetIP) :
      EntryMove s action ip none
  | publish (p : Nat) (d : Dispatch) (a : Nat) (haction : action = .publish p d a)
      (hp : s.caller p = .dispatch d (.publish a)) (hip : ip = d.targetIP) :
      EntryMove s action ip (some a)

/-- The ways in which the mutex changes hands in one step of the client. -/
inductive MutexMove (s : ClientState) (action : Action) : Option Nat → Prop
  | stay : MutexMove s action s.mu
  | lock (p : Nat) (d : Dispatch) (haction : action = .lock p d) (hmu : s.mu = none) :
      MutexMove s action (some p)
  | recheck (p : Nat) (d : Dispatch) (a : Nat) (haction : action = .recheck p d a)
      (hp : s.caller p = .dispatch d (.recheck a)) : MutexMove s action none
  | refused (p : Nat) (d : Dispatch) (haction : action = .create p d false)
      (hp : s.caller p = .dispatch d .create) : MutexMove s action none
  | publish (p : Nat) (d : Dispatch) (a : Nat) (haction : action = .publish p d a)
      (hp : s.caller p = .dispatch d (.publish a)) : MutexMove s action none

namespace ClientState

variable {cfg : Config} {s : ClientState} {action : Action}

theorem entryMove_update {ip : String} {entry : Option Nat} (h : EntryMove s action ip entry)
    (ip' : String) : EntryMove s action ip' (Function.update s.streamers ip entry ip') := by
  by_cases hip : ip' = ip
  · subst hip
    rwa [Function.update_self]
  · rw [Function.update_of_ne hip]
    exact .stay

/-- Every step makes one move of every entry. -/
theorem entryMove_apply (henabled : s.enabled cfg action = true) (ip : String) :
    EntryMove s action ip ((s.apply cfg action).streamers ip) := by
  cases action with
  | evict p d a =>
      exact entryMove_update (.evict p d a rfl (by simpa [enabled] using henabled) rfl) ip
  | reevict p d a =>
      exact entryMove_update (.reevict p d a rfl (by simpa [enabled] using henabled) rfl) ip
  | evictDelete a code =>
      exact entryMove_update (.evictDelete a code rfl (by simpa [enabled] using henabled) rfl) ip
  | publish p d a =>
      exact entryMove_update (.publish p d a rfl (by simpa [enabled] using henabled) rfl) ip
  | create p d connected => cases connected <;> exact .stay
  | tally | demux =>
      simp only [apply]
      split <;> exact .stay
  | failEntry a code i reqID entry =>
      obtain ⟨_ | ch⟩ := entry <;> exact .stay
  | _ => exact .stay

/-- Every step makes one move of the mutex. -/
theorem mutexMove_apply (henabled : s.enabled cfg action = true) :
    MutexMove s action (s.apply cfg action).mu := by
  cases action with
  | lock p d =>
      have hp := henabled
      simp only [enabled, Bool.and_eq_true, decide_eq_true_eq] at hp
      exact .lock p d rfl hp.2
  | recheck p d a =>
      change MutexMove s _ (if (s.streamer a).dead then s.mu else none)
      split
      · exact .stay
      · exact .recheck p d a rfl (by simpa [enabled] using henabled)
  | create p d connected =>
      cases connected with
      | true => exact .stay
      | false => exact .refused p d rfl (by simpa [enabled] using henabled)
  | publish p d a => exact .publish p d a rfl (by simpa [enabled] using henabled)
  | tally | demux =>
      simp only [apply]
      split <;> exact .stay
  | failEntry a code i reqID entry =>
      obtain ⟨_ | ch⟩ := entry <;> exact .stay
  | _ => exact .stay

/-- Identities are given out one after the other. -/
theorem created_apply (cfg : Config) (s : ClientState) (action : Action) :
    (s.apply cfg action).created = s.created ∨
      ∃ p d, action = .create p d true ∧ (s.apply cfg action).created = s.created + 1 := by
  cases action with
  | create p d connected =>
      cases connected with
      | true => exact .inr ⟨p, d, rfl, rfl⟩
      | false => exact .inl rfl
  | tally | demux =>
      simp only [apply]
      split <;> exact .inl rfl
  | failEntry a code i reqID entry =>
      obtain ⟨_ | ch⟩ := entry <;> exact .inl rfl
  | _ => exact .inl rfl

end ClientState

/-- The ways in which the events grow in one step of the client. -/
inductive LogMove (s : ClientState) (action : Action) : List Event → Prop
  | stay : LogMove s action s.log
  | send (a : Nat) (batch : List RemoteEnvelope) (last : Bool)
      (hflusher : (s.streamer a).flusher = .send batch last)
      (hended : (s.streamer a).ended = false) :
      LogMove s action (s.log ++ batch.map fun env => .sent a env.requestId)
  | failed (a : Nat) (code : ErrorCode) (i : Nat) (reqID : UInt64) (entry : CallbackEntry)
      (haction : action = .failEntry a code i reqID entry)
      (hfailure : (s.streamer a).failure = .scan code i)
      (hlookup : (s.streamer a).callbackMap.lookup reqID = some entry) :
      LogMove s action (s.log ++ [Event.failed reqID entry.respCh])
  | answered (a : Nat) (res : RemoteResult) (rest : List RemoteResult)
      (haction : action = .demux a res rest)
      (hreceiver : (s.streamer a).receiver = .demux res rest)
      (hlookup : (s.streamer a).callbackMap.lookup res.requestId = some ⟨none⟩) :
      LogMove s action (s.log ++ [Event.answered res none])
  | delivered (a : Nat) (res : RemoteResult) (ch : Nat) (rest : List RemoteResult)
      (haction : action = .deliver a res ch rest)
      (hreceiver : (s.streamer a).receiver = .deliver res ch rest) :
      LogMove s action (s.log ++ [Event.answered res (some ch)])

/-- The ways in which calls are begun in one step of the client. -/
inductive IssueMove (s : ClientState) (action : Action) :
    List (UInt64 × CallbackEntry) → Nat → Prop
  | stay : IssueMove s action s.issued s.opened
  | emulate (p : Nat) (env : RemoteEnvelope) (haction : action = .emulate p env) :
      IssueMove s action (s.issued ++ [(env.requestId, ⟨none⟩)]) s.opened
  | execute (p : Nat) (env : RemoteEnvelope) (haction : action = .execute p env) :
      IssueMove s action (s.issued ++ [(env.requestId, ⟨some s.opened⟩)]) (s.opened + 1)

namespace ClientState

variable {cfg : Config} {s : ClientState} {action : Action}

/-- Every step makes one move of the events. -/
theorem logMove_apply (henabled : s.enabled cfg action = true) :
    LogMove s action (s.apply cfg action).log := by
  cases action with
  | send a batch last =>
      have ha := henabled
      simp only [enabled, Bool.and_eq_true, decide_eq_true_eq, Bool.not_eq_true'] at ha
      exact .send a batch last ha.1 ha.2
  | demux a res rest =>
      have ha := henabled
      simp only [enabled, Bool.and_eq_true, decide_eq_true_eq] at ha
      simp only [apply]
      split
      next => exact .stay
      next hlookup => exact .answered a res rest rfl ha.1 hlookup
      next => exact .stay
  | deliver a res ch rest =>
      have ha := henabled
      simp only [enabled, Bool.and_eq_true, decide_eq_true_eq] at ha
      exact .delivered a res ch rest rfl ha.1
  | failEntry a code i reqID entry =>
      have ha := henabled
      simp only [enabled, Bool.and_eq_true, decide_eq_true_eq] at ha
      exact .failed a code i reqID entry rfl ha.1.1.1 ha.1.2
  | tally | create =>
      simp only [apply]
      split <;> exact .stay
  | _ => exact .stay

/-- Every step makes one move of the calls begun. -/
theorem issueMove_apply (cfg : Config) (s : ClientState) (action : Action) :
    IssueMove s action (s.apply cfg action).issued (s.apply cfg action).opened := by
  cases action with
  | emulate p env => exact .emulate p env rfl
  | execute p env => exact .execute p env rfl
  | tally | demux | create =>
      simp only [apply]
      split <;> exact .stay
  | failEntry a code i reqID entry =>
      obtain ⟨_ | ch⟩ := entry <;> exact .stay
  | _ => exact .stay

end ClientState

end ActorCluster.Client
