import ActorCluster.Client.Issued
import ActorCluster.Client.Stranded

/-! # A failed request is not sent again

The callback of a request is in the hands of its caller, in the map of one
streamer, or it has been used up: `FailAll` has failed it, or the receiver has
taken it for a result. A caller that sees the cancelled context takes its callback
back from the map, whether or not it is still there. If it is, the request has
not failed, and the second attempt is the only one that can send it. If `FailAll`
has used it up, the second attempt sends a request that was reported as failed.
-/

namespace ActorCluster.Client

open Remote Transition Custody
open scoped List

/-- Request ids are used once, and a call whose context is cancelled still finds
its callback in the map. -/
def FindsCallback (s : ClientState) : Action → Prop
  | .emulate _ env | .execute _ env => env.requestId ∉ s.issued.map Prod.fst
  | .ctxDone _ d a => ((s.streamer a).callbackMap.lookup d.env.requestId).isSome
  | _ => True

instance (s : ClientState) (action : Action) : Decidable (FindsCallback s action) := by
  induction action using Action.casesOn <;> unfold FindsCallback <;> infer_instance

theorem FindsCallback.uniqueIDs {s : ClientState} {action : Action}
    (h : FindsCallback s action) : UniqueIDs s action := by
  cases action with
  | emulate | execute => exact h
  | _ => trivial

/-! ## Streams -/

/-- What holds of every streamer at any time. -/
structure NodeStreamer.Sound (ns : NodeStreamer) : Prop where
  ended : ns.failure ≠ .unstarted → ns.ended = true
  cancelled : ns.cancelled = true → ns.failure = .done
  returned : ns.receiver = .returned → ns.failure = .done
  pending : ∀ res ∈ ns.receiver.pending, ∃ env ∈ ns.sent, env.requestId = res.requestId

theorem NodeStreamer.sound_new (ip : String) : (newNodeStreamer ip).Sound where
  ended h := absurd rfl h
  cancelled h := by cases h
  returned h := by cases h
  pending _ h := absurd h List.not_mem_nil

/-- `fail` is called once the stream is over. -/
theorem NodeStreamer.Sound.startFail {ns : NodeStreamer} (h : ns.Sound) (hover : ns.ended = true)
    (code : ErrorCode) : (ns.startFail code).Sound := by
  unfold NodeStreamer.startFail
  split
  next hfailure =>
    have hnot : ns.failure ≠ .done := by simp [hfailure]
    exact ⟨fun _ => hover, fun hended => absurd (h.cancelled hended) hnot,
      fun hended => absurd (h.returned hended) hnot, h.pending⟩
  next => exact h

theorem StreamerMove.sound {s : ClientState} {action : Action} {a : Nat} {ns : NodeStreamer}
    (h : StreamerMove s action a ns) (hsound : (s.streamer a).Sound) : ns.Sound := by
  obtain ⟨hover, hcancelled, hreturned, hpending⟩ := hsound
  cases h with
  | create p d => exact NodeStreamer.sound_new d.targetIP
  | send batch last =>
      refine ⟨hover, hcancelled, hreturned, fun res hres => ?_⟩
      obtain ⟨env, henv, hreq⟩ := hpending res hres
      exact ⟨env, List.mem_append_left _ henv, hreq⟩
  | sendErr code =>
      have hfailing : NodeStreamer.Sound
          { s.streamer a with ended := true, flusher := .failing } :=
        ⟨fun _ => rfl, hcancelled, hreturned, hpending⟩
      exact hfailing.startFail rfl code
  | recvErr code =>
      have hfailing : NodeStreamer.Sound
          { s.streamer a with ended := true, receiver := .failing } :=
        ⟨fun _ => rfl, hcancelled, (by simp), by simp [Receiver.pending]⟩
      exact hfailing.startFail rfl code
  | recvEnd hended =>
      exact ⟨fun _ => rfl, hcancelled, fun _ => hcancelled hended, by simp [Receiver.pending]⟩
  | receiver receiver hback hdelivering hfailed =>
      exact ⟨hover, hcancelled, hfailed, fun res hres => (hback res hres).elim (hpending res) id⟩
  | demux res rest entry receiver haction hreceiver hlookup hnext =>
      subst hnext
      rw [hreceiver] at hpending
      refine ⟨hover, hcancelled, fun hreturn => ?_, fun other hother => ?_⟩
      · cases hentry : entry.respCh <;> rw [hentry] at hreturn <;> cases hreturn
      · refine hpending other ?_
        cases hentry : entry.respCh <;> rw [hentry] at hother
        · exact List.mem_cons_of_mem _ hother
        · exact hother
  | mark code hfailure =>
      have hnot : (s.streamer a).failure ≠ .done := by rw [hfailure]; simp
      exact ⟨fun _ => hover (by rw [hfailure]; simp), fun h => absurd (hcancelled h) hnot,
        fun h => absurd (hreturned h) hnot, hpending⟩
  | failure failure hmove =>
      have hnot : (s.streamer a).failure ≠ .done ∧ (s.streamer a).failure ≠ .unstarted := by
        cases hfailure : (s.streamer a).failure <;> rw [hfailure] at hmove <;> cases hmove <;>
          simp
      exact ⟨fun _ => hover hnot.2, fun h => absurd (hcancelled h) hnot.1,
        fun h => absurd (hreturned h) hnot.1, hpending⟩
  | close code hfailure =>
      exact ⟨fun _ => hover (by rw [hfailure]; simp), fun _ => rfl, fun _ => rfl, hpending⟩
  | cancel cancel hreceiver =>
      exact ⟨hover, fun _ => hreturned hreceiver, hreturned, hpending⟩
  | _ => exact ⟨hover, hcancelled, hreturned, hpending⟩

/-! ## Callbacks -/

/-- The callback that a caller has not put into a map, or has taken back. -/
def Caller.hand : Caller → Option (UInt64 × CallbackEntry)
  | .resolve env entry => some (env.requestId, entry)
  | .dispatch _ (.select _) | .dispatch _ (.drop _) => none
  | .dispatch d _ => some (d.env.requestId, d.entry)
  | _ => none

theorem Caller.carries_of_hand {c : Caller} {x : UInt64 × CallbackEntry} (h : c.hand = some x) :
    c.carries = some x := by
  cases c with
  | dispatch d stage => cases stage <;> first | exact h | cases h
  | resolve => exact h
  | _ => cases h

/-- The callback that an event uses up. -/
def Event.callback : Event → Option (UInt64 × CallbackEntry)
  | .sent _ _ => none
  | .failed reqID respCh => some (reqID, ⟨respCh⟩)
  | .answered res respCh => some (res.requestId, ⟨respCh⟩)

/-- Where a callback is. -/
inductive CallbackPlace where
  | hand (p : Nat)
  | map (a : Nat)
  | delivery (a : Nat)
  | log

def ClientState.holds (s : ClientState) : CallbackPlace → UInt64 × CallbackEntry → Prop
  | .hand p, x => (s.caller p).hand = some x
  | .map a, x => (s.streamer a).callbackMap.lookup x.1 = some x.2
  | .delivery a, x => ∃ res ch, (s.streamer a).receiver.delivering = some (res, ch) ∧
      x = (res.requestId, ⟨some ch⟩)
  | .log, x => ∃ event ∈ s.log, event.callback = some x

/-- The ways in which a callback gets to another place. -/
inductive Arrival (s : ClientState) (action : Action) :
    CallbackPlace → UInt64 × CallbackEntry → Prop
  | emulate (p : Nat) (env : RemoteEnvelope) (haction : action = .emulate p env) :
      Arrival s action (.hand p) (env.requestId, ⟨none⟩)
  | execute (p : Nat) (env : RemoteEnvelope) (haction : action = .execute p env) :
      Arrival s action (.hand p) (env.requestId, ⟨some s.opened⟩)
  | store (p : Nat) (d : Dispatch) (a : Nat) (haction : action = .store p d a)
      (hp : s.caller p = .dispatch d (.store a)) :
      Arrival s action (.map a) (d.env.requestId, d.entry)
  | drop (p : Nat) (d : Dispatch) (a : Nat) (haction : action = .drop p d a)
      (hp : s.caller p = .dispatch d (.drop a)) :
      Arrival s action (.hand p) (d.env.requestId, d.entry)
  | answer (a : Nat) (res : RemoteResult) (rest : List RemoteResult)
      (haction : action = .demux a res rest)
      (hreceiver : (s.streamer a).receiver = .demux res rest)
      (hlookup : (s.streamer a).callbackMap.lookup res.requestId = some ⟨none⟩) :
      Arrival s action .log (res.requestId, ⟨none⟩)
  | take (a : Nat) (res : RemoteResult) (rest : List RemoteResult) (ch : Nat)
      (haction : action = .demux a res rest)
      (hreceiver : (s.streamer a).receiver = .demux res rest)
      (hlookup : (s.streamer a).callbackMap.lookup res.requestId = some ⟨some ch⟩) :
      Arrival s action (.delivery a) (res.requestId, ⟨some ch⟩)
  | deliver (a : Nat) (res : RemoteResult) (ch : Nat) (rest : List RemoteResult)
      (haction : action = .deliver a res ch rest)
      (hreceiver : (s.streamer a).receiver = .deliver res ch rest) :
      Arrival s action .log (res.requestId, ⟨some ch⟩)
  | fail (a : Nat) (code : ErrorCode) (i : Nat) (reqID : UInt64) (entry : CallbackEntry)
      (haction : action = .failEntry a code i reqID entry)
      (hfailure : (s.streamer a).failure = .scan code i)
      (hlookup : (s.streamer a).callbackMap.lookup reqID = some entry) :
      Arrival s action .log (reqID, entry)

section Arrival

variable {cfg : Config} {s : ClientState} {action : Action} {x : UInt64 × CallbackEntry}

theorem CallerMove.hand_back {p : Nat} {c : Caller} (h : CallerMove s action p c)
    (hc : c.hand = some x) : (s.caller p).hand = some x ∨ Arrival s action (.hand p) x := by
  cases h with
  | stay => exact .inl hc
  | emulate env haction =>
      cases hc
      exact .inr (.emulate p env haction)
  | execute env haction =>
      cases hc
      exact .inr (.execute p env haction)
  | resolved env entry targetIP hp =>
      rw [hp]
      exact .inl hc
  | go d stage stage' hp hmove =>
      rw [hp]
      cases hmove <;> first | exact .inl hc | cases hc
  | enqueue d a =>
      obtain ⟨env, ⟨_ | ch⟩, targetIP, attempts⟩ := d <;> cases hc
  | retry d a haction hp =>
      cases hc
      exact .inr (.drop p d a haction hp)
  | _ => cases hc

theorem StreamerMove.delivering_back {a : Nat} {ns : NodeStreamer} (h : StreamerMove s action a ns)
    {res : RemoteResult} {ch : Nat} (hns : ns.receiver.delivering = some (res, ch)) :
    (s.streamer a).receiver.delivering = some (res, ch) ∨
      Arrival s action (.delivery a) (res.requestId, ⟨some ch⟩) := by
  cases h with
  | create => cases hns
  | sendErr code =>
      rw [NodeStreamer.startFail_eq] at hns
      exact .inl hns
  | recvErr code =>
      rw [NodeStreamer.startFail_eq] at hns
      cases hns
  | recvEnd => cases hns
  | receiver receiver _ hdelivering =>
      rw [hdelivering] at hns
      cases hns
  | demux res' rest entry receiver haction hreceiver hlookup hnext =>
      subst hnext
      obtain ⟨_ | ch'⟩ := entry
      · cases hns
      · cases hns
        exact .inr (.take a res rest ch haction hreceiver hlookup)
  | _ => exact .inl hns

theorem LogMove.callback_back {log : List Event} (h : LogMove s action log) {event : Event}
    (hevent : event ∈ log) (hx : event.callback = some x) :
    event ∈ s.log ∨ Arrival s action .log x := by
  cases h with
  | stay => exact .inl hevent
  | send a batch last =>
      rcases List.mem_append.mp hevent with hold | hnew
      · exact .inl hold
      · obtain ⟨env, _, rfl⟩ := List.mem_map.mp hnew
        cases hx
  | failed a code i reqID entry haction hfailure hlookup =>
      rcases List.mem_append.mp hevent with hold | hnew
      · exact .inl hold
      · cases List.mem_singleton.mp hnew
        cases hx
        exact .inr (.fail a code i reqID entry haction hfailure hlookup)
  | answered a res rest haction hreceiver hlookup =>
      rcases List.mem_append.mp hevent with hold | hnew
      · exact .inl hold
      · cases List.mem_singleton.mp hnew
        cases hx
        exact .inr (.answer a res rest haction hreceiver hlookup)
  | delivered a res ch rest haction hreceiver =>
      rcases List.mem_append.mp hevent with hold | hnew
      · exact .inl hold
      · cases List.mem_singleton.mp hnew
        cases hx
        exact .inr (.deliver a res ch rest haction hreceiver)

/-- A callback is where it was, or it has just got there. -/
theorem holds_back (henabled : s.enabled cfg action = true) {place : CallbackPlace}
    (h : (s.apply cfg action).holds place x) : s.holds place x ∨ Arrival s action place x := by
  cases place with
  | hand p => exact (ClientState.callerMove_apply henabled p).hand_back h
  | map a =>
      rcases (ClientState.streamerMove_apply henabled a).lookup_back h with
        hold | ⟨p, d, haction, hp, hreq, hentry⟩
      · exact .inl hold
      · obtain ⟨reqID, entry⟩ := x
        subst hreq hentry
        exact .inr (.store p d a haction hp)
  | delivery a =>
      obtain ⟨res, ch, hdelivering, rfl⟩ := h
      rcases (ClientState.streamerMove_apply henabled a).delivering_back hdelivering with
        hold | harrival
      · exact .inl ⟨res, ch, hold, rfl⟩
      · exact .inr harrival
  | log =>
      obtain ⟨event, hevent, hx⟩ := h
      rcases (ClientState.logMove_apply henabled).callback_back hevent hx with hold | harrival
      · exact .inl ⟨event, hold, hx⟩
      · exact .inr harrival

/-- Where a step takes a callback. -/
def Action.destination (entry : CallbackEntry) : Action → CallbackPlace
  | .emulate p _ | .execute p _ | .drop p _ _ => .hand p
  | .store _ _ a => .map a
  | .demux a _ _ => entry.respCh.elim .log fun _ => .delivery a
  | _ => .log

theorem Arrival.place_eq {place : CallbackPlace} (h : Arrival s action place x) :
    place = action.destination x.2 := by
  cases h <;> subst_vars <;> rfl

end Arrival

/-! ## Requests that ride on a streamer -/

/-- The envelope of a request is in the channel or in the batch of the streamer,
or its caller is about to put it there. -/
def ClientState.Rides (s : ClientState) (a : Nat) (reqID : UInt64) : Prop :=
  (∃ env ∈ (s.streamer a).flusher.batch ++ (s.streamer a).envelopeCh, env.requestId = reqID) ∨
    ∃ p d, s.caller p = .dispatch d (.select a) ∧ d.env.requestId = reqID

/-- The streamer of a call. -/
def Stage.streamer : Stage → Option Nat
  | .check a | .evict a | .recheck a | .reevict a | .publish a | .store a | .select a | .drop a =>
      some a
  | _ => none

/-- A failure of the request is on record. -/
def Event.failure : Event → Option UInt64
  | .sent _ _ => none
  | .failed reqID _ => some reqID
  | .answered res _ => if res.success then none else some res.requestId

/-- The channel that the event writes to. -/
def Event.channel : Event → Option Nat
  | .sent _ _ => none
  | .failed _ respCh | .answered _ respCh => respCh

/-- The request that the event puts on a stream. -/
def Event.sends : Event → Option UInt64
  | .sent _ reqID => some reqID
  | _ => none

/-- After a failure the request is not sent, and its channel is not written. -/
def Event.Final (early late : Event) : Prop :=
  ∀ reqID, early.failure = some reqID →
    late.sends ≠ some reqID ∧ ∀ ch, early.channel = some ch → late.channel ≠ some ch

/-- Streamers are created before they are used. -/
structure ClientState.Placed (s : ClientState) : Prop where
  entry : ∀ ip a, s.streamers ip = some a → a < s.created
  stage : ∀ p d stage a, s.caller p = .dispatch d stage → stage.streamer = some a → a < s.created

/-- No callback is used twice, and a request whose callback was used up while its
envelope was waiting rides on a stream that is over. -/
structure Settled (s : ClientState) : Prop extends s.Placed where
  issued : Issued s
  sound : ∀ a, (s.streamer a).Sound
  waiting : ∀ a, ∀ env ∈ (s.streamer a).flusher.batch ++ (s.streamer a).envelopeCh, a < s.created
  known : ∀ place x, s.holds place x → x ∈ s.issued
  callbacks : Sole s.holds
  dropping : ∀ p d a, s.caller p = .dispatch d (.drop a) →
    (s.streamer a).cancelled = true ∧ s.holds (.map a) (d.env.requestId, d.entry)
  located : ∀ a b x, s.Rides a x.1 → s.holds (.map b) x → b = a
  broken : ∀ a x, s.Rides a x.1 → s.holds .log x ∨ (∃ b, s.holds (.delivery b) x) →
    (s.streamer a).ended = true
  final : s.log.Pairwise Event.Final

theorem not_holds_newClient (place : CallbackPlace) (x : UInt64 × CallbackEntry) :
    ¬ newClient.holds place x := by
  intro h
  cases place with
  | hand p => cases h
  | map a => cases (ShardedCallbackMap.lookup_new x.1).symm.trans h
  | delivery a =>
      obtain ⟨_, _, h, _⟩ := h
      cases h
  | log =>
      obtain ⟨_, h, _⟩ := h
      cases h

theorem not_rides_newClient (a : Nat) (reqID : UInt64) : ¬ newClient.Rides a reqID := by
  rintro (⟨env, henv, _⟩ | ⟨p, d, hp, _⟩)
  · cases henv
  · cases hp

theorem placed_newClient : newClient.Placed where
  entry _ _ h := by cases h
  stage _ _ _ _ h := by cases h

theorem settled_newClient : Settled newClient where
  toPlaced := placed_newClient
  issued := issued_newClient
  sound _ := ⟨fun _ => rfl, nofun, fun _ => rfl, fun _ h => absurd h List.not_mem_nil⟩
  waiting _ _ h := by cases h
  known place x h := absurd h (not_holds_newClient place x)
  callbacks place _ x h := absurd h (not_holds_newClient place x)
  dropping _ _ _ h := by cases h
  located a _ x h := absurd h (not_rides_newClient a x.1)
  broken a x h := absurd h (not_rides_newClient a x.1)
  final := List.Pairwise.nil

section Moves

variable {s : ClientState} {action : Action} {a : Nat} {ns : NodeStreamer}

theorem StageMove.streamer_back {p : Nat} {d : Dispatch} {stage stage' : Stage}
    (h : StageMove s action p d stage stage') (ha : stage'.streamer = some a) :
    stage.streamer = some a ∨ s.streamers d.targetIP = some a ∨
      action = .create p d true ∧ a = s.created := by
  cases h with
  | found b _ hentry | refound b _ hentry =>
      cases ha
      exact .inr (.inl hentry)
  | create haction => exact .inr (.inr ⟨haction, (Option.some.inj ha).symm⟩)
  | missing | evict | lock | remissing | reevict => cases ha
  | alive | dead | realive | redead | publish | store | ctxDone => exact .inl ha

/-- An envelope that waits on the streamer has waited before, or its caller has
just put it there. -/
theorem StreamerMove.waiting_back (h : StreamerMove s action a ns) {env : RemoteEnvelope}
    (henv : env ∈ ns.flusher.batch ++ ns.envelopeCh) :
    env ∈ (s.streamer a).flusher.batch ++ (s.streamer a).envelopeCh ∨
      ∃ p d, s.caller p = .dispatch d (.select a) ∧ d.env = env := by
  cases h with
  | create => cases henv
  | enqueue p d _ hp =>
      rw [← List.append_assoc, List.mem_append, List.mem_singleton] at henv
      exact henv.imp_right fun heq => ⟨p, d, hp, heq.symm⟩
  | take batch env' rest flusher hflusher hch hbatch =>
      have hold : (s.streamer a).flusher.batch = batch := by rw [hflusher, Flusher.batch]
      simp only [hbatch, hold, hch, List.append_assoc, List.singleton_append] at henv ⊢
      exact .inl henv
  | flusher flusher hbatch => exact .inl ((hbatch.append_right _).subset henv)
  | send batch last =>
      exact .inl (List.mem_append_right _ henv)
  | sendErr code =>
      rw [NodeStreamer.startFail_eq] at henv
      exact .inl (List.mem_append_right _ henv)
  | recvErr code =>
      rw [NodeStreamer.startFail_eq] at henv
      exact .inl henv
  | _ => exact .inl henv

/-- A stream that is over stays so, and so does a cancelled one. -/
theorem StreamerMove.ended (h : StreamerMove s action a ns) (ha : a < s.created) :
    ((s.streamer a).ended = true → ns.ended = true) ∧
      ((s.streamer a).cancelled = true → ns.cancelled = true) := by
  cases h with
  | create p d _ _ hfresh => exact absurd ha (by omega)
  | sendErr code | recvErr code =>
      rw [NodeStreamer.startFail_eq]
      exact ⟨fun _ => rfl, id⟩
  | recvEnd => exact ⟨fun _ => rfl, id⟩
  | close => exact ⟨id, fun _ => rfl⟩
  | cancel cancel => exact ⟨id, fun hcancelled => by simp [hcancelled]⟩
  | _ => exact ⟨id, id⟩

/-- The ways in which a callback leaves the map of a streamer. -/
inductive Departure (s : ClientState) (action : Action) (a : Nat) (reqID : UInt64) : Prop
  | call (p : Nat) (d : Dispatch) (stage : Stage) (hp : s.caller p = .dispatch d stage)
      (hreq : d.env.requestId = reqID)
      (hstage : stage = .store a ∨ stage = .drop a ∧ action = .drop p d a)
  | expire (p : Nat) (env : RemoteEnvelope) (todo : List String)
      (hp : s.caller p = .expireDelete env todo a) (hreq : env.requestId = reqID)
  | demux (res : RemoteResult) (rest : List RemoteResult)
      (hreceiver : (s.streamer a).receiver = .demux res rest) (hreq : res.requestId = reqID)
  | fail (code : ErrorCode) (i : Nat) (hfailure : (s.streamer a).failure = .scan code i)

theorem StreamerMove.lookup_forward (h : StreamerMove s action a ns) (ha : a < s.created)
    {reqID : UInt64} {entry : CallbackEntry}
    (hlookup : (s.streamer a).callbackMap.lookup reqID = some entry) :
    ns.callbackMap.lookup reqID = some entry ∨ Departure s action a reqID := by
  cases h with
  | create p d _ _ hfresh => exact absurd ha (by omega)
  | store p d haction hp =>
      by_cases hne : reqID = d.env.requestId
      · exact .inr (.call p d _ hp hne.symm (.inl rfl))
      · exact .inl ((ShardedCallbackMap.lookup_store_of_ne _ hne _).trans hlookup)
  | drop p d haction hp =>
      by_cases hne : reqID = d.env.requestId
      · exact .inr (.call p d _ hp hne.symm (.inr ⟨rfl, haction⟩))
      · exact .inl ((ShardedCallbackMap.lookup_delete_of_ne _ hne).trans hlookup)
  | expire p env todo hp =>
      by_cases hne : reqID = env.requestId
      · exact .inr (.expire p env todo hp hne.symm)
      · exact .inl ((ShardedCallbackMap.lookup_delete_of_ne _ hne).trans hlookup)
  | demux res rest entry' receiver _ hreceiver =>
      by_cases hne : reqID = res.requestId
      · exact .inr (.demux res rest hreceiver hne.symm)
      · exact .inl ((ShardedCallbackMap.lookup_delete_of_ne _ hne).trans hlookup)
  | failEntry code i other entry' _ hfailure => exact .inr (.fail code i hfailure)
  | sendErr code | recvErr code =>
      rw [NodeStreamer.startFail_eq]
      exact .inl hlookup
  | _ => exact .inl hlookup

end Moves

namespace ClientState

variable {cfg : Config} {s : ClientState} {action : Action}

theorem created_le (cfg : Config) (s : ClientState) (action : Action) :
    s.created ≤ (s.apply cfg action).created := by
  rcases created_apply cfg s action with heq | ⟨_, _, _, heq⟩ <;> omega

theorem Placed.step (h : s.Placed) (henabled : s.enabled cfg action = true) :
    (s.apply cfg action).Placed where
  entry ip a ha := by
    refine Nat.lt_of_lt_of_le ?_ (created_le cfg s action)
    have hmove := entryMove_apply henabled ip
    rw [ha] at hmove
    generalize hentry : some a = entry at hmove
    cases hmove with
    | stay => exact h.entry ip a hentry.symm
    | publish p d b _ hp =>
        cases hentry
        exact h.stage p d _ a hp rfl
    | _ => cases hentry
  stage p d stage a hp ha := by
    have hle := created_le cfg s action
    have hmove := callerMove_apply henabled p
    rw [hp] at hmove
    generalize hcaller : Caller.dispatch d stage = c at hmove
    cases hmove with
    | stay => exact Nat.lt_of_lt_of_le (h.stage p d stage a hcaller.symm ha) hle
    | go d' stage' stage'' hp' hmove' =>
        cases hcaller
        rcases hmove'.streamer_back ha with hold | hentry | ⟨rfl, rfl⟩
        · exact Nat.lt_of_lt_of_le (h.stage p d stage' a hp' hold) hle
        · exact Nat.lt_of_lt_of_le (h.entry _ a hentry) hle
        · exact Nat.lt_succ_self _
    | enqueue d' b =>
        obtain ⟨env, ⟨_ | ch⟩, targetIP, attempts⟩ := d' <;> cases hcaller
    | resolved | retry =>
        cases hcaller
        cases ha
    | _ => cases hcaller

end ClientState

namespace Settled

variable {cfg : Config} {s : ClientState} {action : Action}

theorem issued_mono {x : UInt64 × CallbackEntry} (hx : x ∈ s.issued) :
    x ∈ (s.apply cfg action).issued := by
  have hmove := ClientState.issueMove_apply cfg s action
  generalize (s.apply cfg action).issued = issued, (s.apply cfg action).opened = opened at hmove ⊢
  cases hmove with
  | stay => exact hx
  | emulate | execute => exact List.mem_append_left _ hx

/-- A request id has one callback. -/
theorem entry_unique (h : Settled s) {reqID : UInt64} {entry other : CallbackEntry}
    (hentry : (reqID, entry) ∈ s.issued) (hother : (reqID, other) ∈ s.issued) : entry = other :=
  congrArg Prod.snd (List.inj_on_of_nodup_map h.issued.ids hentry hother rfl)

/-- A request has one caller. -/
theorem caller_unique (h : Settled s) {p q : Nat} {reqID : UInt64}
    (hp : (s.caller p).request = some reqID) (hq : (s.caller q).request = some reqID) : p = q :=
  h.issued.calls p q reqID hp hq

/-- The request of a caller is on no stream. -/
theorem not_traffic (h : Settled s) {p a : Nat} {x : UInt64 × CallbackEntry}
    (hp : (s.caller p).carries = some x) : x.1 ∉ (s.streamer a).traffic := by
  refine h.issued.envelopes.notMem (p := .caller p) (q := .stream a) ?_ nofun
  rw [ClientState.envelopes, hp]
  exact List.mem_cons_self

/-- A result in the hands of the receiver answers a request that was sent. -/
theorem sent_of_demux (h : Settled s) {a : Nat} {res : RemoteResult} {rest : List RemoteResult}
    (hreceiver : (s.streamer a).receiver = .demux res rest) :
    ∃ env ∈ (s.streamer a).sent, env.requestId = res.requestId :=
  (h.sound a).pending res (by rw [hreceiver]; exact List.mem_cons_self)

theorem traffic_of_demux (h : Settled s) {a : Nat} {res : RemoteResult} {rest : List RemoteResult}
    (hreceiver : (s.streamer a).receiver = .demux res rest) :
    res.requestId ∈ (s.streamer a).traffic := by
  obtain ⟨env, henv, hreq⟩ := h.sent_of_demux hreceiver
  rw [← hreq]
  exact List.mem_map_of_mem (List.mem_append_left _ (List.mem_append_left _ henv))

/-- A callback that gets to another place is new, or it leaves its old one. -/
theorem source (h : Settled s) (cfg : Config) (hguard : FindsCallback s action)
    {place : CallbackPlace} {x : UInt64 × CallbackEntry} (harrival : Arrival s action place x) :
    (x.1 ∉ s.issued.map Prod.fst ∧ x ∈ (s.apply cfg action).issued) ∨
      ∃ src, s.holds src x ∧ ¬ (s.apply cfg action).holds src x := by
  have hdeleted {a : Nat} {reqID : UInt64} {entry : CallbackEntry} (ns : NodeStreamer)
      (hstreamer : (s.apply cfg action).streamer = Function.update s.streamer a ns)
      (hmap : ns.callbackMap = (s.streamer a).callbackMap.delete reqID) :
      ¬ (s.apply cfg action).holds (.map a) (reqID, entry) := by
    intro hheld
    rw [ClientState.holds, hstreamer, Function.update_self, hmap,
      ShardedCallbackMap.lookup_delete_self] at hheld
    cases hheld
  cases harrival with
  | emulate p env haction =>
      subst haction
      exact .inl ⟨hguard, List.mem_append_right _ List.mem_cons_self⟩
  | execute p env haction =>
      subst haction
      exact .inl ⟨hguard, List.mem_append_right _ List.mem_cons_self⟩
  | store p d a haction hp =>
      subst haction
      refine .inr ⟨.hand p, by rw [ClientState.holds, hp]; rfl, fun hheld => ?_⟩
      have hnext : (s.apply cfg (.store p d a)).caller p = .dispatch d (.select a) :=
        Function.update_self _ _ _
      rw [ClientState.holds, hnext] at hheld
      cases hheld
  | drop p d a haction hp =>
      subst haction
      exact .inr ⟨.map a, (h.dropping p d a hp).2, hdeleted _ rfl rfl⟩
  | answer a res rest haction hreceiver hlookup =>
      subst haction
      refine .inr ⟨.map a, hlookup, hdeleted { s.streamer a with
        callbackMap := (s.streamer a).callbackMap.delete res.requestId
        receiver := .loop rest } ?_ rfl⟩
      simp only [ClientState.apply, hlookup]
      rfl
  | take a res rest ch haction hreceiver hlookup =>
      subst haction
      refine .inr ⟨.map a, hlookup, hdeleted { s.streamer a with
        callbackMap := (s.streamer a).callbackMap.delete res.requestId
        receiver := .deliver res ch rest } ?_ rfl⟩
      simp only [ClientState.apply, hlookup]
      rfl
  | deliver a res ch rest haction hreceiver =>
      subst haction
      refine .inr ⟨.delivery a, ⟨res, ch, by rw [hreceiver]; rfl, rfl⟩, ?_⟩
      rintro ⟨res', ch', hdelivering, _⟩
      have hnext : ((s.apply cfg (.deliver a res ch rest)).streamer a).receiver = .loop rest := by
        change (Function.update s.streamer a _ a).receiver = _
        rw [Function.update_self]
      rw [hnext] at hdelivering
      cases hdelivering
  | fail a code i reqID entry haction hfailure hlookup =>
      subst haction
      obtain ⟨_ | ch⟩ := entry <;> exact .inr ⟨.map a, hlookup, hdeleted _ rfl rfl⟩

theorem known_step (h : Settled s) (hguard : FindsCallback s action)
    (henabled : s.enabled cfg action = true) {place : CallbackPlace} {x : UInt64 × CallbackEntry}
    (hx : (s.apply cfg action).holds place x) : x ∈ (s.apply cfg action).issued := by
  rcases holds_back henabled hx with hold | harrival
  · exact issued_mono (h.known place x hold)
  · rcases h.source cfg hguard harrival with ⟨_, hnew⟩ | ⟨src, hsrc, _⟩
    · exact hnew
    · exact issued_mono (h.known src x hsrc)

theorem callbacks_step (h : Settled s) (hguard : FindsCallback s action)
    (henabled : s.enabled cfg action = true) : Sole (s.apply cfg action).holds := by
  -- whoever has had a callback does not keep it when it arrives elsewhere
  have hleft {place other : CallbackPlace} {x : UInt64 × CallbackEntry}
      (harrival : Arrival s action place x) (hold : s.holds other x)
      (hnext : (s.apply cfg action).holds other x) : False := by
    rcases h.source cfg hguard harrival with ⟨hfresh, _⟩ | ⟨src, hsrc, hgone⟩
    · exact hfresh (List.mem_map_of_mem (h.known other x hold))
    · exact hgone (h.callbacks src other x hsrc hold ▸ hnext)
  intro place other x hplace hother
  rcases holds_back henabled hplace with hold | harrival <;>
    rcases holds_back henabled hother with hold' | harrival'
  · exact h.callbacks place other x hold hold'
  · exact (hleft harrival' hold hplace).elim
  · exact (hleft harrival hold' hother).elim
  · rw [harrival.place_eq, harrival'.place_eq]

theorem waiting_step (h : Settled s) (henabled : s.enabled cfg action = true) {a : Nat}
    {env : RemoteEnvelope} (henv : env ∈ ((s.apply cfg action).streamer a).flusher.batch ++
      ((s.apply cfg action).streamer a).envelopeCh) : a < (s.apply cfg action).created := by
  refine Nat.lt_of_lt_of_le ?_ (ClientState.created_le cfg s action)
  rcases (ClientState.streamerMove_apply henabled a).waiting_back henv with hold | ⟨p, d, hp, _⟩
  · exact h.waiting a env hold
  · exact h.stage p d _ a hp rfl

/-! ### Riding -/

theorem rides_lt (h : Settled s) {a : Nat} {reqID : UInt64} (hrides : s.Rides a reqID) :
    a < s.created := by
  rcases hrides with ⟨env, henv, _⟩ | ⟨p, d, hp, _⟩
  · exact h.waiting a env henv
  · exact h.stage p d _ a hp rfl

/-- Only a stored callback lets a request ride that has not before. -/
theorem rides_back (henabled : s.enabled cfg action = true) {a : Nat} {reqID : UInt64}
    (hrides : (s.apply cfg action).Rides a reqID) :
    s.Rides a reqID ∨ ∃ p d, action = .store p d a ∧ s.caller p = .dispatch d (.store a) ∧
      d.env.requestId = reqID := by
  rcases hrides with ⟨env, henv, hreq⟩ | ⟨p, d, hp, hreq⟩
  · rcases (ClientState.streamerMove_apply henabled a).waiting_back henv with
      hold | ⟨p, d, hp, rfl⟩
    · exact .inl (.inl ⟨env, hold, hreq⟩)
    · exact .inl (.inr ⟨p, d, hp, hreq⟩)
  · have hmove := ClientState.callerMove_apply henabled p
    rw [hp] at hmove
    generalize hcaller : Caller.dispatch d (.select a) = c at hmove
    cases hmove with
    | stay => exact .inl (.inr ⟨p, d, hcaller.symm, hreq⟩)
    | go d' stage stage' hp' hmove' =>
        cases hcaller
        cases hmove' with
        | store _ haction => exact .inr ⟨p, d, haction, hp', hreq⟩
    | enqueue d' b =>
        obtain ⟨env, ⟨_ | ch⟩, targetIP, attempts⟩ := d' <;> cases hcaller
    | _ => cases hcaller

theorem traffic_of_waiting {a : Nat} {env : RemoteEnvelope}
    (henv : env ∈ (s.streamer a).flusher.batch ++ (s.streamer a).envelopeCh) :
    env.requestId ∈ (s.streamer a).traffic := by
  rw [NodeStreamer.traffic, List.append_assoc]
  exact List.mem_map_of_mem (List.mem_append_right _ henv)

/-- A request that rides is in no caller's hands. -/
theorem not_hand_of_rides (h : Settled s) {a p : Nat} {x : UInt64 × CallbackEntry}
    (hrides : s.Rides a x.1) : ¬ s.holds (.hand p) x := by
  intro hhand
  rcases hrides with ⟨env, henv, hreq⟩ | ⟨q, d, hq, hreq⟩
  · exact h.not_traffic (Caller.carries_of_hand hhand) (hreq ▸ traffic_of_waiting henv)
  · have hp := Caller.request_of_carries (Caller.carries_of_hand hhand)
    have hpq := h.caller_unique hp (by rw [hq, Caller.request, hreq])
    subst hpq
    rw [ClientState.holds, hq] at hhand
    cases hhand

/-- A request that rides has not been sent. -/
theorem not_sent_of_rides (h : Settled s) {a b : Nat} {reqID : UInt64}
    (hrides : s.Rides a reqID) : ¬ ∃ env ∈ (s.streamer b).sent, env.requestId = reqID := by
  rintro ⟨env, henv, rfl⟩
  have hsent : env.requestId ∈ (s.streamer b).sent.map RemoteEnvelope.requestId :=
    List.mem_map_of_mem henv
  have htraffic : env.requestId ∈ (s.streamer b).traffic :=
    List.mem_map_of_mem (List.mem_append_left _ (List.mem_append_left _ henv))
  rcases hrides with ⟨env', henv', hreq⟩ | ⟨p, d, hp, hreq⟩
  · have hab : Holder.stream a = .stream b :=
      h.issued.envelopes.unique _ _ _ (hreq ▸ traffic_of_waiting henv') htraffic
    cases hab
    have hnodup : (s.streamer a).traffic.Nodup := h.issued.envelopes.nodup (.stream a)
    rw [NodeStreamer.traffic, List.append_assoc, List.map_append] at hnodup
    exact hnodup.disjoint hsent (hreq ▸ List.mem_map_of_mem henv')
  · refine h.not_traffic (p := p) (x := (env.requestId, d.entry)) ?_ htraffic
    rw [hp, Caller.carries, hreq]

/-- The callback of a request whose caller is about to store it. -/
theorem hand_of_store (h : Settled s) {p a : Nat} {d : Dispatch} {place : CallbackPlace}
    {x : UInt64 × CallbackEntry} (hp : s.caller p = .dispatch d (.store a))
    (hreq : d.env.requestId = x.1) (hx : s.holds place x) : place = .hand p := by
  have hhand : s.holds (.hand p) (d.env.requestId, d.entry) := by
    rw [ClientState.holds, hp]
    rfl
  obtain ⟨reqID, entry⟩ := x
  subst hreq
  have hentry := h.entry_unique (h.known _ _ hx) (h.known _ _ hhand)
  subst hentry
  exact h.callbacks _ _ _ hx hhand

theorem located_step (h : Settled s) (henabled : s.enabled cfg action = true) {a b : Nat}
    {x : UInt64 × CallbackEntry} (hrides : (s.apply cfg action).Rides a x.1)
    (hx : (s.apply cfg action).holds (.map b) x) : b = a := by
  rcases rides_back henabled hrides with hold | ⟨p, d, haction, hp, hreq⟩
  · rcases holds_back henabled hx with hx' | harrival
    · exact h.located a b x hold hx'
    · cases harrival with
      | store p d _ haction hp =>
          refine absurd ?_ (h.not_hand_of_rides hold (p := p))
          rw [ClientState.holds, hp]
          rfl
  · subst haction
    rcases holds_back henabled hx with hx' | harrival
    · cases h.hand_of_store hp hreq hx'
    · cases harrival.place_eq
      rfl

theorem broken_step (h : Settled s) (henabled : s.enabled cfg action = true) {a : Nat}
    {x : UInt64 × CallbackEntry} (hrides : (s.apply cfg action).Rides a x.1)
    (hx : (s.apply cfg action).holds .log x ∨ ∃ b, (s.apply cfg action).holds (.delivery b) x) :
    ((s.apply cfg action).streamer a).ended = true := by
  have hused : ∃ place, (s.apply cfg action).holds place x ∧
      (place = .log ∨ ∃ b, place = .delivery b) := by
    rcases hx with hx | ⟨b, hx⟩
    · exact ⟨.log, hx, .inl rfl⟩
    · exact ⟨.delivery b, hx, .inr ⟨b, rfl⟩⟩
  obtain ⟨place, hx, hplace⟩ := hused
  rcases rides_back henabled hrides with hold | ⟨p, d, haction, hp, hreq⟩
  · refine ((ClientState.streamerMove_apply henabled a).ended (h.rides_lt hold)).1 ?_
    rcases holds_back henabled hx with hx' | harrival
    · refine h.broken a x hold ?_
      rcases hplace with rfl | ⟨b, rfl⟩
      · exact .inl hx'
      · exact .inr ⟨b, hx'⟩
    · cases harrival with
      | answer b res rest haction hreceiver =>
          exact absurd (h.sent_of_demux hreceiver) (h.not_sent_of_rides hold)
      | take b res rest ch haction hreceiver =>
          exact absurd (h.sent_of_demux hreceiver) (h.not_sent_of_rides hold)
      | deliver b res ch rest haction hreceiver =>
          refine h.broken a _ hold (.inr ⟨b, res, ch, ?_, rfl⟩)
          rw [hreceiver]
          rfl
      | fail b code i reqID entry haction hfailure hlookup =>
          cases h.located a b (reqID, entry) hold hlookup
          exact (h.sound a).ended (by rw [hfailure]; nofun)
      | _ => simp at hplace
  · subst haction
    rcases holds_back henabled hx with hx' | harrival
    · cases h.hand_of_store hp hreq hx'
      simp at hplace
    · cases harrival.place_eq
      simp [Action.destination] at hplace

theorem dropping_step (h : Settled s) (hguard : FindsCallback s action)
    (henabled : s.enabled cfg action = true) {p a : Nat} {d : Dispatch}
    (hp : (s.apply cfg action).caller p = .dispatch d (.drop a)) :
    ((s.apply cfg action).streamer a).cancelled = true ∧
      (s.apply cfg action).holds (.map a) (d.env.requestId, d.entry) := by
  have hmove := ClientState.callerMove_apply henabled p
  rw [hp] at hmove
  generalize hcaller : Caller.dispatch d (.drop a) = c at hmove
  cases hmove with
  | stay =>
      obtain ⟨hcancelled, hlookup⟩ := h.dropping p d a hcaller.symm
      have hstreamer := ClientState.streamerMove_apply henabled a
      have ha := h.stage p d _ a hcaller.symm rfl
      have hrequest : (s.caller p).request = some d.env.requestId := by
        rw [← hcaller]
        rfl
      refine ⟨(hstreamer.ended ha).2 hcancelled, (hstreamer.lookup_forward ha hlookup).elim id ?_⟩
      intro hdeparture
      exfalso
      cases hdeparture with
      | call q d' stage hq hreq hstage =>
          have hpq := h.caller_unique hrequest (by rw [hq, Caller.request, hreq])
          subst hpq
          cases hcaller.trans hq
          rcases hstage with hstage | ⟨_, rfl⟩
          · cases hstage
          · have hnext : (s.apply cfg (.drop p d a)).caller p = _ := Function.update_self _ _ _
            rw [hnext] at hp
            split at hp <;> simp at hp
      | expire q env todo hq hreq =>
          have hpq := h.caller_unique hrequest (by rw [hq, Caller.request, hreq])
          subst hpq
          cases hcaller.trans hq
      | demux res rest hreceiver hreq =>
          refine h.not_traffic (p := p) (x := (d.env.requestId, d.entry)) ?_
            (hreq ▸ h.traffic_of_demux hreceiver)
          rw [← hcaller]
          rfl
      | fail code i hfailure =>
          cases hfailure.symm.trans ((h.sound a).cancelled hcancelled)
  | go d' stage stage' hp' hmove' =>
      cases hcaller
      cases hmove' with
      | ctxDone _ haction hcancelled =>
          subst haction
          obtain ⟨entry, hentry⟩ := Option.isSome_iff_exists.mp hguard
          have hknown := h.known (.map a) (d.env.requestId, entry) hentry
          have hcarried := h.issued.entries p (d.env.requestId, d.entry) (by rw [hp']; rfl)
          cases h.entry_unique hknown hcarried
          exact ⟨hcancelled, hentry⟩
  | enqueue d' b =>
      obtain ⟨env, ⟨_ | ch⟩, targetIP, attempts⟩ := d' <;> cases hcaller
  | _ => cases hcaller

/-! ### Events -/

theorem callback_of_failure {event : Event} {reqID : UInt64} (h : event.failure = some reqID) :
    event.callback = some (reqID, ⟨event.channel⟩) := by
  cases event with
  | sent => cases h
  | failed =>
      cases h
      rfl
  | answered res respCh =>
      rw [Event.failure] at h
      split at h <;> cases h
      rfl

/-- A callback that is used up now has not been used up by a failure. -/
theorem final_of_held (h : Settled s) (place : CallbackPlace) {reqID : UInt64}
    {entry : CallbackEntry} (hheld : s.holds place (reqID, entry)) (hplace : place ≠ .log)
    {late : Event} (hsends : late.sends = none) (hchannel : late.channel = entry.respCh) :
    (s.log ++ [late]).Pairwise Event.Final := by
  refine List.pairwise_append.mpr ⟨h.final, List.pairwise_singleton _ _, ?_⟩
  intro early hearly _ hnew failed hfailed
  cases List.mem_singleton.mp hnew
  refine ⟨by rw [hsends]; nofun, fun ch hch hlate => ?_⟩
  have hcallback := callback_of_failure hfailed
  rw [hch] at hcallback
  have hlogged : s.holds .log (failed, ⟨some ch⟩) := ⟨early, hearly, hcallback⟩
  obtain ⟨respCh⟩ := entry
  cases hchannel.symm.trans hlate
  cases h.issued.channels _ _ ch (h.known _ _ hheld) (h.known _ _ hlogged)
  exact hplace (h.callbacks _ _ _ hheld hlogged)

theorem final_step (h : Settled s) (henabled : s.enabled cfg action = true) :
    (s.apply cfg action).log.Pairwise Event.Final := by
  have hmove := ClientState.logMove_apply henabled
  generalize (s.apply cfg action).log = log at hmove ⊢
  cases hmove with
  | stay => exact h.final
  | send a batch last hflusher hover =>
      refine List.pairwise_append.mpr ⟨h.final, ?_, ?_⟩
      · rw [List.pairwise_map]
        refine List.pairwise_iff_forall_sublist.mpr fun _ failed hfailed => ?_
        cases hfailed
      · intro early hearly late hlate failed hfailed
        obtain ⟨env, henv, rfl⟩ := List.mem_map.mp hlate
        refine ⟨fun hsends => ?_, fun ch _ hch => by cases hch⟩
        cases hsends
        have hrides : s.Rides a env.requestId :=
          .inl ⟨env, by rw [hflusher]; exact List.mem_append_left _ henv, rfl⟩
        have hbroken := h.broken a (env.requestId, ⟨early.channel⟩) hrides
          (.inl ⟨early, hearly, callback_of_failure hfailed⟩)
        rw [hover] at hbroken
        cases hbroken
  | failed a code i reqID entry _ _ hlookup =>
      exact h.final_of_held (.map a) hlookup nofun rfl rfl
  | answered a res rest _ _ hlookup =>
      exact h.final_of_held (.map a) hlookup nofun rfl rfl
  | delivered a res ch rest _ hreceiver =>
      refine h.final_of_held (.delivery a) ⟨res, ch, ?_, rfl⟩ nofun rfl rfl
      rw [hreceiver]
      rfl

theorem step (h : Settled s) (hguard : FindsCallback s action)
    (henabled : s.enabled cfg action = true) : Settled (s.apply cfg action) where
  toPlaced := h.toPlaced.step henabled
  issued := h.issued.step hguard.uniqueIDs henabled
  sound a := (ClientState.streamerMove_apply henabled a).sound (h.sound a)
  waiting _ _ := h.waiting_step henabled
  known _ _ := h.known_step hguard henabled
  callbacks := h.callbacks_step hguard henabled
  dropping _ _ _ := h.dropping_step hguard henabled
  located _ _ _ := h.located_step henabled
  broken _ _ := h.broken_step henabled
  final := h.final_step henabled

end Settled

theorem settled_of_reachable {cfg : Config} {s : ClientState}
    (h : (client cfg).ReachableIf FindsCallback s) : Settled s := by
  refine h.invariant settled_newClient fun s action t hs hguard hstep => ?_
  obtain ⟨henabled, rfl⟩ := System.guarded_step_eq_some_iff.mp hstep
  exact hs.step hguard henabled

/-- If every call whose context is cancelled still finds its callback, a request
that has failed is not sent afterwards, and nothing more is written to its
channel. -/
theorem failed_not_resent {cfg : Config} {s : ClientState}
    (h : (client cfg).ReachableIf FindsCallback s) : s.log.Pairwise Event.Final :=
  (settled_of_reachable h).final

/-- The first request is sent. A second call has found the streamer when its stream breaks,
and the first request fails. -/
def overtaken : List Action :=
  registering ++ [Action.enqueue 0 (firstAttempt 1) 0, .take 0 [] (request 1) [],
    .send 0 [request 1] false] ++ asking 1 2 ++ [.check 1 (firstAttempt 2) 0] ++ failingFirst

/-- `FailAll` is through. -/
def failedOvertaken : ClientState :=
  ((client singles).after overtaken).setFailure 0 (.lock .streamInterrupted shardCount)

/-- The attempt that follows the first one. -/
def retryAttempt : Dispatch := { firstAttempt 2 with attempts := 1 }

/-- The second call stores its callback after the scan, sees the cancelled context, takes the
callback back and sends its request on another stream. -/
def replacing : List Action :=
  [.store 1 (firstAttempt 2) 0, .closeTransport 0 .streamInterrupted,
    .ctxDone 1 (firstAttempt 2) 0, .drop 1 (firstAttempt 2) 0, .load 1 retryAttempt,
    .lock 1 retryAttempt, .reload 1 retryAttempt, .create 1 retryAttempt true,
    .publish 1 retryAttempt 1, .store 1 retryAttempt 1, .enqueue 1 retryAttempt 1,
    .take 1 [] (request 2) [], .send 1 [request 2] false]

def replaced : ClientState :=
  ((client singles).exec failedOvertaken replacing).getD failedOvertaken

theorem failed_not_resent_replaced :
    replaced.log = [.sent 0 1, .failed 1 none, .sent 1 2] ∧
      replaced.log.Pairwise Event.Final := by
  have hfirst : (client singles).ReachableIf FindsCallback ((client singles).after overtaken) :=
    System.reachableIf_of_admits (by decide +kernel)
  have hscan : (client singles).RunIf FindsCallback ((client singles).after overtaken)
      failedOvertaken := by
    refine runIf_scanning (i := 2) (n := 254) (by decide +kernel) ?_ (Nat.le_refl _)
      fun _ _ => ⟨trivial, trivial⟩
    rintro (_ | _ | j) hj
    · omega
    · omega
    · rfl
  have hlast : (client singles).RunIf FindsCallback failedOvertaken replaced :=
    System.runIf_of_admits (by decide +kernel) (System.exec_getD (by decide +kernel))
  exact ⟨by decide +kernel, failed_not_resent ((hfirst.trans hscan).trans hlast)⟩

/-- The first attempt of a request that is waited for. -/
def waitingAttempt : Dispatch := ⟨request 1, ⟨some 0⟩, targetA, 0⟩

/-- The attempt that follows it. -/
def secondAttempt : Dispatch := { waitingAttempt with attempts := 1 }

/-- The callback is stored, and the stream breaks before the envelope is enqueued. -/
def breakingStored : List Action :=
  [.execute 0 (request 1), .resolve 0 (request 1) ⟨some 0⟩ (.ok targetA), .load 0 waitingAttempt,
    .lock 0 waitingAttempt, .reload 0 waitingAttempt, .create 0 waitingAttempt true,
    .publish 0 waitingAttempt 0, .store 0 waitingAttempt 0, .recvErr 0,
    .mark 0 .streamInterrupted, .evictLoad 0 .streamInterrupted,
    .evictDelete 0 .streamInterrupted, .failLock 0 .streamInterrupted 0,
    .failUnlock 0 .streamInterrupted 0, .failLock 0 .streamInterrupted 1,
    .failEntry 0 .streamInterrupted 1 1 ⟨some 0⟩, .failUnlock 0 .streamInterrupted 1]

/-- `FailAll` has reported the failure. -/
def failedStored : ClientState :=
  ((client singles).after breakingStored).setFailure 0 (.lock .streamInterrupted shardCount)

/-- The node's answer to the second attempt. -/
def appliedResult : RemoteResult where
  tenantId := 1
  uid := 42
  txId := "1"
  requestId := 1
  opCode := 1
  success := true
  errorCode := none
  errorMsg := ""
  payload := [0, 0, 0, 0, 0, 0, 0, 1]

/-- The call sees the cancelled context and sends its request on another stream. -/
def resending : List Action :=
  [.closeTransport 0 .streamInterrupted, .ctxDone 0 waitingAttempt 0, .drop 0 waitingAttempt 0,
    .load 0 secondAttempt, .lock 0 secondAttempt, .reload 0 secondAttempt,
    .create 0 secondAttempt true, .publish 0 secondAttempt 1, .store 0 secondAttempt 1,
    .enqueue 0 secondAttempt 1,
    .receive 0 (request 1) 0 (failedResult 1 .streamInterrupted),
    .take 1 [] (request 1) [], .send 1 [request 1] false, .recv 1 [appliedResult],
    .tally 1 appliedResult [], .demux 1 appliedResult [], .deliver 1 appliedResult 0 []]

def resent : ClientState := ((client singles).exec failedStored resending).getD failedStored

theorem reachable_failedStored : (client singles).ReachableIf UniqueIDs failedStored := by
  have hfirst : (client singles).ReachableIf UniqueIDs ((client singles).after breakingStored) :=
    System.reachableIf_of_admits (by decide +kernel)
  refine hfirst.trans (runIf_scanning (i := 2) (n := 254) (by decide +kernel) ?_ (Nat.le_refl _)
    fun _ _ => ⟨trivial, trivial⟩)
  rintro (_ | _ | j) hj
  · omega
  · omega
  · rfl

theorem failed_then_resent :
    ∃ s, (client singles).ReachableIf UniqueIDs s ∧
      s.log = [.failed 1 (some 0), .sent 1 1, .answered appliedResult (some 0)] ∧
      ¬ s.log.Pairwise Event.Final := by
  have hlast : (client singles).RunIf UniqueIDs failedStored resent :=
    System.runIf_of_admits (by decide +kernel) (System.exec_getD (by decide +kernel))
  have hlog : resent.log = [.failed 1 (some 0), .sent 1 1, .answered appliedResult (some 0)] := by
    decide +kernel
  refine ⟨resent, reachable_failedStored.trans hlast, hlog, fun hfinal => ?_⟩
  rw [hlog] at hfinal
  have hsent := (List.pairwise_cons.mp hfinal).1 (.sent 1 1) List.mem_cons_self
  exact (hsent 1 rfl).1 rfl

end ActorCluster.Client
