import ActorCluster.Client.Obligations
import ActorCluster.Client.Replies

/-! # A router that can do nothing more

The goroutines of the router wait for the mutex, for the lock of a shard, for room in a
channel, for the body of `fail` and for each other to return. As long as no callback is used
twice there is room for every reply, so `FailAll` and the receivers never wait for a caller.
Whoever waits then waits for a goroutine that can go on, for the clock or for the server.
-/

namespace ActorCluster.Client

open Remote Transition

/-! ## Room for replies -/

/-- The channel of a callback that is not used up is empty. -/
def ClientState.Roomy (s : ClientState) : Prop :=
  ∀ place reqID ch, s.holds place (reqID, ⟨some ch⟩) → place ≠ .log → s.respCh ch = none

theorem Settled.roomy {s : ClientState} (h : Settled s) (hattributed : s.Attributed) :
    s.Roomy := by
  intro place reqID ch hheld hplace
  by_contra hfull
  obtain ⟨res, hres⟩ := Option.ne_none_iff_exists'.mp hfull
  have hreplied := hattributed.replied ch res hres
  have hused : s.holds .log (res.requestId, ⟨some ch⟩) := by
    rcases hreplied with hanswered | ⟨code, _, hfailed⟩
    · exact ⟨_, hanswered, rfl⟩
    · exact ⟨_, hfailed, rfl⟩
  have hsame : reqID = res.requestId :=
    hattributed.channels _ _ ch (hattributed.held place _ hheld)
      (hattributed.issued_of_replied hreplied)
  subst hsame
  exact hplace (h.callbacks _ _ _ hheld hused)

/-! ## Nothing to go on with -/

namespace ClientState

variable {cfg : Config} {s : ClientState} {a p : Nat}

/-- A step that a caller, the clock or the server begins. The server has no say any more once
the context is cancelled: `Recv` then reports an error. A `Send` is a step of the flusher: it is
taken to return, with or without an error, and not to wait for flow control for good. -/
def begins (s : ClientState) : Action → Bool
  | .emulate _ _ | .execute _ _ | .timeout _ _ _ | .tick _ _ | .recv _ _ | .stopAll => true
  | .recvEOF a | .recvErr a => !(s.streamer a).cancelled
  | _ => false

/-- No goroutine can go on with what it has begun. -/
def Stalled (cfg : Config) (s : ClientState) : Prop :=
  ∀ action, s.enabled cfg action = true → s.begins action = true

/-- The stream is open, and the receiver waits for the server. -/
def Listening (s : ClientState) (a : Nat) : Prop :=
  (s.streamer a).receiver = .loop [] ∧ (s.streamer a).failure = .unstarted ∧
    (s.streamer a).cancelled = false

/-- The flusher waits for requests or for the ticker. -/
def Collecting (s : ClientState) (a : Nat) : Prop :=
  s.Listening a ∧ (s.streamer a).envelopeCh = [] ∧ ∃ batch, (s.streamer a).flusher = .select batch

/-- The flusher has closed its side of the stream, and `StopAll` waits for the server to close
the other side. -/
def Closing (s : ClientState) (a : Nat) : Prop :=
  s.Listening a ∧ (s.streamer a).flusher = .returned ∧ ∃ todo, s.stopper = .await todo a true

/-- The goroutines of the streamer have returned. -/
def Over (s : ClientState) (a : Nat) : Prop :=
  (s.streamer a).receiver = .returned ∧ (s.streamer a).failure = .done ∧
    (s.streamer a).cancelled = true ∧ (s.streamer a).flusher = .returned

/-- The goroutines have nothing to go on with. Callers wait for replies that have not come;
only on a streamer that is closing they may also wait for room in its channel. -/
structure AtRest (s : ClientState) : Prop where
  mutex : s.mu = none
  callers : ∀ p, s.caller p = .idle ∨ (∃ env ch, s.caller p = .wait env ch ∧ s.respCh ch = none) ∨
    ∃ d a, s.caller p = .dispatch d (.select a) ∧ s.Closing a
  streamers : ∀ a < s.created, s.Over a ∨ s.Collecting a ∨ s.Closing a
  stopper : s.stopper = .uncalled ∨ s.stopper = .returned ∨
    ∃ todo a, s.stopper = .await todo a true ∧ s.Closing a

namespace Stalled

theorem elim (h : Stalled cfg s) (action : Action) (hbegins : s.begins action = false)
    (henabled : s.enabled cfg action = true) : False := by
  rw [h action henabled] at hbegins
  cases hbegins

theorem mutex (h : Stalled cfg s) (hs : s.Obliged) : s.mu = none := by
  cases hmu : s.mu with
  | none => rfl
  | some p =>
      have hheld := hs.mutex p hmu
      cases hp : s.caller p with
      | dispatch d stage =>
          rw [hp] at hheld
          cases stage with
          | reload => exact (h.elim (.reload p d) rfl (by simp [enabled, hp])).elim
          | recheck a => exact (h.elim (.recheck p d a) rfl (by simp [enabled, hp])).elim
          | reevict a => exact (h.elim (.reevict p d a) rfl (by simp [enabled, hp])).elim
          | create => exact (h.elim (.create p d true) rfl (by simp [enabled, hp])).elim
          | publish a => exact (h.elim (.publish p d a) rfl (by simp [enabled, hp])).elim
          | _ => cases hheld
      | _ =>
          rw [hp] at hheld
          cases hheld

/-- No body of `fail` is under way: `FailAll` finds room for every failure. -/
theorem failure (h : Stalled cfg s) (hs : s.Obliged) (hroomy : s.Roomy) (a : Nat) :
    (s.streamer a).failure = .unstarted ∨ (s.streamer a).failure = .done := by
  have hbounded := (hs.streamers a).bounded
  cases hfailure : (s.streamer a).failure with
  | unstarted => exact .inl rfl
  | done => exact .inr rfl
  | mark code => exact (h.elim (.mark a code) rfl (by simp [enabled, hfailure])).elim
  | load code => exact (h.elim (.evictLoad a code) rfl (by simp [enabled, hfailure])).elim
  | evict code => exact (h.elim (.evictDelete a code) rfl (by simp [enabled, hfailure])).elim
  | lock code i =>
      rw [hfailure] at hbounded
      rcases Nat.lt_or_eq_of_le hbounded with hlt | rfl
      · exact (h.elim (.failLock a code i) rfl (by simp [enabled, hfailure, hlt])).elim
      · exact (h.elim (.closeTransport a code) rfl (by simp [enabled, hfailure])).elim
  | scan code i =>
      by_cases hempty : (s.streamer a).callbackMap.shards i = ∅
      · exact (h.elim (.failUnlock a code i) rfl (by simp [enabled, hfailure, hempty])).elim
      · rw [ShardedCallbackMap.shard_eq_empty_iff] at hempty
        push Not at hempty
        obtain ⟨reqID, hi, hfound⟩ := hempty
        obtain ⟨entry, hentry⟩ := Option.ne_none_iff_exists'.mp hfound
        have hroom : s.hasRoom entry.respCh = true := by
          obtain ⟨_ | ch⟩ := entry
          · rfl
          · simp [hasRoom, hroomy (.map a) reqID ch hentry (by simp)]
        exact (h.elim (.failEntry a code i reqID entry) rfl
          (by simp [enabled, hfailure, hi, hentry, hroom])).elim

theorem unlocked (h : Stalled cfg s) (hs : s.Obliged) (hroomy : s.Roomy) (a : Nat)
    (reqID : UInt64) : (s.streamer a).locked reqID = false := by
  unfold NodeStreamer.locked
  rcases h.failure hs hroomy a with hfailure | hfailure <;> rw [hfailure]

theorem done (h : Stalled cfg s) (hs : s.Obliged) (hroomy : s.Roomy)
    (hstarted : (s.streamer a).failure ≠ .unstarted) : (s.streamer a).failure = .done :=
  (h.failure hs hroomy a).resolve_left hstarted

/-- A receiver has returned, or waits for the server. -/
theorem receiver (h : Stalled cfg s) (hs : s.Obliged) (hroomy : s.Roomy) (a : Nat) :
    (s.streamer a).receiver = .returned ∨
      (s.streamer a).receiver = .loop [] ∧ (s.streamer a).cancelled = false := by
  cases hreceiver : (s.streamer a).receiver with
  | returned => exact .inl rfl
  | failing =>
      have hdone := h.done hs hroomy ((hs.streamers a).failing (.inr hreceiver))
      exact (h.elim (.receiverReturn a) rfl (by simp [enabled, hreceiver, hdone])).elim
  | loop rest =>
      cases rest with
      | nil =>
          cases hcancelled : (s.streamer a).cancelled with
          | false => exact .inr ⟨rfl, rfl⟩
          | true =>
              exact (h.elim (.recvErr a) (by simp [begins, hcancelled])
                (by simp [enabled, hreceiver])).elim
      | cons res rest =>
          exact (h.elim (.tally a res rest) rfl (by simp [enabled, hreceiver])).elim
  | demux res rest =>
      exact (h.elim (.demux a res rest) rfl
        (by simp [enabled, hreceiver, h.unlocked hs hroomy])).elim
  | deliver res ch rest =>
      have hroom : s.respCh ch = none := by
        refine hroomy (.delivery a) res.requestId ch ⟨res, ch, ?_, rfl⟩ (by simp)
        rw [hreceiver]
        rfl
      exact (h.elim (.deliver a res ch rest) rfl
        (by simp [enabled, hreceiver, hasRoom, hroom])).elim

/-- A flusher has returned, or waits on an empty channel. -/
theorem flusher (h : Stalled cfg s) (hs : s.Obliged) (hroomy : s.Roomy) (a : Nat) :
    (s.streamer a).flusher = .returned ∨ (s.streamer a).envelopeCh = [] ∧
      (s.streamer a).stopped = false ∧ (s.streamer a).cancelled = false ∧
        ∃ batch, (s.streamer a).flusher = .select batch := by
  cases hflusher : (s.streamer a).flusher with
  | returned => exact .inl rfl
  | send batch last =>
      exact (h.elim (.sendErr a batch last) rfl (by simp [enabled, hflusher])).elim
  | count batch last =>
      exact (h.elim (.count a batch last) rfl (by simp [enabled, hflusher])).elim
  | closeSend => exact (h.elim (.closeSend a) rfl (by simp [enabled, hflusher])).elim
  | failing =>
      have hdone := h.done hs hroomy ((hs.streamers a).failing (.inl hflusher))
      exact (h.elim (.flusherReturn a) rfl (by simp [enabled, hflusher, hdone])).elim
  | select batch =>
      refine .inr ⟨?_, ?_, ?_, batch, rfl⟩
      · cases hch : (s.streamer a).envelopeCh with
        | nil => rfl
        | cons env rest =>
            exact (h.elim (.take a batch env rest) rfl (by simp [enabled, hflusher, hch])).elim
      · by_contra hstopped
        exact h.elim (.stopSeen a batch) rfl (by simpa [enabled, hflusher] using hstopped)
      · by_contra hcancelled
        exact h.elim (.cancelSeen a batch) rfl (by simpa [enabled, hflusher] using hcancelled)

theorem listening (h : Stalled cfg s) (hs : s.Obliged) (hroomy : s.Roomy) (ha : a < s.created)
    (hopen : (s.streamer a).receiver ≠ .returned) : s.Listening a := by
  obtain ⟨hreceiver, hcancelled⟩ := (h.receiver hs hroomy a).resolve_left hopen
  refine ⟨hreceiver, (h.failure hs hroomy a).resolve_right fun hdone => ?_, hcancelled⟩
  rw [(hs.streamers a).done ha hdone] at hcancelled
  cases hcancelled

/-- A streamer that was stopped and is not through waits for the server. -/
theorem closing (h : Stalled cfg s) (hs : s.Obliged) (hroomy : s.Roomy) (ha : a < s.created)
    (hopen : (s.streamer a).receiver ≠ .returned) (hstopped : (s.streamer a).stopped = true) :
    s.Closing a := by
  have hlistening := h.listening hs hroomy ha hopen
  refine ⟨hlistening, ?_, ?_⟩
  · rcases h.flusher hs hroomy a with hreturned | ⟨_, hnot, _⟩
    · exact hreturned
    · rw [hstopped] at hnot
      cases hnot
  · rcases (hs.streamers a).stopped hstopped with hcancelled | hwaits
    · rw [hlistening.2.2] at hcancelled
      cases hcancelled
    · cases hstopper : s.stopper with
      | await todo b cancel =>
          rw [hstopper, Stopper.waits] at hwaits
          split at hwaits
          next hb =>
            cases hwaits
            exact ⟨todo, by rw [hb]⟩
          next => cases hwaits
      | _ =>
          rw [hstopper] at hwaits
          cases hwaits

theorem streamers (h : Stalled cfg s) (hs : s.Obliged) (hroomy : s.Roomy)
    (hsound : (s.streamer a).Sound) (ha : a < s.created) :
    s.Over a ∨ s.Collecting a ∨ s.Closing a := by
  by_cases hreturned : (s.streamer a).receiver = .returned
  · have hdone := hsound.returned hreturned
    have hcancelled := (hs.streamers a).done ha hdone
    refine .inl ⟨hreturned, hdone, hcancelled, ?_⟩
    rcases h.flusher hs hroomy a with hflusher | ⟨_, _, hnot, _⟩
    · exact hflusher
    · rw [hcancelled] at hnot
      cases hnot
  · have hlistening := h.listening hs hroomy ha hreturned
    rcases h.flusher hs hroomy a with hflusher | ⟨hch, _, _, hbatch⟩
    · rcases (hs.streamers a).returned ha hflusher with hcancelled | hstopped
      · rw [hlistening.2.2] at hcancelled
        cases hcancelled
      · exact .inr (.inr (h.closing hs hroomy ha hreturned hstopped))
    · exact .inr (.inl ⟨hlistening, hch, hbatch⟩)

theorem stopper (h : Stalled cfg s) (hs : s.Obliged) (hroomy : s.Roomy) :
    s.stopper = .uncalled ∨ s.stopper = .returned ∨
      ∃ todo a, s.stopper = .await todo a true ∧ s.Closing a := by
  cases hstopper : s.stopper with
  | uncalled => exact .inl rfl
  | returned => exact .inr (.inl rfl)
  | range todo =>
      cases todo with
      | nil => exact (h.elim .stopReturn rfl (by simp [enabled, hstopper])).elim
      | cons ip rest =>
          exact (h.elim (.stopVisit (ip :: rest) ip) rfl (by simp [enabled, hstopper])).elim
  | check todo a => exact (h.elim (.stopCheck todo a) rfl (by simp [enabled, hstopper])).elim
  | await todo a cancel =>
      have hopen : (s.streamer a).receiver ≠ .returned := by
        intro hreturned
        exact h.elim (.stopDone todo a cancel) rfl (by simp [enabled, hstopper, hreturned])
      have hwaits : (s.stopper.waits a).isSome := by simp [hstopper, Stopper.waits]
      have ha := hs.waits a hwaits
      rcases (hs.streamers a).awaited hwaits with hstopped | hdead
      · have hclosing := h.closing hs hroomy ha hopen hstopped
        obtain ⟨todo', hawait⟩ := hclosing.2.2
        exact .inr (.inr ⟨todo', a, hstopper ▸ hawait, hclosing⟩)
      · -- a streamer that was dead when `StopAll` came ends by itself
        have hmarked := (hs.streamers a).dead hdead
        rw [(h.listening hs hroomy ha hopen).2.1] at hmarked
        cases hmarked

theorem callers (h : Stalled cfg s) (hs : s.Obliged) (hroomy : s.Roomy) (hsettled : Settled s)
    (p : Nat) :
    s.caller p = .idle ∨ (∃ env ch, s.caller p = .wait env ch ∧ s.respCh ch = none) ∨
      ∃ d a, s.caller p = .dispatch d (.select a) ∧ s.Closing a := by
  cases hp : s.caller p with
  | idle => exact .inl rfl
  | resolve env entry =>
      exact (h.elim (.resolve p env entry (.error "")) rfl (by simp [enabled, hp])).elim
  | giveUp env entry code msg =>
      exact (h.elim (.giveUp p env entry code msg) rfl (by simp [enabled, hp])).elim
  | wait env ch =>
      refine .inr (.inl ⟨env, ch, rfl, ?_⟩)
      cases hch : s.respCh ch with
      | none => rfl
      | some res => exact (h.elim (.receive p env ch res) rfl (by simp [enabled, hp, hch])).elim
  | expire env todo =>
      cases todo with
      | nil => exact (h.elim (.expireReturn p env) rfl (by simp [enabled, hp])).elim
      | cons ip rest =>
          exact (h.elim (.expireVisit p env (ip :: rest) ip) rfl (by simp [enabled, hp])).elim
  | expireDelete env todo a =>
      exact (h.elim (.expireDelete p env todo a) rfl
        (by simp [enabled, hp, h.unlocked hs hroomy])).elim
  | dispatch d stage =>
      cases stage with
      | load => exact (h.elim (.load p d) rfl (by simp [enabled, hp])).elim
      | check a => exact (h.elim (.check p d a) rfl (by simp [enabled, hp])).elim
      | evict a => exact (h.elim (.evict p d a) rfl (by simp [enabled, hp])).elim
      | lock => exact (h.elim (.lock p d) rfl (by simp [enabled, hp, h.mutex hs])).elim
      | reload => exact (h.elim (.reload p d) rfl (by simp [enabled, hp])).elim
      | recheck a => exact (h.elim (.recheck p d a) rfl (by simp [enabled, hp])).elim
      | reevict a => exact (h.elim (.reevict p d a) rfl (by simp [enabled, hp])).elim
      | create => exact (h.elim (.create p d true) rfl (by simp [enabled, hp])).elim
      | publish a => exact (h.elim (.publish p d a) rfl (by simp [enabled, hp])).elim
      | store a =>
          exact (h.elim (.store p d a) rfl (by simp [enabled, hp, h.unlocked hs hroomy])).elim
      | drop a =>
          exact (h.elim (.drop p d a) rfl (by simp [enabled, hp, h.unlocked hs hroomy])).elim
      | select a =>
          refine .inr (.inr ⟨d, a, rfl, ?_⟩)
          have ha := hsettled.stage p d _ a hp rfl
          have hfull : cfg.batchSize * 2 ≤ (s.streamer a).envelopeCh.length := by
            by_contra hroom
            exact h.elim (.enqueue p d a) rfl (by simp [enabled, hp]; omega)
          rcases h.streamers hs hroomy (hsettled.sound a) ha with hover | hcollecting | hclosing
          · exact (h.elim (.ctxDone p d a) rfl (by simp [enabled, hp, hover.2.2.1])).elim
          · rw [hcollecting.2.1] at hfull
            exact absurd (Nat.mul_pos cfg.positive Nat.two_pos) (Nat.not_lt.mpr hfull)
          · exact hclosing

end Stalled

end ClientState

/-- The router never deadlocks, as long as request ids are used once and a call whose context is
cancelled still finds its callback. If no goroutine can go on, then every caller is idle or
waits for a reply that has not come, or for room on a streamer that is closing; nobody holds the
mutex; and every streamer is over, or open and waiting for requests, or closing and waiting for
the server. `StopAll` waits for nothing else than the server. -/
theorem stalled_atRest {cfg : Config} {s : ClientState}
    (hs : (client cfg).ReachableIf FindsCallback s) (hstalled : s.Stalled cfg) : s.AtRest := by
  have hsettled := settled_of_reachable hs
  have hobliged := obliged_of_reachable hs
  have hrun : (client cfg).Reachable s := System.RunIf.mono (fun _ _ _ => trivial) hs
  have hroomy := hsettled.roomy (attributed_of_reachable hrun)
  exact
    { mutex := hstalled.mutex hobliged
      callers := hstalled.callers hobliged hroomy hsettled
      streamers := fun a ha => hstalled.streamers hobliged hroomy (hsettled.sound a) ha
      stopper := hstalled.stopper hobliged hroomy }

/-- The request is sent and counted, and no answer has come. -/
def awaiting : List Action := answering.take 11 ++ [.count 0 [request 1] false]

theorem stalled_awaiting : ((client singles).after awaiting).Stalled singles := by
  have hcaller (p : Nat) : ((client singles).after awaiting).caller p = .idle ∨
      ((client singles).after awaiting).caller p = .wait (request 1) 0 := by
    rcases p with _ | p
    · exact .inr (by decide +kernel)
    · exact .inl rfl
  have hrespCh : ((client singles).after awaiting).respCh 0 = none := by decide +kernel
  have hstopper : ((client singles).after awaiting).stopper = .uncalled := by decide +kernel
  have hflusher (a : Nat) : (((client singles).after awaiting).streamer a).flusher = .select [] ∨
      (((client singles).after awaiting).streamer a).flusher = .returned := by
    rcases a with _ | a
    · exact .inl (by decide +kernel)
    · exact .inr rfl
  have hch (a : Nat) : (((client singles).after awaiting).streamer a).envelopeCh = [] := by
    rcases a with _ | a
    · decide +kernel
    · rfl
  have hflags (a : Nat) : (((client singles).after awaiting).streamer a).stopped = false ∧
      (((client singles).after awaiting).streamer a).cancelled = false := by
    rcases a with _ | a
    · decide +kernel
    · exact ⟨rfl, rfl⟩
  have hreceiver (a : Nat) : (((client singles).after awaiting).streamer a).receiver = .loop [] ∨
      (((client singles).after awaiting).streamer a).receiver = .returned := by
    rcases a with _ | a
    · exact .inl (by decide +kernel)
    · exact .inr rfl
  have hfailure (a : Nat) : (((client singles).after awaiting).streamer a).failure = .unstarted ∨
      (((client singles).after awaiting).streamer a).failure = .done := by
    rcases a with _ | a
    · exact .inl (by decide +kernel)
    · exact .inr rfl
  generalize (client singles).after awaiting = s at *
  intro action henabled
  cases action with
  | emulate | execute | timeout | tick | recv | stopAll => rfl
  | recvEOF a | recvErr a => simp [ClientState.begins, (hflags a).2]
  | resolve p | store p | enqueue p | ctxDone p | drop p | giveUp p | expireVisit p
  | expireDelete p | expireReturn p | load p | check p | evict p | lock p | reload p | recheck p
  | reevict p | create p | publish p =>
      rcases hcaller p with hp | hp <;> simp [ClientState.enabled, hp] at henabled
  | receive p env ch res =>
      rcases hcaller p with hp | hp
      · simp [ClientState.enabled, hp] at henabled
      · simp only [ClientState.enabled, hp, Bool.and_eq_true, decide_eq_true_eq] at henabled
        obtain ⟨hwait, hres⟩ := henabled
        cases hwait
        cases hrespCh.symm.trans hres
  | take a | stopSeen a | cancelSeen a => simp [ClientState.enabled, hch a, hflags a] at henabled
  | send a | sendErr a | count a | closeSend a | flusherReturn a =>
      rcases hflusher a with ha | ha <;> simp [ClientState.enabled, ha] at henabled
  | tally a | demux a | deliver a | receiverReturn a =>
      rcases hreceiver a with ha | ha <;> simp [ClientState.enabled, ha] at henabled
  | mark a | evictLoad a | evictDelete a | failLock a | failEntry a | failUnlock a
  | closeTransport a =>
      rcases hfailure a with ha | ha <;> simp [ClientState.enabled, ha] at henabled
  | stopVisit | stopCheck | stopDone | stopReturn =>
      simp [ClientState.enabled, hstopper] at henabled

theorem stalled_atRest_awaiting :
    ((client singles).after awaiting).caller 0 = .wait (request 1) 0 ∧
      ((client singles).after awaiting).AtRest := by
  refine ⟨by decide +kernel, stalled_atRest ?_ stalled_awaiting⟩
  exact System.reachableIf_of_admits (by decide +kernel)

/-! ## A callback that is used twice -/

/-- A caller finds the streamer in the map, stores its callback and enqueues its envelope. -/
def submitting (p : Nat) (requestId : UInt64) (a : Nat) : List Action :=
  asking p requestId ++ [.check p (firstAttempt requestId) a, .store p (firstAttempt requestId) a,
    .enqueue p (firstAttempt requestId) a]

/-- The request that was reported as failed is stored a second time. Other requests fill the
channel of the second streamer before its stream breaks as well. -/
def blocking : List Action :=
  [.closeTransport 0 .streamInterrupted, .cancelSeen 0 [], .receiverReturn 0,
    .ctxDone 0 waitingAttempt 0, .drop 0 waitingAttempt 0, .load 0 secondAttempt,
    .lock 0 secondAttempt, .reload 0 secondAttempt, .create 0 secondAttempt true,
    .publish 0 secondAttempt 1, .store 0 secondAttempt 1] ++
  submitting 1 2 1 ++ [.take 1 [] (request 2) []] ++ submitting 2 3 1 ++ submitting 3 4 1 ++
  [.sendErr 1 [request 2] false, .recvErr 1, .mark 1 .transportClosed,
    .evictLoad 1 .transportClosed, .evictDelete 1 .transportClosed, .failLock 1 .transportClosed 0,
    .failUnlock 1 .transportClosed 0, .failLock 1 .transportClosed 1]

def blocked : ClientState := ((client singles).exec failedStored blocking).getD failedStored

theorem reachable_blocked : (client singles).ReachableIf UniqueIDs blocked :=
  reachable_failedStored.trans
    (System.runIf_of_admits (by decide +kernel) (System.exec_getD (by decide +kernel)))

theorem stalled_blocked : blocked.Stalled singles := by
  have hcaller (p : Nat) : blocked.caller p = .idle ∨
      blocked.caller p = .dispatch secondAttempt (.select 1) := by
    rcases p with _ | _ | _ | _ | p
    · exact .inr (by decide +kernel)
    · exact .inl (by decide +kernel)
    · exact .inl (by decide +kernel)
    · exact .inl (by decide +kernel)
    · exact .inl rfl
  have hstopper : blocked.stopper = .uncalled := by decide +kernel
  have hrespCh : (blocked.respCh 0).isNone = false := by decide +kernel
  have hfull : (blocked.streamer 1).envelopeCh.length = 2 := by decide +kernel
  have hopen : (blocked.streamer 1).cancelled = false := by decide +kernel
  have hshard : ((blocked.streamer 1).callbackMap.shards 1).entries = [⟨1, ⟨some 0⟩⟩] := by
    decide +kernel
  -- the goroutines of the second streamer wait for the body of fail
  have hstreamer (a : Nat) : ((blocked.streamer a).flusher = .returned ∧
      (blocked.streamer a).receiver = .returned ∧ (blocked.streamer a).failure = .done) ∨
      a = 1 ∧ (blocked.streamer a).flusher = .failing ∧ (blocked.streamer a).receiver = .failing ∧
        (blocked.streamer a).failure = .scan .transportClosed 1 := by
    rcases a with _ | _ | a
    · exact .inl (by decide +kernel)
    · exact .inr (by decide +kernel)
    · exact .inl ⟨rfl, rfl, rfl⟩
  generalize blocked = s at *
  intro action henabled
  cases action with
  | emulate | execute | timeout | tick | recv | stopAll => rfl
  | enqueue p d a | ctxDone p d a =>
      rcases hcaller p with hp | hp
      · simp [ClientState.enabled, hp] at henabled
      · simp only [ClientState.enabled, hp, Bool.and_eq_true, decide_eq_true_eq] at henabled
        obtain ⟨hselect, hready⟩ := henabled
        cases hselect
        simp [hfull, hopen, singles] at hready
  | resolve p | store p | drop p | giveUp p | receive p | expireVisit p | expireDelete p
  | expireReturn p | load p | check p | evict p | lock p | reload p | recheck p | reevict p
  | create p | publish p =>
      rcases hcaller p with hp | hp <;> simp [ClientState.enabled, hp] at henabled
  | take a | stopSeen a | cancelSeen a | send a | sendErr a | count a | closeSend a
  | flusherReturn a | recvEOF a | recvErr a | tally a | demux a | deliver a | receiverReturn a
  | mark a | evictLoad a | evictDelete a | failLock a | closeTransport a =>
      rcases hstreamer a with ⟨hf, hr, hfailure⟩ | ⟨rfl, hf, hr, hfailure⟩ <;>
        simp [ClientState.enabled, hf, hr, hfailure] at henabled
  | failUnlock a code i =>
      rcases hstreamer a with ⟨_, _, hfailure⟩ | ⟨rfl, _, _, hfailure⟩
      · simp [ClientState.enabled, hfailure] at henabled
      · simp only [ClientState.enabled, hfailure, Bool.and_eq_true, decide_eq_true_eq] at henabled
        obtain ⟨hscan, hempty⟩ := henabled
        cases hscan
        rw [hshard] at hempty
        cases hempty
  | failEntry a code i reqID entry =>
      rcases hstreamer a with ⟨_, _, hfailure⟩ | ⟨rfl, _, _, hfailure⟩
      · simp [ClientState.enabled, hfailure] at henabled
      · simp only [ClientState.enabled, hfailure, Bool.and_eq_true, decide_eq_true_eq] at henabled
        obtain ⟨⟨⟨hscan, hi⟩, hlookup⟩, hroom⟩ := henabled
        cases hscan
        -- the failure was put on the channel already, and nobody reads it
        rw [ShardedCallbackMap.lookup, hi] at hlookup
        have hmem := AList.mem_lookup_iff.mp (Option.mem_def.mpr hlookup)
        rw [hshard] at hmem
        cases List.mem_singleton.mp hmem
        rw [ClientState.hasRoom, Option.all_some, hrespCh] at hroom
        cases hroom
  | stopVisit | stopCheck | stopDone | stopReturn =>
      simp [ClientState.enabled, hstopper] at henabled

/-- Otherwise `FailAll` can wait for good, with the lock of a shard, for a caller that waits
for the stream to be cancelled: the channel of the caller is full. -/
theorem failAll_blocks :
    ∃ s, (client singles).ReachableIf UniqueIDs s ∧ s.Stalled singles ∧ ¬ s.AtRest := by
  refine ⟨blocked, reachable_blocked, stalled_blocked, fun hrest => ?_⟩
  have hused : 1 < blocked.created := by decide +kernel
  have hflusher : (blocked.streamer 1).flusher = .failing := by decide +kernel
  rcases hrest.streamers 1 hused with hover | ⟨_, _, batch, hselect⟩ | hclosing
  · cases hflusher.symm.trans hover.2.2.2
  · cases hflusher.symm.trans hselect
  · cases hflusher.symm.trans hclosing.2.1

end ActorCluster.Client
