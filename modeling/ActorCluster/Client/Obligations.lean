import ActorCluster.Client.Resend

/-! # What is owed to those who wait

A caller waits for the mutex, which another caller holds in the middle of `getStreamer`. The
goroutines of a streamer wait for the body of `fail`, which one of them has entered. `StopAll`
waits for a streamer that it has stopped, or that was dead before. Whenever somebody waits, the
one who is waited for is under way.
-/

namespace ActorCluster.Client

open Remote Transition

/-- `getStreamer` has the mutex. -/
def Caller.holding : Caller → Bool
  | .dispatch _ .reload | .dispatch _ (.recheck _) | .dispatch _ (.reevict _)
  | .dispatch _ .create | .dispatch _ (.publish _) => true
  | _ => false

/-- The flusher has seen `stopCh`. -/
def Flusher.last : Flusher → Bool
  | .send _ last | .count _ last => last
  | .closeSend => true
  | _ => false

/-- `FailAll` visits the shards that there are. -/
def Failure.Bounded : Failure → Prop
  | .lock _ i => i ≤ shardCount
  | .scan _ i => i < shardCount
  | _ => True

/-- The body of `fail` has marked the streamer. -/
def Failure.marked : Failure → Bool
  | .unstarted | .mark _ => false
  | _ => true

/-- `StopAll` waits for the streamer, and whether it cancels the context afterwards. -/
def Stopper.waits (a : Nat) : Stopper → Option Bool
  | .await _ b cancel => if b = a then some cancel else none
  | _ => none

/-- What the positions in a streamer tell about its flags. -/
structure NodeStreamer.Staged (ns : NodeStreamer) (used : Prop) (waits : Option Bool) : Prop where
  failing : ns.flusher = .failing ∨ ns.receiver = .failing → ns.failure ≠ .unstarted
  bounded : ns.failure.Bounded
  dead : ns.dead = true → ns.failure.marked = true
  done : used → ns.failure = .done → ns.cancelled = true
  last : ns.flusher.last = true → ns.stopped = true
  returned : used → ns.flusher = .returned → ns.cancelled = true ∨ ns.stopped = true
  stopped : ns.stopped = true → ns.cancelled = true ∨ waits = some true
  awaited : waits.isSome → ns.stopped = true ∨ ns.dead = true

namespace NodeStreamer

variable {ns : NodeStreamer} {used : Prop} {waits : Option Bool}

theorem staged_new (ip : String) (used : Prop) : (newNodeStreamer ip).Staged used none where
  failing h := by rcases h with h | h <;> cases h
  bounded := trivial
  dead h := by cases h
  done _ h := by cases h
  last h := by cases h
  returned _ h := by cases h
  stopped h := by cases h
  awaited h := by cases h

namespace Staged

theorem frame (h : ns.Staged used waits) (envelopeCh : List RemoteEnvelope)
    (callbackMap : ShardedCallbackMap) (ended : Bool) (sent : List RemoteEnvelope) :
    { ns with
      envelopeCh := envelopeCh, callbackMap := callbackMap, ended := ended, sent := sent }.Staged
      used waits :=
  ⟨h.failing, h.bounded, h.dead, h.done, h.last, h.returned, h.stopped, h.awaited⟩

theorem mono (h : ns.Staged used waits) {used' : Prop} (hused : used' → used) :
    ns.Staged used' waits :=
  { h with
    done := fun hu => h.done (hused hu)
    returned := fun hu => h.returned (hused hu) }

theorem flush (h : ns.Staged used waits) {flusher : Flusher} (hfailing : flusher ≠ .failing)
    (hlast : flusher.last = true → ns.stopped = true)
    (hreturned : used → flusher = .returned → ns.cancelled = true ∨ ns.stopped = true) :
    { ns with flusher := flusher }.Staged used waits :=
  { h with
    failing := fun hf => h.failing (.inr (hf.resolve_left hfailing))
    last := hlast
    returned := hreturned }

theorem receive (h : ns.Staged used waits) {receiver : Receiver} (hfailing : receiver ≠ .failing) :
    { ns with receiver := receiver }.Staged used waits :=
  { h with failing := fun hf => h.failing (.inl (hf.resolve_right hfailing)) }

theorem fail (h : ns.Staged used waits) {failure : Failure} (hmarked : failure.marked = true)
    (hbounded : failure.Bounded) (hdone : failure ≠ .done) :
    { ns with failure := failure }.Staged used waits :=
  { h with
    failing := fun _ hfailure => by
      change failure = .unstarted at hfailure
      rw [hfailure] at hmarked
      cases hmarked
    bounded := hbounded
    dead := fun _ => hmarked
    done := fun _ hfailure => absurd hfailure hdone }

end Staged

/-- Whoever calls `fail` finds its body entered or enters it. -/
theorem Staged.startFail (h : ns.Staged used waits) {flusher : Flusher} {receiver : Receiver}
    (hlast : flusher.last = true → ns.stopped = true)
    (hreturned : used → flusher = .returned → ns.cancelled = true ∨ ns.stopped = true)
    (code : ErrorCode) :
    ({ ns with ended := true, flusher := flusher, receiver := receiver }.startFail code).Staged
      used waits := by
  unfold NodeStreamer.startFail
  split
  next hfailure =>
    change ns.failure = .unstarted at hfailure
    refine ⟨fun _ hf => ?_, trivial, fun hdead => ?_, fun _ hf => ?_, hlast, hreturned, h.stopped,
      h.awaited⟩
    · cases hf
    · have hmarked := h.dead hdead
      rw [hfailure] at hmarked
      cases hmarked
    · cases hf
  next hfailure =>
    exact ⟨fun _ => hfailure, h.bounded, h.dead, h.done, hlast, hreturned, h.stopped, h.awaited⟩

end NodeStreamer

namespace ClientState

variable {cfg : Config} {s : ClientState} {action : Action}

def Staged (s : ClientState) (a : Nat) : Prop :=
  (s.streamer a).Staged (a < s.created) (s.stopper.waits a)

/-- The mutex is held by a caller that can go on, and whoever waits for a streamer waits for
one that is stopped or fails. -/
structure Obliged (s : ClientState) : Prop where
  mutex : ∀ p, s.mu = some p → (s.caller p).holding = true
  streamers : ∀ a, s.Staged a
  waits : ∀ a, (s.stopper.waits a).isSome → a < s.created
  checks : ∀ todo a, s.stopper = .check todo a → a < s.created

theorem obliged_newClient : newClient.Obliged where
  mutex _ h := by cases h
  streamers a :=
    { failing := fun h => by rcases h with h | h <;> cases h
      bounded := trivial
      dead := fun h => by cases h
      done := fun h => absurd h (Nat.not_lt_zero a)
      last := fun h => by cases h
      returned := fun h => absurd h (Nat.not_lt_zero a)
      stopped := fun h => by cases h
      awaited := fun h => by cases h }
  waits _ h := by cases h
  checks _ _ h := by cases h

end ClientState

/-- A caller keeps the mutex until it unlocks it. -/
theorem CallerMove.holding {s : ClientState} {action : Action} {p : Nat} {c : Caller}
    (h : CallerMove s action p c) (hheld : (s.caller p).holding = true) :
    c.holding = true ∨ (∃ d a, action = .recheck p d a) ∨ (∃ d, action = .create p d false) ∨
      ∃ d a, action = .publish p d a := by
  cases h with
  | stay => exact .inl hheld
  | go d stage stage' hp hmove =>
      rw [hp] at hheld
      cases hmove with
      | refound | remissing | reevict | create | redead => exact .inl rfl
      | realive a haction => exact .inr (.inl ⟨d, a, haction⟩)
      | publish a haction => exact .inr (.inr (.inr ⟨d, a, haction⟩))
      | _ => cases hheld
  | refused d haction => exact .inr (.inr (.inl ⟨d, haction⟩))
  | emulate _ _ hp | execute _ _ hp | resolved _ _ _ hp | unresolved _ _ _ hp | enqueue _ _ _ hp
  | retry _ _ _ hp | surrender _ _ _ hp | giveUp _ _ _ _ hp | receive _ _ hp | timeout _ _ hp
  | visit _ _ _ _ hp | skip _ _ _ hp | expire _ _ _ hp | expired _ hp =>
      rw [hp] at hheld
      cases hheld

/-- The ways in which `StopAll` goes on in one step of the client. -/
inductive StopperMove (s : ClientState) : Stopper → Prop
  | stay : StopperMove s s.stopper
  | range (todo : List String) : StopperMove s (.range todo)
  | visit (todo : List String) (ip : String) (a : Nat) (hentry : s.streamers ip = some a) :
      StopperMove s (.check todo a)
  | await (todo : List String) (a : Nat) (cancel : Bool) (hstopper : s.stopper = .check todo a) :
      StopperMove s (.await todo a cancel)
  | returned : StopperMove s .returned

namespace ClientState

variable {cfg : Config} {s : ClientState} {action : Action}

/-- Every step makes one move of `StopAll`. -/
theorem stopperMove_apply (henabled : s.enabled cfg action = true) :
    StopperMove s (s.apply cfg action).stopper := by
  cases action with
  | stopAll => exact .range _
  | stopVisit todo ip =>
      simp only [apply]
      cases hentry : s.streamers ip with
      | none => exact .range _
      | some a => exact .visit _ ip a hentry
  | stopCheck todo a => exact .await todo a _ (of_decide_eq_true henabled)
  | stopDone todo a cancel => exact .range todo
  | stopReturn => exact .returned
  | create p d connected => cases connected <;> exact .stay
  | tally | demux =>
      simp only [apply]
      split <;> exact .stay
  | failEntry a code i reqID entry => obtain ⟨_ | ch⟩ := entry <;> exact .stay
  | _ => exact .stay

namespace Obliged

theorem mutex_step (h : s.Obliged) (henabled : s.enabled cfg action = true) {p : Nat}
    (hp : (s.apply cfg action).mu = some p) :
    ((s.apply cfg action).caller p).holding = true := by
  have hmutex := mutexMove_apply henabled
  rw [hp] at hmutex
  generalize hmu : some p = mu at hmutex
  cases hmutex with
  | stay =>
      have hheld := h.mutex p hmu.symm
      rcases (callerMove_apply henabled p).holding hheld with
        hkept | ⟨d, a, rfl⟩ | ⟨d, rfl⟩ | ⟨d, a, rfl⟩
      · exact hkept
      · -- only a dead streamer leaves the mutex with the caller
        change (if (s.streamer a).dead then s.mu else none) = some p at hp
        have hself : (s.apply cfg (.recheck p d a)).caller p =
            .dispatch d (if (s.streamer a).dead then .reevict a else .store a) :=
          Function.update_self _ _ _
        rw [hself]
        split at hp
        next hdead => rw [if_pos hdead]; rfl
        next => cases hp
      · cases hp
      · cases hp
  | lock q d haction =>
      cases hmu
      subst haction
      have hself : (s.apply cfg (.lock p d)).caller p = .dispatch d .reload :=
        Function.update_self _ _ _
      rw [hself]
      rfl
  | _ => cases hmu

theorem staged_step (h : s.Obliged) (henabled : s.enabled cfg action = true) (b : Nat) :
    (s.apply cfg action).Staged b := by
  have hput {a : Nat} {ns : NodeStreamer}
      (hns : s.Staged a → ns.Staged (a < s.created) (s.stopper.waits a)) :
      (Function.update s.streamer a ns b).Staged (b < s.created) (s.stopper.waits b) := by
    by_cases hb : b = a
    · subst hb
      rw [Function.update_self]
      exact hns (h.streamers b)
    · rw [Function.update_of_ne hb]
      exact h.streamers b
  cases action with
  | create p d connected =>
      cases connected with
      | false => exact h.streamers b
      | true =>
          change (Function.update s.streamer s.created (newNodeStreamer d.targetIP) b).Staged
            (b < s.created + 1) (s.stopper.waits b)
          by_cases hb : b = s.created
          · have hnone : s.stopper.waits b = none := by
              rw [← Option.not_isSome_iff_eq_none]
              intro hwaits
              exact absurd (h.waits b hwaits) (by omega)
            rw [hnone, hb, Function.update_self]
            exact NodeStreamer.staged_new _ _
          · rw [Function.update_of_ne hb]
            exact (h.streamers b).mono fun hlt => by omega
  | store | enqueue | drop | expireDelete => exact hput fun ha => ha.frame _ _ _ _
  | take a batch env rest =>
      refine hput fun ha => (ha.frame rest _ _ _).flush ?_ ?_ ?_
      · split <;> simp
      · split <;> simp [Flusher.last]
      · split <;> simp
  | tick a batch =>
      refine hput fun ha => ha.flush ?_ ?_ ?_
      · split <;> simp
      · split <;> simp [Flusher.last]
      · split <;> simp
  | stopSeen a batch =>
      simp only [enabled, Bool.and_eq_true] at henabled
      refine hput fun ha => ha.flush ?_ (fun _ => henabled.2) ?_
      · split <;> simp
      · split <;> simp
  | cancelSeen a batch =>
      simp only [enabled, Bool.and_eq_true] at henabled
      exact hput fun ha => ha.flush (by simp) (by simp [Flusher.last]) fun _ _ => .inl henabled.2
  | send a batch last =>
      simp only [enabled, Bool.and_eq_true, decide_eq_true_eq] at henabled
      refine hput fun ha => (ha.frame _ _ _ (_ ++ batch)).flush ?_
        (fun hlast => ha.last ?_) ?_
      · simp
      · rw [henabled.1]
        exact hlast
      · simp
  | sendErr a batch last =>
      exact hput fun ha => ha.startFail (by simp [Flusher.last]) (by simp) _
  | count a batch last =>
      have hcount : (s.streamer a).flusher = .count batch last := by simpa [enabled] using henabled
      refine hput fun ha => ha.flush ?_ (fun hlast => ha.last ?_) ?_
      · cases last <;> simp [NodeStreamer.afterSend]
      · rw [hcount]
        cases last
        · cases hlast
        · rfl
      · cases last <;> simp [NodeStreamer.afterSend]
  | closeSend a =>
      have hclose : (s.streamer a).flusher = .closeSend := by simpa [enabled] using henabled
      refine hput fun ha => ha.flush (by simp) (by simp [Flusher.last]) fun _ _ => .inr (ha.last ?_)
      rw [hclose]
      rfl
  | flusherReturn a =>
      simp only [enabled, Bool.and_eq_true, decide_eq_true_eq] at henabled
      exact hput fun ha => ha.flush (by simp) (by simp [Flusher.last]) fun hused _ =>
        .inl (ha.done hused henabled.2)
  | recv | deliver | receiverReturn => exact hput fun ha => ha.receive (by simp)
  | recvEOF a =>
      refine hput fun ha => ?_
      split
      · exact (ha.frame _ _ true _).receive (by simp)
      · exact ha.startFail ha.last ha.returned _
  | recvErr a => exact hput fun ha => ha.startFail ha.last ha.returned _
  | tally a res rest =>
      simp only [apply]
      split <;> exact hput fun ha => ha.receive (by simp)
  | demux a res rest =>
      simp only [apply]
      split
      · exact hput fun ha => ha.receive (by simp)
      · refine hput fun ha => (ha.frame _ (.delete _ res.requestId) _ _).receive ?_
        simp
      · refine hput fun ha => (ha.frame _ (.delete _ res.requestId) _ _).receive ?_
        simp
  | mark a code =>
      exact hput fun ha => ⟨fun _ => by simp, trivial, fun _ => rfl, fun _ => by simp, ha.last,
        ha.returned, ha.stopped, fun _ => .inr rfl⟩
  | evictLoad a code =>
      refine hput fun ha => ha.fail ?_ ?_ ?_ <;> split <;> simp [Failure.marked, Failure.Bounded]
  | evictDelete a code => exact hput fun ha => ha.fail rfl (Nat.zero_le _) (by simp)
  | failLock a code i =>
      simp only [enabled, Bool.and_eq_true, decide_eq_true_eq] at henabled
      exact hput fun ha => ha.fail rfl henabled.2 (by simp)
  | failEntry a code i reqID entry =>
      obtain ⟨_ | ch⟩ := entry <;> exact hput fun ha => ha.frame _ _ _ _
  | failUnlock a code i =>
      simp only [enabled, Bool.and_eq_true, decide_eq_true_eq] at henabled
      refine hput fun ha => ha.fail rfl ?_ (by simp)
      have hbounded := ha.bounded
      rw [henabled.1] at hbounded
      exact hbounded
  | closeTransport a code =>
      exact hput fun ha => ⟨fun _ => by simp, trivial, fun _ => rfl, fun _ _ => rfl, ha.last,
        fun _ _ => .inl rfl, fun _ => .inl rfl, ha.awaited⟩
  | stopAll | stopReturn =>
      have hb := h.streamers b
      rw [Staged, of_decide_eq_true henabled] at hb
      exact hb
  | stopVisit todo ip =>
      simp only [enabled, Bool.and_eq_true, decide_eq_true_eq] at henabled
      have hb := h.streamers b
      rw [Staged, henabled.1] at hb
      simp only [Staged, apply]
      cases s.streamers ip <;> exact hb
  | stopCheck todo a =>
      have hb := h.streamers b
      rw [Staged, of_decide_eq_true henabled] at hb
      simp only [Staged, apply, setStreamer, Stopper.waits]
      by_cases hba : b = a
      · subst hba
        rw [Function.update_self, if_pos rfl]
        refine ⟨hb.failing, hb.bounded, hb.dead, hb.done, fun hlast => ?_,
          fun hused hreturned => ?_, fun hstopped => ?_, fun _ => ?_⟩
        · simp [hb.last hlast]
        · exact (hb.returned hused hreturned).imp_right fun hstopped => by simp [hstopped]
        · cases hdead : (s.streamer b).dead with
          | true =>
              rw [hdead, Bool.not_true, Bool.or_false] at hstopped
              exact (hb.stopped hstopped).imp_right fun hnone => by cases hnone
          | false => exact .inr rfl
        · cases hdead : (s.streamer b).dead with
          | true => exact .inr rfl
          | false => exact .inl (Bool.or_true _)
      · rw [Function.update_of_ne hba, if_neg (Ne.symm hba)]
        exact hb
  | stopDone todo a cancel =>
      simp only [enabled, Bool.and_eq_true, decide_eq_true_eq] at henabled
      have hb := h.streamers b
      rw [Staged, henabled.1, Stopper.waits] at hb
      change (Function.update s.streamer a { s.streamer a with
        cancelled := (s.streamer a).cancelled || cancel } b).Staged (b < s.created) none
      by_cases hba : b = a
      · subst hba
        rw [if_pos rfl] at hb
        rw [Function.update_self]
        refine ⟨hb.failing, hb.bounded, hb.dead, fun hused hdone => ?_, hb.last,
          fun hused hreturned => ?_, fun hstopped => .inl ?_, fun hnone => by cases hnone⟩
        · simp [hb.done hused hdone]
        · exact (hb.returned hused hreturned).imp_left fun hcancelled => by simp [hcancelled]
        · rcases hb.stopped hstopped with hcancelled | hcancel
          · simp [hcancelled]
          · cases hcancel
            exact Bool.or_true _
      · rw [if_neg (Ne.symm hba)] at hb
        rw [Function.update_of_ne hba]
        exact hb
  | _ => exact h.streamers b

theorem step (h : s.Obliged) (hentry : ∀ ip a, s.streamers ip = some a → a < s.created)
    (henabled : s.enabled cfg action = true) : (s.apply cfg action).Obliged where
  mutex _ := h.mutex_step henabled
  streamers := h.staged_step henabled
  waits b hwaits := by
    refine Nat.lt_of_lt_of_le ?_ (created_le cfg s action)
    have hmove := stopperMove_apply henabled
    generalize (s.apply cfg action).stopper = stopper at hmove hwaits
    cases hmove with
    | stay => exact h.waits b hwaits
    | await todo a cancel hstopper =>
        have hab : a = b := by
          by_contra hne
          simp [Stopper.waits, hne] at hwaits
        exact hab ▸ h.checks todo a hstopper
    | _ => cases hwaits
  checks todo a hcheck := by
    refine Nat.lt_of_lt_of_le ?_ (created_le cfg s action)
    have hmove := stopperMove_apply henabled
    rw [hcheck] at hmove
    generalize hstopper : Stopper.check todo a = stopper at hmove
    cases hmove with
    | stay => exact h.checks todo a hstopper.symm
    | visit todo' ip a' hfound =>
        cases hstopper
        exact hentry ip a hfound
    | _ => cases hstopper

end Obliged

end ClientState

theorem obliged_of_reachable {cfg : Config} {s : ClientState}
    (hs : (client cfg).ReachableIf FindsCallback s) : s.Obliged := by
  refine hs.invariant_of (fun s hs => settled_of_reachable hs) ClientState.obliged_newClient ?_
  intro s action t hsettled h _ hstep
  obtain ⟨henabled, rfl⟩ := System.guarded_step_eq_some_iff.mp hstep
  exact h.step hsettled.entry henabled

end ActorCluster.Client
