import ActorCluster.Client.LiveStream

/-! # What a dead streamer leaves behind

`FailAll` empties the shards one after the other. A call that fetched the streamer
earlier may store its callback in a shard that `FailAll` has passed. If it then
sees that the context is cancelled, it takes the callback back; if it still finds
room in `envelopeCh`, the callback stays in the map for good.
-/

namespace ActorCluster.Client

open Remote Transition

/-- `FailAll` has emptied the shard. -/
def Failure.passed : Failure → Nat → Bool
  | .lock _ i, j | .scan _ i, j => j < i
  | .done, _ => true
  | _, _ => false

/-- An envelope enters the channel only while `FailAll` will still find its
callback. -/
def EnqueuesInTime (s : ClientState) : Action → Prop
  | .enqueue _ d a =>
      (s.streamer a).failure.passed (shardIdx d.env.requestId) = false ∨
        (s.streamer a).callbackMap.lookup d.env.requestId = none
  | _ => True

instance (s : ClientState) (action : Action) : Decidable (EnqueuesInTime s action) := by
  unfold EnqueuesInTime
  split <;> infer_instance

/-- `dispatchEnvelope` has the streamer in its hands. -/
def Stage.uses (a : Nat) : Stage → Bool
  | .store b | .select b | .drop b => b = a
  | _ => false

/-- The call has stored its callback in the map and has not left the streamer. -/
def Caller.Registered (a : Nat) (reqID : UInt64) (c : Caller) : Prop :=
  ∃ d stage, c = .dispatch d stage ∧ (stage = .select a ∨ stage = .drop a) ∧
    d.env.requestId = reqID

/-- A callback will be found by `FailAll` or belongs to a call that is not over. -/
def Recoverable (s : ClientState) : Prop :=
  ∀ a reqID, ((s.streamer a).callbackMap.lookup reqID).isSome →
    (s.streamer a).failure.passed (shardIdx reqID) = false ∨
      ∃ p, (s.caller p).Registered a reqID

theorem recoverable_newClient : Recoverable newClient := by
  intro a reqID h
  have hnone : (newClient.streamer a).callbackMap.lookup reqID = none :=
    ShardedCallbackMap.lookup_new reqID
  rw [hnone] at h
  cases h

section Moves

variable {s : ClientState} {action : Action} {a : Nat} {ns : NodeStreamer} {reqID : UInt64}

theorem NodeStreamer.startFail_passed (ns : NodeStreamer) (code : ErrorCode) (i : Nat) :
    (ns.startFail code).failure.passed i = ns.failure.passed i := by
  unfold startFail
  split
  next h => rw [h]; rfl
  next => rfl

/-- `FailAll` passes a shard only once it is empty. -/
theorem StreamerMove.passed_back (h : StreamerMove s action a ns)
    (hlookup : ((s.streamer a).callbackMap.lookup reqID).isSome)
    (hpassed : ns.failure.passed (shardIdx reqID) = true) :
    (s.streamer a).failure.passed (shardIdx reqID) = true := by
  cases h with
  | create => cases hpassed
  | sendErr code | recvErr code => rwa [NodeStreamer.startFail_passed] at hpassed
  | mark => cases hpassed
  | failure failure hmove =>
      cases hfailure : (s.streamer a).failure <;> rw [hfailure] at hmove <;> cases hmove
      case lock.lock => exact hpassed
      case scan.unlock code i hempty =>
        have hle : shardIdx reqID ≤ i := by
          simpa [Failure.passed, Nat.lt_succ_iff] using hpassed
        rcases Nat.lt_or_eq_of_le hle with hlt | heq
        · simpa [Failure.passed] using hlt
        · rw [((s.streamer a).callbackMap.shard_eq_empty_iff.mp hempty) reqID heq] at hlookup
          cases hlookup
      all_goals simp [Failure.passed] at hpassed
  | close code hfailure =>
      rw [hfailure]
      exact decide_eq_true (shardIdx_lt reqID)
  | _ => exact hpassed

/-- A call leaves the streamer by enqueueing its envelope or by taking its
callback back. -/
theorem CallerMove.registered {p : Nat} {c : Caller} (h : CallerMove s action p c)
    (hp : (s.caller p).Registered a reqID) :
    c.Registered a reqID ∨ (∃ d, action = .enqueue p d a ∧ d.env.requestId = reqID) ∨
      ∃ d, action = .drop p d a ∧ d.env.requestId = reqID := by
  obtain ⟨d, stage, hd, hstage, hreq⟩ := hp
  cases h with
  | stay => exact .inl ⟨d, stage, hd, hstage, hreq⟩
  | go d' stage' stage'' hp' hmove =>
      rw [hd] at hp'
      cases hp'
      rcases hstage with rfl | rfl <;> cases hmove
      exact .inl ⟨d, _, rfl, .inr rfl, hreq⟩
  | enqueue d' b haction hp' =>
      rw [hd] at hp'
      cases hp'
      rcases hstage with hstage | hstage <;> cases hstage
      exact .inr (.inl ⟨d, haction, hreq⟩)
  | retry d' b haction hp' | surrender d' b haction hp' =>
      rw [hd] at hp'
      cases hp'
      rcases hstage with hstage | hstage <;> cases hstage
      exact .inr (.inr ⟨d, haction, hreq⟩)
  | refused d' haction hp' =>
      rw [hd] at hp'
      cases hp'
      rcases hstage with hstage | hstage <;> cases hstage
  | _ => simp_all

end Moves

theorem Recoverable.step {cfg : Config} {s : ClientState} {action : Action} (h : Recoverable s)
    (hguard : EnqueuesInTime s action) (henabled : s.enabled cfg action = true) :
    Recoverable (s.apply cfg action) := by
  intro a reqID hlookup
  have hmove := ClientState.streamerMove_apply henabled a
  obtain ⟨entry, hentry⟩ := Option.isSome_iff_exists.mp hlookup
  rcases hmove.lookup_back hentry with hold | ⟨p, d, rfl, _, rfl, _⟩
  · have hsome : ((s.streamer a).callbackMap.lookup reqID).isSome := by rw [hold]; rfl
    -- what `FailAll` has not passed before, it has not passed now
    have hkeep (hnot : (s.streamer a).failure.passed (shardIdx reqID) = false) :
        ((s.apply cfg action).streamer a).failure.passed (shardIdx reqID) = false := by
      by_contra hpassed
      rw [hmove.passed_back hsome (by simpa using hpassed)] at hnot
      cases hnot
    rcases h a reqID hsome with hnot | ⟨p, hp⟩
    · exact .inl (hkeep hnot)
    · rcases (ClientState.callerMove_apply henabled p).registered hp with
        hstill | ⟨d, rfl, rfl⟩ | ⟨d, rfl, rfl⟩
      · exact .inr ⟨p, hstill⟩
      · rcases hguard with hnot | hnone
        · exact .inl (hkeep hnot)
        · rw [hold] at hnone
          cases hnone
      · -- the callback that is taken back is no longer in the map
        change ((Function.update s.streamer a _ a).callbackMap.lookup _) = _ at hentry
        rw [Function.update_self, ShardedCallbackMap.lookup_delete_self] at hentry
        cases hentry
  · exact .inr ⟨p, d, .select a, Function.update_self _ _ _, .inl rfl, rfl⟩

theorem recoverable_of_reachable {cfg : Config} {s : ClientState}
    (hs : (client cfg).ReachableIf EnqueuesInTime s) : Recoverable s := by
  refine hs.invariant recoverable_newClient fun s action t h hguard hstep => ?_
  obtain ⟨henabled, rfl⟩ := System.guarded_step_eq_some_iff.mp hstep
  exact h.step hguard henabled

/-- If every envelope is enqueued before `FailAll` has passed its callback, a
streamer whose `fail` is complete and which no call has in its hands has no
callback left. -/
theorem no_callback_stranded {cfg : Config} {s : ClientState}
    (hs : (client cfg).ReachableIf EnqueuesInTime s) {a : Nat}
    (hdone : (s.streamer a).failure = .done)
    (hunused : ∀ p d stage, s.caller p = .dispatch d stage → stage.uses a = false) :
    (s.streamer a).callbackMap.IsEmpty := by
  rw [ShardedCallbackMap.isEmpty_iff]
  intro reqID
  by_contra hne
  rcases recoverable_of_reachable hs a reqID (Option.isSome_iff_ne_none.mpr hne) with
    hnot | ⟨p, d, stage, hp, hstage, _⟩
  · rw [hdone] at hnot
    cases hnot
  · have huses := hunused p d stage hp
    rcases hstage with rfl | rfl <;> simp [Stage.uses] at huses

/-- `FailAll` visits empty shards. -/
def scanning (a : Nat) (code : ErrorCode) (i n : Nat) : List Action :=
  (List.range' i n).flatMap fun j => [.failLock a code j, .failUnlock a code j]

theorem exec_scanning {cfg : Config} {s : ClientState} {a i n : Nat} {code : ErrorCode}
    (hfailure : (s.streamer a).failure = .lock code i)
    (hempty : ∀ j, i ≤ j → (s.streamer a).callbackMap.shards j = ∅) (hn : i + n ≤ shardCount) :
    (client cfg).exec s (scanning a code i n) = some (s.setFailure a (.lock code (i + n))) := by
  induction n generalizing i s with
  | zero =>
      have hsame : s.setFailure a (.lock code i) = s := by
        rw [ClientState.setFailure, ← hfailure, ClientState.setStreamer, Function.update_eq_self]
      exact congrArg some hsame.symm
  | succ n ih =>
      have hvisit : (client cfg).exec s [.failLock a code i, .failUnlock a code i] =
          some (s.setFailure a (.lock code (i + 1))) := by
        have hlt : i < shardCount := by omega
        simp [System.exec, client, System.guarded, ClientState.enabled, ClientState.apply,
          ClientState.setFailure, ClientState.setStreamer, hfailure, hlt, hempty i (Nat.le_refl i)]
      have hnext : ((s.setFailure a (.lock code (i + 1))).streamer a) =
          { s.streamer a with failure := .lock code (i + 1) } :=
        Function.update_self _ _ _
      rw [scanning, List.range'_succ, List.flatMap_cons, System.exec_append, hvisit,
        Option.bind_some, ← scanning, ih (by rw [hnext]) ?_ (by omega)]
      · simp [ClientState.setFailure, ClientState.setStreamer, Nat.add_assoc, Nat.add_comm 1]
      · rw [hnext]
        exact fun j hj => hempty j (by omega)

/-- The scan of empty shards is a run, whatever is asked of the other steps. -/
theorem runIf_scanning {cfg : Config} {guard : ClientState → Action → Prop} {s : ClientState}
    {a i n : Nat} {code : ErrorCode} (hfailure : (s.streamer a).failure = .lock code i)
    (hempty : ∀ j, i ≤ j → (s.streamer a).callbackMap.shards j = ∅) (hn : i + n ≤ shardCount)
    (hguard : ∀ s j, guard s (.failLock a code j) ∧ guard s (.failUnlock a code j)) :
    (client cfg).RunIf guard s (s.setFailure a (.lock code (i + n))) := by
  refine System.runIf_of_exec (fun action haction s => ?_) (exec_scanning hfailure hempty hn)
  obtain ⟨j, _, hj⟩ := List.mem_flatMap.mp haction
  simp only [List.mem_cons, List.not_mem_nil, or_false] at hj
  rcases hj with rfl | rfl
  · exact (hguard s j).1
  · exact (hguard s j).2

/-- The first request stores its callback. -/
def registering : List Action := asking 0 1 ++ creating 0 1 0 ++ [Action.store 0 (firstAttempt 1) 0]

/-- The stream breaks, and `FailAll` finds the callback in shard 1. -/
def failingFirst : List Action :=
  [.recvErr 0, .mark 0 .streamInterrupted, .evictLoad 0 .streamInterrupted,
    .evictDelete 0 .streamInterrupted, .failLock 0 .streamInterrupted 0,
    .failUnlock 0 .streamInterrupted 0, .failLock 0 .streamInterrupted 1,
    .failEntry 0 .streamInterrupted 1 1 ⟨none⟩, .failUnlock 0 .streamInterrupted 1]

def failedFirst : ClientState :=
  (client singles).after (registering ++ [Action.enqueue 0 (firstAttempt 1) 0] ++ failingFirst)

/-- `fail` is complete. -/
def closedFirst : ClientState :=
  (failedFirst.setFailure 0 (.lock .streamInterrupted shardCount)).apply singles
    (.closeTransport 0 .streamInterrupted)

theorem reachable_failedFirst : (client singles).ReachableIf EnqueuesInTime failedFirst :=
  System.reachableIf_of_admits (by decide +kernel)

theorem reachable_closedFirst : (client singles).ReachableIf EnqueuesInTime closedFirst := by
  have hrun : (client singles).RunIf EnqueuesInTime failedFirst
      (failedFirst.setFailure 0 (.lock .streamInterrupted shardCount)) := by
    refine runIf_scanning (i := 2) (n := 254) (by decide +kernel) ?_ (Nat.le_refl _)
      fun _ _ => ⟨trivial, trivial⟩
    rintro (_ | _ | j) hj
    · omega
    · omega
    · rfl
  refine Relation.ReflTransGen.tail (reachable_failedFirst.trans hrun)
    ⟨.closeTransport 0 .streamInterrupted, trivial, ?_⟩
  exact System.guarded_step_eq_some_iff.mpr ⟨by decide +kernel, rfl⟩

theorem no_callback_stranded_closedFirst :
    (closedFirst.streamer 0).failure = .done ∧ (closedFirst.streamer 0).callbackMap.IsEmpty := by
  have hdone : (closedFirst.streamer 0).failure = .done := by decide +kernel
  have hidle : ∀ p, closedFirst.caller p = .idle := by
    rintro (_ | p) <;> rfl
  refine ⟨hdone, no_callback_stranded reachable_closedFirst hdone fun p d stage hp => ?_⟩
  rw [hidle p] at hp
  cases hp

/-- A streamer is created, and its stream breaks before the first callback is
stored. -/
def breaking : List Action :=
  asking 0 1 ++ creating 0 1 0 ++
    [.recvErr 0, .mark 0 .streamInterrupted, .evictLoad 0 .streamInterrupted,
      .evictDelete 0 .streamInterrupted]

/-- `FailAll` has found nothing. -/
def failedEmpty : ClientState :=
  ((client singles).after breaking).setFailure 0 (.lock .streamInterrupted shardCount)

theorem reachable_failedEmpty : (client singles).Reachable failedEmpty :=
  Relation.ReflTransGen.trans (System.reachable_after breaking)
    (runIf_scanning (i := 0) (n := shardCount) (by decide +kernel) (fun _ _ => rfl) (Nat.le_refl _)
      fun _ _ => ⟨trivial, trivial⟩)

/-- After that the call stores its callback, and `envelopeCh` has room. -/
def lateStore : List Action :=
  [.closeTransport 0 .streamInterrupted, .store 0 (firstAttempt 1) 0, .enqueue 0 (firstAttempt 1) 0]

def stranded : ClientState := ((client singles).exec failedEmpty lateStore).getD failedEmpty

theorem callback_stranded :
    ∃ s, (client singles).Reachable s ∧ (s.streamer 0).failure = .done ∧
      (∀ p, s.caller p = .idle) ∧ ¬ (s.streamer 0).callbackMap.IsEmpty := by
  have hexec : (client singles).exec failedEmpty lateStore = some stranded :=
    System.exec_getD (by decide +kernel)
  refine ⟨stranded, ?_, by decide +kernel, ?_, fun hempty => ?_⟩
  · exact Relation.ReflTransGen.trans reachable_failedEmpty
      (System.runIf_of_exec (fun _ _ _ => trivial) hexec)
  · rintro (_ | p) <;> rfl
  · have hnone := (ShardedCallbackMap.isEmpty_iff _).mp hempty 1
    have hsome : ((stranded.streamer 0).callbackMap.lookup 1).isSome := by decide +kernel
    rw [hnone] at hsome
    cases hsome

end ActorCluster.Client
