import ActorCluster.Node.Routing

/-! # Shutdown

`Stop` waits for the actors that are in the maps, closes `done` and waits for
the aggregator. The aggregator's `select` may take `done` while the result
channel still has results, and actors that have left the maps are not waited
for, so results can be lost. If nothing is on its way to the channel or in it
when the aggregator takes `done`, then the last flush sends everything.
-/

namespace ActorCluster.Node

open Remote Wallet Transition Custody ActorCluster.Runtime
open scoped List

namespace NodeState

/-- Nobody has a request to answer or a result to hand over, and the channel is
empty. -/
structure Silent (n : NodeState) : Prop where
  calls : ∀ p, (n.thread p).owed = []
  actors : ∀ a, (n.actor a).requests = []
  loops : ∀ a, (n.actor a).loop.result = none
  drains : ∀ d, (n.drain d).requests = []
  channel : n.resultCh = []

namespace Silent

variable {cfg : Config} {n : NodeState} {db : Database} {action : Action}

theorem swap_ne (h : n.Silent) (henabled : n.enabled cfg action = true) (p : Nat) (call : Call)
    (a : Nat) : action ≠ .swap p call a := by
  rintro rfl
  have hp : n.thread p = .serving call (.swap a) := by simpa [enabled] using henabled
  have howed := h.calls p
  rw [hp] at howed
  cases howed

theorem execute_ne (h : n.Silent) (henabled : n.enabled cfg action = true) (a : Nat)
    (env : RemoteEnvelope) (now : Int) (outcome : WriteOutcome) :
    action ≠ .execute a env now outcome := by
  rintro rfl
  have ha : (n.actor a).loop = .execute env now := by simpa [enabled] using henabled
  have hrequests := h.actors a
  rw [LocalActor.requests, ha] at hrequests
  cases hrequests

theorem front (h : n.Silent) (a : Nat) : (n.actor a).mailbox.front = none := by
  have hqueue : (n.actor a).mailbox.queue = [] :=
    List.map_eq_nil_iff.mp (List.append_eq_nil_iff.mp (h.actors a)).2
  rw [Mailbox.front, hqueue]

/-- What is enqueued was somebody's to hand over. -/
theorem channel_apply (h : n.Silent) (henabled : n.enabled cfg action = true) :
    (n.apply cfg db action).resultCh = [] := by
  cases action with
  | loadSnapshot | loadEvents =>
      simp only [apply]
      split <;> exact h.channel
  | reject p sender env rest =>
      have hp : n.thread p = .reject sender (env :: rest) ∧ n.hasRoom = true := by
        simpa [enabled] using henabled
      have howed := h.calls p
      rw [hp.1] at howed
      cases howed
  | push p sender rest res =>
      have hp : n.thread p = .push sender rest res ∧ n.hasRoom = true := by
        simpa [enabled] using henabled
      have howed := h.calls p
      rw [hp.1] at howed
      cases howed
  | drainPush d a env reply envs =>
      have hd : n.drain d = .push a env reply envs ∧ n.hasRoom = true := by
        simpa [enabled] using henabled
      have hrequests := h.drains d
      rw [hd.1] at hrequests
      cases hrequests
  | deliver a queued =>
      have ha : (n.actor a).loop = .push queued ∧ n.hasRoom = true := by
        simpa [enabled] using henabled
      have hresult := h.loops a
      rw [ha.1] at hresult
      cases hresult
  | receive queued rest =>
      have hselect : n.aggregator = .select ∧ n.resultCh = queued :: rest := by
        simpa [enabled] using henabled
      cases hselect.2.symm.trans h.channel
  | _ => exact h.channel

/-- Only an arrival breaks the silence. -/
theorem step (h : n.Silent) (henabled : n.enabled cfg action = true)
    (harrive : ∀ p sender batch, action ≠ .arrive p sender batch) :
    (n.apply cfg db action).Silent where
  calls p := List.subperm_nil.mp (h.calls p ▸
    (threadMove_apply henabled p).owed fun sender batch => harrive p sender batch)
  actors a := List.subperm_nil.mp (h.actors a ▸
    (actorMove_apply henabled a).requests fun p call => h.swap_ne henabled p call a)
  loops a := by
    have hmove : ActorMove n db action a ((n.apply cfg db action).actor a) :=
      actorMove_apply henabled a
    have hresult := hmove.result fun env now => h.execute_ne henabled a env now
    rw [h.loops a] at hresult
    simpa using List.subperm_nil.mp hresult
  drains d := List.subperm_nil.mp (h.drains d ▸
    (drainMove_apply henabled d).requests fun a _ _ => h.front a)
  channel := h.channel_apply henabled

end Silent

/-- Once the aggregator has taken `done` nothing is left but its last flush. -/
structure Closing (n : NodeState) : Prop where
  silent : n.aggregator.closing = true → n.Silent
  flushed : n.aggregator.collects = false → n.batch = []

/-- The aggregator takes `done` only in silence, and no batch arrives later. -/
def ClosesSilent (n : NodeState) : Action → Prop
  | .arrive _ _ _ => n.aggregator.closing = false
  | .takeDone => n.Silent
  | _ => True

namespace Closing

variable {cfg : Config} {n : NodeState} {db : Database} {action : Action}

/-- A step of another goroutine than the aggregator. -/
theorem other (h : n.Closing) (henabled : n.enabled cfg action = true)
    (hguard : n.ClosesSilent action)
    (haggregator : (n.apply cfg db action).aggregator = n.aggregator)
    (hbatch : (n.apply cfg db action).batch = n.batch) : (n.apply cfg db action).Closing := by
  refine ⟨fun hclosing => ?_, fun hcollects => ?_⟩
  · rw [haggregator] at hclosing
    refine (h.silent hclosing).step henabled ?_
    rintro p sender batch rfl
    rw [show n.aggregator.closing = false from hguard] at hclosing
    cases hclosing
  · rw [haggregator] at hcollects
    rw [hbatch]
    exact h.flushed hcollects

theorem step (h : n.Closing) (henabled : n.enabled cfg action = true)
    (hguard : n.ClosesSilent action) : (n.apply cfg db action).Closing := by
  cases action with
  | receive queued rest =>
      refine ⟨?_, ?_⟩ <;>
        · simp only [apply]
          split <;> rintro ⟨⟩
  | tick => constructor <;> rintro ⟨⟩
  | takeDone =>
      refine ⟨fun _ => hguard.step henabled (by simp), ?_⟩
      rintro ⟨⟩
  | flush last order =>
      have hflush : n.aggregator = .flush last ∧
          order ~ (n.batch.map QueuedResult.reply).dedup := by
        simpa [enabled] using henabled
      refine ⟨fun hclosing => (h.silent ?_).step henabled (by simp), fun _ => rfl⟩
      rw [hflush.1]
      exact hclosing
  | respond response rest last =>
      have hsend : n.aggregator = .send (response :: rest) last := by
        simpa [enabled] using henabled
      refine ⟨fun hclosing => (h.silent ?_).step henabled (by simp), fun _ => h.flushed ?_⟩
      · rw [hsend]
        exact hclosing
      · rw [hsend]
        rfl
  | flushEnd last =>
      have hsend : n.aggregator = .send [] last := by simpa [enabled] using henabled
      refine ⟨fun hclosing => (h.silent ?_).step henabled (by simp), fun _ => h.flushed ?_⟩
      · rw [hsend]
        cases last
        · cases hclosing
        · rfl
      · rw [hsend]
        rfl
  | loadSnapshot | loadEvents =>
      refine h.other henabled hguard ?_ ?_ <;>
        · simp only [apply]
          split <;> rfl
  | _ => exact h.other henabled hguard rfl rfl

/-- When the aggregator has returned, all that was put was sent. -/
theorem delivered (h : n.Closing) (hconserved : n.Conserved)
    (hreturned : n.aggregator = .returned) : n.put ~ unpack n.sent := by
  have hchannel : n.resultCh = [] := (h.silent (by rw [hreturned]; rfl)).channel
  have hbatch : n.batch = [] := h.flushed (by rw [hreturned]; rfl)
  unfold Conserved at hconserved
  rwa [hchannel, hbatch, hreturned] at hconserved

end Closing

/-- `Stop` returns after the aggregator. -/
def StopLast (n : NodeState) : Prop := n.stopper = .returned → n.aggregator = .returned

theorem StopLast.step {cfg : Config} {n : NodeState} {db : Database} {action : Action}
    (h : n.StopLast) (henabled : n.enabled cfg action = true) :
    (n.apply cfg db action).StopLast := by
  have hstopper (n' : NodeState) (hs : n'.stopper ≠ .returned) : n'.StopLast :=
    fun hreturned => absurd hreturned hs
  have hother (n' : NodeState) (ha : n'.aggregator = n.aggregator) (hs : n'.stopper = n.stopper) :
      n'.StopLast := by
    intro hreturned
    rw [ha]
    exact h (hs ▸ hreturned)
  have hselect {aggregator : Aggregator} (ha : n.aggregator = aggregator)
      (hne : aggregator ≠ .returned) (n' : NodeState) (hs : n'.stopper = n.stopper) :
      n'.StopLast := fun hreturned => absurd (ha.symm.trans (h (hs ▸ hreturned))) hne
  cases action with
  | stop | stopLock | stopSignal | stopUnlock | stopAwait | stopNext | closeDone =>
      exact hstopper _ (by rintro ⟨⟩)
  | stopScan i todo stopping a =>
      refine hstopper _ ?_
      simp only [apply]
      split <;> simp
  | stopReturn =>
      intro _
      have hjoin : (n.stopper = .join ∧ n.aggregator = .returned) ∧ n.sweeper = .returned := by
        simpa [enabled] using henabled
      exact hjoin.1.2
  | receive queued rest =>
      have ha : n.aggregator = .select ∧ n.resultCh = queued :: rest := by
        simpa [enabled] using henabled
      exact hselect ha.1 (by simp) _ rfl
  | tick =>
      have ha : n.aggregator = .select := by simpa [enabled] using henabled
      exact hselect ha (by simp) _ rfl
  | takeDone =>
      have ha : n.aggregator = .select ∧ n.done = true := by simpa [enabled] using henabled
      exact hselect ha.1 (by simp) _ rfl
  | flush last order =>
      have ha : n.aggregator = .flush last ∧
          order ~ (n.batch.map QueuedResult.reply).dedup := by
        simpa [enabled] using henabled
      exact hselect ha.1 (by simp) _ rfl
  | respond response rest last =>
      have ha : n.aggregator = .send (response :: rest) last := by
        simpa [enabled] using henabled
      exact hselect ha (by simp) _ rfl
  | flushEnd last =>
      have ha : n.aggregator = .send [] last := by simpa [enabled] using henabled
      exact hselect ha (by simp) _ rfl
  | loadSnapshot | loadEvents =>
      refine hother _ ?_ ?_ <;>
        · simp only [apply]
          split <;> rfl
  | _ => exact hother _ rfl rfl

end NodeState

/-- The condition on a whole run. -/
def NodeRun.ClosesSilent (r : NodeRun) : Event → Prop
  | .act action => r.node.ClosesSilent action
  | .land _ _ => True

/-- In every run in which the aggregator takes `done` only when no result is in
the channel or on its way to it, and no batch arrives after that, every result
ever put on the channel has been sent to its own stream when `Stop` returns. -/
theorem stop_delivers {cfg : Config} {r : NodeRun}
    (hr : (node cfg).ReachableIf NodeRun.ClosesSilent r) (hstop : r.node.stopper = .returned) :
    r.node.put ~ unpack r.node.sent := by
  have hinv : r.node.Closing ∧ r.node.Conserved ∧ r.node.StopLast := by
    refine System.ReachableIf.invariant
      (P := fun r => r.node.Closing ∧ r.node.Conserved ∧ r.node.StopLast) ?_ ?_ hr
    · exact ⟨⟨nofun, nofun⟩, NodeState.conserved_newNode, nofun⟩
    · rintro r event t ⟨hclosing, hconserved, hlast⟩ hguard hstep
      obtain ⟨henabled, rfl⟩ := System.guarded_step_eq_some_iff.mp hstep
      cases event with
      | act action =>
          exact ⟨hclosing.step henabled hguard, hconserved.step henabled, hlast.step henabled⟩
      | land => exact ⟨hclosing, hconserved, hlast⟩
  exact hinv.1.delivered hinv.2.1 (hinv.2.2 hstop)

/-- `Stop` visits the first `k` shards and finds them empty. -/
def visits (k : Nat) : List Event :=
  (List.range k).flatMap fun i => [.act (.stopLock i []), .act (.stopUnlock i [])]

/-- `Stop` on a node without actors, up to the closing of `done`. -/
def stopping : List Event :=
  [Event.act .stop] ++ visits shardCount ++ [Event.act (.stopAwait []), .act .closeDone]

theorem mem_stopping {event : Event} (h : event ∈ stopping) :
    event = .act .stop ∨ (∃ i, event = .act (.stopLock i [])) ∨
      (∃ i, event = .act (.stopUnlock i [])) ∨ event = .act (.stopAwait []) ∨
      event = .act .closeDone := by
  simp only [stopping, visits, List.mem_append, List.mem_cons, List.mem_flatMap, List.not_mem_nil,
    or_false] at h
  grind

section Stopping

variable {cfg : Config} {n : NodeState} {db : Database}

/-- A visit to an empty shard leaves the node as it was. -/
theorem exec_visit (hlock : ∀ i, n.lock i = none) (hstarted : n.started = 0) {k : Nat}
    (hk : k < shardCount) :
    (node cfg).exec ⟨{ n with stopper := .lock k [] }, db⟩
        [.act (.stopLock k []), .act (.stopUnlock k [])] =
      some ⟨{ n with stopper := .lock (k + 1) [] }, db⟩ := by
  let held := Function.update n.lock (UInt64.ofNat k) (some .stopper)
  have hempty : ({ n with stopper := .lock k [] } : NodeState).shardActors k = [] := by
    simp [NodeState.shardActors, hstarted]
  have hunlock : Function.update held (UInt64.ofNat k) none = n.lock := by
    rw [Function.update_idem, ← hlock (UInt64.ofNat k), Function.update_eq_self]
  have hfree : ({ n with stopper := .lock k [] } : NodeState).enabled cfg (.stopLock k []) = true :=
    Bool.and_eq_true_iff.mpr ⟨Bool.and_eq_true_iff.mpr ⟨decide_eq_true rfl, decide_eq_true hk⟩,
      decide_eq_true (hlock _)⟩
  have hstopLock : (node cfg).step ⟨{ n with stopper := .lock k [] }, db⟩
      (.act (.stopLock k [])) = some ⟨{ n with lock := held, stopper := .scan k [] [] }, db⟩ := by
    refine System.guarded_step_eq_some_iff.mpr ⟨hfree, ?_⟩
    change NodeRun.mk { n with
      lock := held, stopper := .scan k (NodeState.shardActors _ k) [] } db = _
    rw [hempty]
  have hstopUnlock : (node cfg).step ⟨{ n with lock := held, stopper := .scan k [] [] }, db⟩
      (.act (.stopUnlock k [])) = some ⟨{ n with stopper := .lock (k + 1) [] }, db⟩ := by
    refine System.guarded_step_eq_some_iff.mpr ⟨decide_eq_true rfl, ?_⟩
    change NodeRun.mk { n with
      lock := Function.update held (UInt64.ofNat k) none, stopper := .lock (k + 1) [] } db = _
    rw [hunlock]
  rw [System.exec, hstopLock, Option.bind_some, System.exec, hstopUnlock]
  rfl

theorem exec_visits (hlock : ∀ i, n.lock i = none) (hstarted : n.started = 0) {k : Nat}
    (hk : k ≤ shardCount) :
    (node cfg).exec ⟨{ n with stopper := .lock 0 [] }, db⟩ (visits k) =
      some ⟨{ n with stopper := .lock k [] }, db⟩ := by
  induction k with
  | zero => rfl
  | succ k ih =>
      rw [visits, List.range_succ, List.flatMap_append, System.exec_append, ← visits,
        ih (Nat.le_of_lt hk), Option.bind_some]
      exact exec_visit hlock hstarted hk

/-- The node when `Stop` has closed `done`. -/
def NodeRun.closed (r : NodeRun) : NodeRun :=
  ⟨{ r.node with stopper := .join, done := true }, r.db⟩

/-- The node when the aggregator has taken `done` after that. -/
def NodeRun.taken (r : NodeRun) : NodeRun :=
  ⟨{ r.closed.node with aggregator := .flush true }, r.db⟩

/-- `Stop` closes `done` at once if there are no actors. -/
theorem exec_stopping {r : NodeRun} (hstopper : r.node.stopper = .uncalled)
    (hlock : ∀ i, r.node.lock i = none) (hstarted : r.node.started = 0) :
    (node cfg).exec r stopping = some r.closed := by
  obtain ⟨n, db⟩ := r
  dsimp only at hstopper hlock hstarted
  have hstop : (node cfg).exec ⟨n, db⟩ [.act .stop] =
      some ⟨{ n with stopper := .lock 0 [] }, db⟩ := by
    have hstep : (node cfg).step ⟨n, db⟩ (.act .stop) =
        some ⟨{ n with stopper := .lock 0 [] }, db⟩ :=
      System.guarded_step_eq_some_iff.mpr ⟨decide_eq_true hstopper, rfl⟩
    rw [System.exec, hstep]
    rfl
  rw [stopping, System.exec_append, System.exec_append, hstop, Option.bind_some,
    exec_visits hlock hstarted (Nat.le_refl _), Option.bind_some]
  rfl

end Stopping

/-- A bad request is refused, and its call returns. -/
def refusedDeposit : List Event := [Event.act (.arrive 1 1 [deposit "2" 0])] ++ anonymousDeposit

def refusal : QueuedResult := ⟨badRequestResult (deposit "2" 0), 1⟩

/-- The aggregator receives the refusal as well. -/
def receivedRefusal : List Event := refusedDeposit ++ [Event.act (.receive refusal [])]

/-- The last flush sends the refusal, and `Stop` returns. -/
def lastFlush : List Event :=
  [.act (.flush true [1]), .act (.respond (1, [refusal.res]) [] true), .act (.flushEnd true),
    .act .sweepReturn, .act .stopReturn]

theorem silent_receivedRefusal : ((node nodeA).after receivedRefusal).node.Silent where
  calls
    | 0 | 1 | _ + 2 => rfl
  actors _ := rfl
  loops _ := rfl
  drains _ := rfl
  channel := by decide +kernel

/-- The aggregator has received the refusal before `Stop` is called. -/
theorem stop_delivers_refusal :
    ∃ r, (node nodeA).ReachableIf NodeRun.ClosesSilent r ∧ r.node.stopper = .returned ∧
      r.node.put = [refusal] ∧ r.node.put ~ unpack r.node.sent := by
  have hreceived : (node nodeA).ReachableIf NodeRun.ClosesSilent
      ((node nodeA).after receivedRefusal) := by
    refine System.ReachableIf.append (System.ReachableIf.append
      (System.reachableIf_singleton rfl) ?_) ?_
    · simp [anonymousDeposit, NodeRun.ClosesSilent, NodeState.ClosesSilent]
    · simp [NodeRun.ClosesSilent, NodeState.ClosesSilent]
  have hclosed : (node nodeA).ReachableIf NodeRun.ClosesSilent
      ((node nodeA).after receivedRefusal).closed := by
    refine Relation.ReflTransGen.trans hreceived (System.runIf_of_exec (fun event hmem r => ?_)
      (exec_stopping (by decide +kernel) (fun _ => rfl) (by decide +kernel)))
    obtain rfl | ⟨i, rfl⟩ | ⟨i, rfl⟩ | rfl | rfl := mem_stopping hmem <;> trivial
  have htaken : (node nodeA).ReachableIf NodeRun.ClosesSilent
      ((node nodeA).after receivedRefusal).taken := by
    obtain ⟨hcalls, hactors, hloops, hdrains, hchannel⟩ := silent_receivedRefusal
    exact Relation.ReflTransGen.tail hclosed
      ⟨.act .takeDone, ⟨hcalls, hactors, hloops, hdrains, hchannel⟩, rfl⟩
  have hflush : ((node nodeA).exec ((node nodeA).after receivedRefusal).taken lastFlush).map
      (fun r => (r.node.stopper, r.node.put)) = some (.returned, [refusal]) := by
    decide +kernel
  obtain ⟨r, hexec, hend⟩ := Option.map_eq_some_iff.mp hflush
  have hr : (node nodeA).ReachableIf NodeRun.ClosesSilent r := by
    refine Relation.ReflTransGen.trans htaken (System.runIf_of_exec ?_ hexec)
    simp [lastFlush, NodeRun.ClosesSilent, NodeState.ClosesSilent]
  have hstopper : r.node.stopper = .returned := congrArg Prod.fst hend
  exact ⟨r, hr, hstopper, congrArg Prod.snd hend, stop_delivers hr hstopper⟩

/-- No call is running when `Stop` is called, and none begins later. The
aggregator takes `done` while the refusal is in the channel: `Stop` returns, and
the refusal was never sent. -/
theorem last_result_lost :
    ∃ r t, (node nodeA).Reachable r ∧ (∀ p, r.node.thread p = .idle) ∧
      r.node.stopper = .uncalled ∧
      (node nodeA).RunIf (fun _ event => ∀ p sender batch, event ≠ .act (.arrive p sender batch))
        r t ∧
      t.node.stopper = .returned ∧ t.node.put = [refusal] ∧ t.node.sent = [] := by
  have hflush : ((node nodeA).exec ((node nodeA).after refusedDeposit).taken
      [.act (.flush true []), .act (.flushEnd true), .act .sweepReturn, .act .stopReturn]).map
      (fun t => (t.node.stopper, t.node.put, t.node.sent)) = some (.returned, [refusal], []) := by
    decide +kernel
  obtain ⟨t, hexec, hend⟩ := Option.map_eq_some_iff.mp hflush
  have hstopper : ((node nodeA).after refusedDeposit).node.stopper = .uncalled := by
    decide +kernel
  refine ⟨(node nodeA).after refusedDeposit, t, System.reachable_after _, ?_, hstopper, ?_,
    congrArg Prod.fst hend, congrArg (fun e => e.2.1) hend, congrArg (fun e => e.2.2) hend⟩
  · rintro (_ | _ | _) <;> rfl
  · have hclosed : (node nodeA).exec ((node nodeA).after refusedDeposit) stopping = some _ :=
      exec_stopping hstopper (fun _ => rfl) (by decide +kernel)
    refine Relation.ReflTransGen.trans (Relation.ReflTransGen.tail
      (System.runIf_of_exec (fun event hmem _ => ?_) hclosed) ⟨.act .takeDone, nofun, rfl⟩)
      (System.runIf_of_exec ?_ hexec)
    · obtain rfl | ⟨i, rfl⟩ | ⟨i, rfl⟩ | rfl | rfl := mem_stopping hmem <;> nofun
    · simp

end ActorCluster.Node
