import ActorCluster.Node.Obligations
import ActorCluster.Node.Shutdown

/-! # A node that can do nothing more

Whatever a goroutine waits for is owed by another one that can go on, and the aggregator
makes room on the result channel until it has returned. So a node whose goroutines can take
no step is one in which nothing is left to do.
-/

namespace ActorCluster.Node

open Remote Wallet Transition ActorCluster.Runtime

/-- A step that begins something: the arrival of a batch, a tick of the sweep or of the
aggregator, or the call of `Stop`. The others go on with what was begun. Among them are
the queries of the store and the `Send` of a response, so these are taken to return; a
`Send` that waits for flow control holds the aggregator up. -/
def Action.begins : Action → Bool
  | .arrive _ _ _ | .sweep _ | .tick | .stop => true
  | _ => false

namespace NodeState

variable {cfg : Config} {n : NodeState} {a p : Nat} {call : Call}

/-- No goroutine can go on with what it has begun. -/
def Stuck (cfg : Config) (n : NodeState) : Prop :=
  ∀ action, n.enabled cfg action = true → action.begins = true

/-- The goroutines have nothing to go on with: every call has returned, the actors that
have not ended wait on empty mailboxes, and the drains, the sweep and `Stop` are not in
the middle of their work. -/
structure AtRest (n : NodeState) : Prop where
  calls : ∀ p, n.thread p = .idle
  actors : ∀ a, (n.actor a).loop = .dead ∨ (n.actor a).loop = .waiting ∧
    (n.actor a).mailbox.status.accepts = true ∧ (n.actor a).mailbox.queue = []
  drains : ∀ d, n.drain d = .unused ∨ ∃ a, n.drain d = .finished a
  sweeper : n.sweeper = .resting ∨ n.sweeper = .returned
  stopper : n.stopper = .uncalled ∨ n.stopper = .returned
  aggregator : n.aggregator = .select ∧ n.resultCh = []

namespace Stuck

theorem elim (h : Stuck cfg n) (action : Action) (hbegins : action.begins = false)
    (henabled : n.enabled cfg action = true) : False := by
  rw [h action henabled] at hbegins
  cases hbegins

/-- The aggregator has returned, or waits on an empty channel. -/
theorem aggregator (h : Stuck cfg n) :
    n.aggregator = .returned ∨ n.aggregator = .select ∧ n.resultCh = [] := by
  cases haggregator : n.aggregator with
  | returned => exact Or.inl rfl
  | select =>
      cases hch : n.resultCh with
      | nil => exact Or.inr ⟨rfl, rfl⟩
      | cons queued rest =>
          exact (h.elim (.receive queued rest) rfl (by simp [enabled, haggregator, hch])).elim
  | flush last =>
      exact (h.elim (.flush last (n.batch.map QueuedResult.reply).dedup) rfl
        (by simp [enabled, haggregator])).elim
  | send responses last =>
      cases responses with
      | nil => exact (h.elim (.flushEnd last) rfl (by simp [enabled, haggregator])).elim
      | cons response rest =>
          exact (h.elim (.respond response rest last) rfl (by simp [enabled, haggregator])).elim

theorem hasRoom (h : Stuck cfg n) (hopen : n.aggregator ≠ .returned) : n.hasRoom = true := by
  have hch := (h.aggregator.resolve_left hopen).2
  rw [NodeState.hasRoom, hch]
  decide

/-- Nobody holds a lock. -/
theorem unlocked (h : Stuck cfg n) (hn : n.Obliged) (i : UInt64) : n.lock i = none := by
  cases hlock : n.lock i with
  | none => rfl
  | some holder =>
      have hheld := hn.held holder i hlock
      cases holder with
      | thread p =>
          rw [holding] at hheld
          cases hp : n.thread p with
          | serving call pc =>
              rw [hp] at hheld
              cases pc with
              | loadSnapshot now =>
                  exact (h.elim (.loadSnapshot p call now none) rfl (by simp [enabled, hp])).elim
              | loadEvents now snapshot =>
                  exact (h.elim (.loadEvents p call now snapshot none) rfl
                    (by simp [enabled, hp])).elim
              | _ => cases hheld
          | _ =>
              rw [hp] at hheld
              cases hheld
      | sweeper =>
          rw [holding] at hheld
          cases hsweeper : n.sweeper with
          | scan now i todo =>
              cases todo with
              | nil => exact (h.elim (.sweepUnlock now i) rfl (by simp [enabled, hsweeper])).elim
              | cons a rest =>
                  exact (h.elim (.sweepScan now i (a :: rest) a) rfl
                    (by simp [enabled, hsweeper])).elim
          | close now i todo a =>
              exact (h.elim (.sweepClose now i todo a) rfl (by simp [enabled, hsweeper])).elim
          | signal now i todo a =>
              exact (h.elim (.sweepSignal now i todo a) rfl (by simp [enabled, hsweeper])).elim
          | _ =>
              rw [hsweeper] at hheld
              cases hheld
      | stopper =>
          rw [holding] at hheld
          cases hstopper : n.stopper with
          | scan i todo stopping =>
              cases todo with
              | nil =>
                  exact (h.elim (.stopUnlock i stopping) rfl (by simp [enabled, hstopper])).elim
              | cons a rest =>
                  exact (h.elim (.stopScan i (a :: rest) stopping a) rfl
                    (by simp [enabled, hstopper])).elim
          | signal i todo stopping a =>
              exact (h.elim (.stopSignal i todo stopping a) rfl (by simp [enabled, hstopper])).elim
          | _ =>
              rw [hstopper] at hheld
              cases hheld

/-- No wake-up is owed. -/
theorem not_rousing (h : Stuck cfg n) : ¬ n.Rousing a := by
  intro hrousing
  rcases hrousing with ⟨p, call, hp⟩ | ⟨now, i, todo, hsweeper⟩ | ⟨i, todo, stopping, hstopper⟩
  · exact h.elim (.killSignal p call a) rfl (by simp [enabled, hp])
  · exact h.elim (.sweepSignal now i todo a) rfl (by simp [enabled, hsweeper])
  · exact h.elim (.stopSignal i todo stopping a) rfl (by simp [enabled, hstopper])

theorem not_attending (h : Stuck cfg n) : ¬ n.Attending a := by
  intro ⟨p, call, hp⟩
  rcases hp with hp | hp
  · exact h.elim (.link p call a) rfl (by simp [enabled, hp])
  · exact h.elim (.wake p call a) rfl (by simp [enabled, hp])

/-- As long as there is room for results, an actor has ended or waits on an empty mailbox. -/
theorem actors (h : Stuck cfg n) (hn : n.Obliged) (hroom : n.hasRoom = true) (a : Nat) :
    (n.actor a).loop = .dead ∨ (n.actor a).loop = .waiting ∧
      (n.actor a).mailbox.status.accepts = true ∧ (n.actor a).mailbox.queue = [] := by
  cases hloop : (n.actor a).loop with
  | dead => exact Or.inl rfl
  | dequeue => exact (h.elim (.dequeue a) rfl (by simp [enabled, hloop])).elim
  | uncount env => exact (h.elim (.uncount a env) rfl (by simp [enabled, hloop])).elim
  | handle env => exact (h.elim (.handle a env 0) rfl (by simp [enabled, hloop])).elim
  | execute env now =>
      exact (h.elim (.execute a env now .applied) rfl (by simp [enabled, hloop])).elim
  | emit res => exact (h.elim (.emit a res) rfl (by simp [enabled, hloop])).elim
  | push queued => exact (h.elim (.deliver a queued) rfl (by simp [enabled, hloop, hroom])).elim
  | missed => exact (h.elim (.checkStatus a) rfl (by simp [enabled, hloop])).elim
  | exit => exact (h.elim (.exit a) rfl (by simp [enabled, hloop])).elim
  | waiting =>
      have hwake : (n.actor a).mailbox.wake ≠ true := by
        intro hwake
        exact h.elim (.wakeUp a) rfl (by simp [enabled, hloop, hwake])
      refine Or.inr ⟨rfl, Status.accepts_iff.mpr ⟨?_, ?_⟩, ?_⟩
      · intro hstopping
        exact (hn.roused a hstopping hloop).elim hwake h.not_rousing
      · intro hdead
        have hended := (hn.wellformed.lawful a).ended.mp hdead
        rw [hloop] at hended
        cases hended
      · by_contra hqueue
        exact (hn.attended a (Or.inr hloop) hqueue).elim hwake h.not_attending

/-- An actor that was told to stop has ended. -/
theorem dead_of_told (h : Stuck cfg n) (hn : n.Obliged) (hroom : n.hasRoom = true)
    (htold : n.Told a) : (n.actor a).Dead := by
  rcases h.actors hn hroom a with hdead | ⟨_, haccepts, _⟩
  · exact (hn.wellformed.lawful a).ended.mpr hdead
  · have hrefuses : (n.actor a).mailbox.status.accepts = false := htold.2
    rw [haccepts] at hrefuses
    cases hrefuses

theorem sweeper (h : Stuck cfg n) (hn : n.Obliged) :
    n.sweeper = .resting ∨ n.sweeper = .returned := by
  have hbounded := hn.staged.sweeper
  cases hsweeper : n.sweeper with
  | resting => exact Or.inl rfl
  | returned => exact Or.inr rfl
  | lock now i =>
      rw [hsweeper] at hbounded
      rcases Nat.lt_or_eq_of_le hbounded with hlt | rfl
      · exact (h.elim (.sweepLock now i) rfl
          (by simp [enabled, hsweeper, hlt, h.unlocked hn])).elim
      · exact (h.elim (.sweepRest now) rfl (by simp [enabled, hsweeper])).elim
  | scan now i todo =>
      cases todo with
      | nil => exact (h.elim (.sweepUnlock now i) rfl (by simp [enabled, hsweeper])).elim
      | cons a rest =>
          exact (h.elim (.sweepScan now i (a :: rest) a) rfl (by simp [enabled, hsweeper])).elim
  | close now i todo a =>
      exact (h.elim (.sweepClose now i todo a) rfl (by simp [enabled, hsweeper])).elim
  | signal now i todo a =>
      exact (h.elim (.sweepSignal now i todo a) rfl (by simp [enabled, hsweeper])).elim

theorem stopper (h : Stuck cfg n) (hn : n.Obliged) :
    n.stopper = .uncalled ∨ n.stopper = .returned := by
  have hstaged := hn.staged
  cases hstopper : n.stopper with
  | uncalled => exact Or.inl rfl
  | returned => exact Or.inr rfl
  | lock i stopping =>
      have hbounded := hstaged.stopper
      rw [hstopper] at hbounded
      rcases Nat.lt_or_eq_of_le hbounded with hlt | rfl
      · exact (h.elim (.stopLock i stopping) rfl
          (by simp [enabled, hstopper, hlt, h.unlocked hn])).elim
      · exact (h.elim (.stopAwait stopping) rfl (by simp [enabled, hstopper])).elim
  | scan i todo stopping =>
      cases todo with
      | nil => exact (h.elim (.stopUnlock i stopping) rfl (by simp [enabled, hstopper])).elim
      | cons a rest =>
          exact (h.elim (.stopScan i (a :: rest) stopping a) rfl
            (by simp [enabled, hstopper])).elim
  | signal i todo stopping a =>
      exact (h.elim (.stopSignal i todo stopping a) rfl (by simp [enabled, hstopper])).elim
  | await stopping =>
      cases stopping with
      | nil => exact (h.elim .closeDone rfl (by simp [enabled, hstopper])).elim
      | cons a rest =>
          -- the aggregator still makes room, so the actor has ended
          have hopen : n.aggregator ≠ .returned := by
            intro hreturned
            have hdone := hstaged.done.mp (hstaged.closing (by rw [hreturned]; rfl))
            simp [hstopper] at hdone
          have htold : n.Told a := hn.awaited.stopper a (by rw [hstopper]; exact List.mem_cons_self)
          have hdead := h.dead_of_told hn (h.hasRoom hopen) htold
          exact (h.elim (.stopNext a rest) rfl (by simp [enabled, hstopper, hdead])).elim
  | join =>
      have hdone : n.done = true := hstaged.done.mpr (Or.inl hstopper)
      have haggregator : n.aggregator = .returned := by
        rcases h.aggregator with hreturned | ⟨hselect, _⟩
        · exact hreturned
        · exact (h.elim .takeDone rfl (by simp [enabled, hselect, hdone])).elim
      have hsweeper : n.sweeper = .returned := by
        rcases h.sweeper hn with hresting | hreturned
        · exact (h.elim .sweepReturn rfl (by simp [enabled, hresting, hdone])).elim
        · exact hreturned
      exact (h.elim .stopReturn rfl (by simp [enabled, hstopper, haggregator, hsweeper])).elim

theorem drains (h : Stuck cfg n) (hn : n.Obliged) (hroom : n.hasRoom = true) (d : Nat) :
    n.drain d = .unused ∨ ∃ a, n.drain d = .finished a := by
  cases hd : n.drain d with
  | unused => exact Or.inl rfl
  | finished a => exact Or.inr ⟨a, rfl⟩
  | await a =>
      have hdead := h.dead_of_told hn hroom (hn.awaited.drains d a (by rw [hd]; rfl))
      exact (h.elim (.await d a) rfl (by simp [enabled, hd, hdead])).elim
  | collect a envs => exact (h.elim (.collect d a envs) rfl (by simp [enabled, hd])).elim
  | uncount a envs => exact (h.elim (.drainUncount d a envs) rfl (by simp [enabled, hd])).elim
  | answer a envs =>
      cases envs with
      | nil => exact (h.elim (.drainEnd d a) rfl (by simp [enabled, hd])).elim
      | cons env rest => exact (h.elim (.answer d a env rest) rfl (by simp [enabled, hd])).elim
  | push a env reply envs =>
      exact (h.elim (.drainPush d a env reply envs) rfl (by simp [enabled, hd, hroom])).elim

theorem not_serving (h : Stuck cfg n) (hn : n.Obliged) (pc : Serving)
    (hp : n.thread p = .serving call pc) : False := by
  have hfree : n.unlocked call.key = true := by simp [NodeState.unlocked, h.unlocked hn]
  cases pc with
  | owner =>
      cases hresolver : cfg.resolver with
      | true => exact h.elim (.owner p call (some (.ok ""))) rfl (by simp [enabled, hp, hresolver])
      | false => exact h.elim (.owner p call none) rfl (by simp [enabled, hp, hresolver])
  | kill => exact h.elim (.kill p call) rfl (by simp [enabled, hp, hfree])
  | lookup => exact h.elim (.lookup p call) rfl (by simp [enabled, hp, hfree])
  | create => exact h.elim (.create p call 0) rfl (by simp [enabled, hp, hfree])
  | forget a => exact h.elim (.forget p call a) rfl (by simp [enabled, hp, hfree])
  | loadSnapshot now => exact h.elim (.loadSnapshot p call now none) rfl (by simp [enabled, hp])
  | loadEvents now snapshot =>
      exact h.elim (.loadEvents p call now snapshot none) rfl (by simp [enabled, hp])
  | close a => exact h.elim (.close p call a) rfl (by simp [enabled, hp])
  | killSignal a => exact h.elim (.killSignal p call a) rfl (by simp [enabled, hp])
  | spawn a => exact h.elim (.spawn p call a) rfl (by simp [enabled, hp])
  | route a => exact h.elim (.route p call a) rfl (by simp [enabled, hp])
  | send a => exact h.elim (.send p call a) rfl (by simp [enabled, hp])
  | count a => exact h.elim (.count p call a) rfl (by simp [enabled, hp])
  | swap a => exact h.elim (.swap p call a) rfl (by simp [enabled, hp])
  | link a => exact h.elim (.link p call a) rfl (by simp [enabled, hp])
  | wake a => exact h.elim (.wake p call a) rfl (by simp [enabled, hp])
  | unroute a => exact h.elim (.unroute p call a) rfl (by simp [enabled, hp])

theorem calls (h : Stuck cfg n) (hn : n.Obliged) (hroom : n.hasRoom = true) (p : Nat) :
    n.thread p = .idle := by
  cases hp : n.thread p with
  | idle => rfl
  | gate sender batch => exact (h.elim (.gate p sender batch) rfl (by simp [enabled, hp])).elim
  | reject sender rest =>
      cases rest with
      | nil => exact (h.elim (.finish p sender) rfl (by simp [enabled, hp])).elim
      | cons env rest =>
          exact (h.elim (.reject p sender env rest) rfl (by simp [enabled, hp, hroom])).elim
  | next sender rest =>
      cases rest with
      | nil => exact (h.elim (.finish p sender) rfl (by simp [enabled, hp])).elim
      | cons env rest =>
          exact (h.elim (.next p sender env rest) rfl (by simp [enabled, hp])).elim
  | push sender rest res =>
      exact (h.elim (.push p sender rest res) rfl (by simp [enabled, hp, hroom])).elim
  | serving call pc => exact (h.not_serving hn pc hp).elim

end Stuck

end NodeState

/-- A node never deadlocks. Whatever the schedule was, if no goroutine can go on then
`Stop` has returned or was not called; and as long as the aggregator has not returned,
every call, every drain and the sweep are through, and the actors that have not ended wait
on empty mailboxes. -/
theorem stuck_atRest {cfg : Config} {r : NodeRun} (hr : (node cfg).Reachable r)
    (hstuck : r.node.Stuck cfg) :
    (r.node.stopper = .uncalled ∨ r.node.stopper = .returned) ∧
      (r.node.aggregator ≠ .returned → r.node.AtRest) := by
  have hn := obliged_of_reachable hr
  refine ⟨hstuck.stopper hn, fun hopen => ?_⟩
  have hroom := hstuck.hasRoom hopen
  exact
    { calls := hstuck.calls hn hroom
      actors := hstuck.actors hn hroom
      drains := hstuck.drains hn hroom
      sweeper := hstuck.sweeper hn
      stopper := hstuck.stopper hn
      aggregator := hstuck.aggregator.resolve_left hopen }

/-- A node that has not been stopped is stuck if its calls and drains are through, its
actors wait or have ended, and its aggregator has received everything. -/
theorem NodeState.stuck_of_idle {cfg : Config} {n : NodeState}
    (hcalls : ∀ p, n.thread p = .idle)
    (hactors : ∀ a, (n.actor a).loop = .dead ∨
      (n.actor a).loop = .waiting ∧ (n.actor a).mailbox.wake = false)
    (hdrains : ∀ d, n.drain d = .unused ∨ ∃ a, n.drain d = .finished a)
    (hsweeper : n.sweeper = .resting) (hstopper : n.stopper = .uncalled)
    (haggregator : n.aggregator = .select) (hresultCh : n.resultCh = [])
    (hdone : n.done = false) : n.Stuck cfg := by
  intro action henabled
  -- a step of an actor or a drain needs it to be somewhere else
  have hloop {a : Nat} {loop : Loop} (ha : (n.actor a).loop = loop) :
      loop = .dead ∨ loop = .waiting ∧ (n.actor a).mailbox.wake = false := ha ▸ hactors a
  have hdrain {d : Nat} {drain : Drain} (hd : n.drain d = drain) :
      drain = .unused ∨ ∃ a, drain = .finished a := hd ▸ hdrains d
  cases action with
  | await | collect | drainUncount | answer | drainPush | drainEnd =>
      simp only [NodeState.enabled, Bool.and_eq_true, decide_eq_true_eq] at henabled
      first
        | simpa using hdrain henabled
        | simpa using hdrain henabled.1
  | dequeue | uncount | handle | execute | emit | deliver | checkStatus | wakeUp | exit =>
      simp only [NodeState.enabled, Bool.and_eq_true, decide_eq_true_eq] at henabled
      first
        | simpa using hloop henabled
        | simpa [henabled.2] using hloop henabled.1
  | _ => simp_all [NodeState.enabled, Action.begins]

/-- The second actor answers and finds its mailbox empty, the drain of the first one ends,
and the aggregator receives the results. -/
def settledRun : List Event :=
  succession ++ [Event.act (.emit 1 (depositResult "3" 3 20)),
    .act (.deliver 1 ⟨depositResult "3" 3 20, 2⟩), .act (.dequeue 1), .act (.checkStatus 1),
    .act (.wakeUp 1), .act (.dequeue 1), .act (.checkStatus 1), .act (.await 0 0),
    .act (.collect 0 0 []), .act (.drainEnd 0 0),
    .act (.receive ⟨firstResult, 0⟩
      [⟨wrongNodeResult (deposit "2" 2), 1⟩, ⟨depositResult "3" 3 20, 2⟩]),
    .act (.receive ⟨wrongNodeResult (deposit "2" 2), 1⟩ [⟨depositResult "3" 3 20, 2⟩]),
    .act (.receive ⟨depositResult "3" 3 20, 2⟩ [])]

theorem stuck_settledRun : ((node nodeA).after settledRun).node.Stuck nodeA := by
  refine NodeState.stuck_of_idle (fun p => ?_) (fun a => ?_) (fun d => ?_) ?_ ?_ ?_ ?_ ?_
  · rcases p with _ | _ | _ | p <;> rfl
  · rcases a with _ | _ | a
    · exact Or.inl (by decide +kernel)
    · exact Or.inr (by decide +kernel)
    · exact Or.inl rfl
  · rcases d with _ | d
    · exact Or.inr ⟨0, by decide +kernel⟩
    · exact Or.inl rfl
  all_goals decide +kernel

/-- An actor that has ended, one that waits, and a drain that is through. -/
theorem stuck_atRest_settledRun :
    ((node nodeA).after settledRun).node.AtRest ∧
      (((node nodeA).after settledRun).node.actor 0).loop = .dead ∧
      (((node nodeA).after settledRun).node.actor 1).executed = [deposit "3" 3] ∧
      (((node nodeA).after settledRun).node.actor 1).loop = .waiting ∧
      ((node nodeA).after settledRun).node.drain 0 = .finished 0 ∧
      ((node nodeA).after settledRun).node.batch.length = 3 := by
  have hopen : ((node nodeA).after settledRun).node.aggregator ≠ .returned := by decide +kernel
  refine ⟨(stuck_atRest (System.reachable_after _) stuck_settledRun).2 hopen, ?_, ?_, ?_, ?_, ?_⟩
  all_goals decide +kernel

end ActorCluster.Node
