import ActorCluster.Foundation.Transition
import Mathlib.Data.List.AList
import Mathlib.Logic.Function.Basic

/-! # The stress engine

The dashboard starts and stops load runs, resets the metrics and shows them. The
counters of the router only grow; a reset remembers their values as the baseline, and
`Status` shows what has been added to it. `Start`, `Stop` and the copy of the baseline in
`Status` are atomic under the mutex. `ResetMetrics` loads the counters one after another
while it holds the mutex, and the router goes on counting meanwhile.
-/

namespace ActorCluster.Client

open Transition

section Metrics

/-- The counters of the router, apart from those by error code. -/
inductive Counter where
  | reqSent
  | respRecv
  | errCount
  | latencyNanos
  | latencySamples
  deriving DecidableEq, Repr

/-- Counts by error code. -/
abbrev Breakdown := AList fun _ : String => UInt64

/-- The count of an error code, which is zero if the code is missing. -/
def Breakdown.count (breakdown : Breakdown) (key : String) : UInt64 :=
  (breakdown.lookup key).getD 0

/-- The metrics of the router, and also the values of a `metricsBaseline`. -/
structure Metrics where
  counter : Counter → UInt64
  errBreakdown : Breakdown

/-- One of the metrics. -/
inductive Metric where
  | counter (c : Counter)
  | error (key : String)
  deriving DecidableEq, Repr

namespace Metrics

/-- `metricsBaseline{}` -/
def zero : Metrics := ⟨fun _ => 0, ∅⟩

def value (metrics : Metrics) : Metric → UInt64
  | .counter c => metrics.counter c
  | .error key => metrics.errBreakdown.count key

def setCounter (metrics : Metrics) (c : Counter) (value : UInt64) : Metrics :=
  { metrics with counter := Function.update metrics.counter c value }

def setError (metrics : Metrics) (key : String) (value : UInt64) : Metrics :=
  { metrics with errBreakdown := metrics.errBreakdown.insert key value }

theorem value_zero (m : Metric) : zero.value m = 0 := by
  cases m <;> rfl

theorem value_setCounter (metrics : Metrics) (c : Counter) (value : UInt64) :
    (metrics.setCounter c value).value = Function.update metrics.value (.counter c) value := by
  funext m
  cases m with
  | counter c' =>
      by_cases hc : c' = c
      · subst hc
        rw [Function.update_self]
        exact Function.update_self _ _ _
      · rw [Function.update_of_ne (by simpa using hc)]
        exact Function.update_of_ne hc _ _
  | error key => rw [Function.update_of_ne (by simp)]; rfl

theorem value_setError (metrics : Metrics) (key : String) (value : UInt64) :
    (metrics.setError key value).value = Function.update metrics.value (.error key) value := by
  funext m
  cases m with
  | counter c => rw [Function.update_of_ne (by simp)]; rfl
  | error key' =>
      by_cases hkey : key' = key
      · subst hkey
        rw [Function.update_self, Metrics.value, Breakdown.count, setError, AList.lookup_insert]
        rfl
      · rw [Function.update_of_ne (by simpa using hkey), Metrics.value, Breakdown.count, setError,
          AList.lookup_insert_ne hkey]
        rfl

/-- `LoadOrStore` of a new counter: one that is there stays. -/
def loadOrStore (metrics : Metrics) (key : String) : Metrics :=
  if key ∈ metrics.errBreakdown then metrics else metrics.setError key 0

theorem value_loadOrStore (metrics : Metrics) (key : String) :
    (metrics.loadOrStore key).value = metrics.value := by
  unfold loadOrStore
  split
  · rfl
  next h =>
    have hzero : metrics.value (.error key) = 0 := by
      rw [value, Breakdown.count, AList.lookup_eq_none.mpr h]
      rfl
    rw [value_setError, ← hzero, Function.update_eq_self]

theorem mem_loadOrStore_self (metrics : Metrics) (key : String) :
    key ∈ (metrics.loadOrStore key).errBreakdown := by
  unfold loadOrStore
  split
  next h => exact h
  next => exact (AList.mem_insert _).mpr (.inl rfl)

theorem mem_loadOrStore {metrics : Metrics} {key key' : String}
    (h : key' ∈ metrics.errBreakdown) : key' ∈ (metrics.loadOrStore key).errBreakdown := by
  unfold loadOrStore
  split
  · exact h
  · exact (AList.mem_insert _).mpr (.inr h)

end Metrics

/-- The difference of two loads of a counter. -/
def subtractWithFloor (curr base : UInt64) : UInt64 := if curr < base then 0 else curr - base

/-- The body of the loop of `diffErrorBreakdown`. -/
def putGrowth (base out : Breakdown) (key : String) (value : UInt64) : Breakdown :=
  if value ≤ base.count key then out else out.insert key (value - base.count key)

def diffErrorBreakdown (curr base : Breakdown) : Breakdown := curr.foldl (putGrowth base) ∅

/-- The average latency since the baseline in nanoseconds, which the dashboard shows in
milliseconds. -/
def diffAvgLatency (currNanos currSamples : UInt64) (baseline : Metrics) : UInt64 :=
  let nanos := subtractWithFloor currNanos (baseline.counter .latencyNanos)
  let samples := subtractWithFloor currSamples (baseline.counter .latencySamples)
  if samples = 0 then 0 else nanos / samples

theorem lookup_putGrowth_of_ne {base out : Breakdown} {key key' : String} {value : UInt64}
    (h : key ≠ key') : (putGrowth base out key' value).lookup key = out.lookup key := by
  unfold putGrowth
  split
  · rfl
  · exact AList.lookup_insert_ne h

theorem lookup_foldl_putGrowth (base : Breakdown) (key : String)
    {entries : List (Sigma fun _ : String => UInt64)} (hnodup : entries.NodupKeys)
    (out : Breakdown) :
    (entries.foldl (fun out e => putGrowth base out e.1 e.2) out).lookup key =
      (entries.dlookup key).elim (out.lookup key) fun value =>
        (putGrowth base out key value).lookup key := by
  induction entries generalizing out with
  | nil => rfl
  | cons e entries ih =>
      obtain ⟨key', value⟩ := e
      obtain ⟨hnew, hrest⟩ := List.nodupKeys_cons.mp hnodup
      rw [List.foldl_cons, ih hrest]
      by_cases hkey : key = key'
      · subst hkey
        rw [List.dlookup_cons_eq, List.dlookup_eq_none.mpr hnew]
        rfl
      · have hskip : List.dlookup key (⟨key', value⟩ :: entries) = entries.dlookup key :=
          List.dlookup_cons_ne entries ⟨key', value⟩ hkey
        rw [hskip, lookup_putGrowth_of_ne hkey]
        cases entries.dlookup key with
        | none => rfl
        | some value' =>
            simp only [Option.elim_some, putGrowth]
            split <;> split <;> simp [AList.lookup_insert, AList.lookup_insert_ne hkey]

/-- The difference has the keys whose count is above the baseline. -/
theorem lookup_diffErrorBreakdown (curr base : Breakdown) (key : String) :
    (diffErrorBreakdown curr base).lookup key =
      (curr.lookup key).bind fun value =>
        if value ≤ base.count key then none else some (value - base.count key) := by
  refine (lookup_foldl_putGrowth base key curr.nodupKeys ∅).trans ?_
  change (curr.lookup key).elim _ _ = _
  cases curr.lookup key with
  | none => rfl
  | some value =>
      simp only [Option.elim_some, Option.bind_some, putGrowth]
      split
      · rfl
      · exact AList.lookup_insert _

end Metrics

section Config

/-- A `stressConfig`, as far as it is checked. Durations are in nanoseconds. -/
structure StressConfig where
  drainWindow : Int
  uidMin : Int
  uidMax : Int
  deriving DecidableEq, Repr

def errAlreadyRunning : String := "stress test is already running"

namespace StressConfig

/-- The defaults of a configuration. -/
def withDefaults (cfg : StressConfig) : StressConfig :=
  let window := if cfg.drainWindow ≤ 0 then 60 * 1000000000 else cfg.drainWindow
  if cfg.uidMin = 0 ∧ cfg.uidMax = 0 then ⟨window, 1, 100⟩ else ⟨window, cfg.uidMin, cfg.uidMax⟩

def normalize (cfg : StressConfig) : Except String StressConfig :=
  let cfg := cfg.withDefaults
  if cfg.uidMin ≤ 0 then .error "uid-min must be > 0"
  else if cfg.uidMax < cfg.uidMin then .error "uid-max must be >= uid-min"
  else .ok cfg

/-- The generators draw from a range of users that is not empty, and a drain has time. -/
theorem normalize_sound {cfg cfg' : StressConfig} (h : cfg.normalize = .ok cfg') :
    0 < cfg'.drainWindow ∧ 0 < cfg'.uidMin ∧ cfg'.uidMin ≤ cfg'.uidMax := by
  have hwindow : 0 < cfg.withDefaults.drainWindow := by
    unfold withDefaults
    dsimp only
    split <;> dsimp only <;> split <;> omega
  unfold normalize at h
  dsimp only at h
  split at h
  · cases h
  · split at h
    · cases h
    · cases h
      exact ⟨hwindow, by omega, by omega⟩

end StressConfig

end Config

/-- Where `ResetMetrics` stands, with the values it has loaded. -/
inductive Reset where
  | load (rest : List Counter) (baseline : Metrics)
  | range (todo : List String) (baseline : Metrics)
  | clear

/-- Where the goroutine of a run stands. The last three stages are its deferred calls. -/
inductive RunStage where
  | spawn
  | generate
  | drain
  | clear
  | stopMetrics
  | finish
  | close
  | closed
  deriving DecidableEq, Repr

/-- A run with the context that `Stop` cancels, and its metrics reporter with the value of
`lastSent`, until it returns. -/
structure StressRun where
  cfg : StressConfig
  stage : RunStage
  cancelled : Bool
  stopped : Bool
  reporter : Option UInt64

/-- Where a call of `Stop` stands. -/
inductive StopCall where
  | idle
  | cancel (cancel done : Option Nat)
  | await (done : Option Nat)
  deriving DecidableEq, Repr

/-- The engine. The mutex is free or held by `ResetMetrics`. -/
structure StressEngine where
  router : Metrics
  mu : Option Reset
  cancel : Option Nat
  done : Option Nat
  running : Bool
  currentTPS : UInt64
  baseline : Metrics

structure StressStatus where
  isRunning : Bool
  totalSent : UInt64
  totalSuccess : UInt64
  totalErrors : UInt64
  currentTPS : UInt64
  avgLatency : UInt64
  errorBreakdown : Breakdown

/-- The engine with its runs and the calls of `Stop`. -/
structure Dashboard where
  engine : StressEngine
  started : Nat
  run : Nat → StressRun
  stopCall : Nat → StopCall

inductive StressAction where
  -- the router counts, `RecordError` in two steps
  | add (c : Counter) (n : UInt64)
  | loadOrStore (key : String)
  | addError (key : String)
  -- the operations of the engine
  | start (cfg : StressConfig)
  | stop (p : Nat)
  | cancel (p : Nat)
  | stopReturn (p : Nat)
  | reset
  | load (c : Counter)
  | range
  | visit (key : String)
  | rebase
  | clear
  -- the goroutines of a run
  | advance (k : Nat)
  | tick (k : Nat)
  | reporterReturn (k : Nat)
  deriving DecidableEq, Repr

namespace StressEngine

/-- What `Status` shows where nothing is counted while it loads. -/
def status (e : StressEngine) : StressStatus where
  isRunning := e.running
  totalSent := subtractWithFloor (e.router.counter .reqSent) (e.baseline.counter .reqSent)
  totalSuccess := subtractWithFloor (e.router.counter .respRecv) (e.baseline.counter .respRecv)
  totalErrors := subtractWithFloor (e.router.counter .errCount) (e.baseline.counter .errCount)
  currentTPS := e.currentTPS
  avgLatency := diffAvgLatency (e.router.counter .latencyNanos)
    (e.router.counter .latencySamples) e.baseline
  errorBreakdown := diffErrorBreakdown e.router.errBreakdown e.baseline.errBreakdown

/-- The counters in the order in which `ResetMetrics` loads them. -/
def loadOrder : List Counter := [.reqSent, .respRecv, .errCount, .latencyNanos, .latencySamples]

end StressEngine

namespace Dashboard

def setEngine (d : Dashboard) (engine : StressEngine) : Dashboard := { d with engine := engine }

def setRouter (d : Dashboard) (router : Metrics) : Dashboard :=
  d.setEngine { d.engine with router := router }

def setMu (d : Dashboard) (mu : Option Reset) : Dashboard :=
  d.setEngine { d.engine with mu := mu }

def setRun (d : Dashboard) (k : Nat) (run : StressRun) : Dashboard :=
  { d with run := Function.update d.run k run }

def setStopCall (d : Dashboard) (p : Nat) (call : StopCall) : Dashboard :=
  { d with stopCall := Function.update d.stopCall p call }

/-- `Start` -/
def start (d : Dashboard) (cfg : StressConfig) : Except String Dashboard :=
  if d.engine.running then .error errAlreadyRunning
  else cfg.normalize.map fun cfg =>
    { d with
      engine := { d.engine with
        cancel := some d.started
        done := some d.started
        currentTPS := 0
        running := true
        baseline := .zero }
      started := d.started + 1
      run := Function.update d.run d.started ⟨cfg, .spawn, false, false, none⟩ }

/-- A step of the goroutine of a run. The generators return when their context is over,
which may happen at any time, and `drainInFlight` when the counters agree or its window is
over. -/
def advance (d : Dashboard) (k : Nat) : Option Dashboard :=
  let run := d.run k
  match run.stage with
  | .spawn => some (d.setRun k { run with stage := .generate, reporter := some 0 })
  | .generate => some (d.setRun k { run with stage := .drain })
  | .drain => some (d.setRun k { run with stage := .clear })
  | .clear =>
      some ((d.setRun k { run with stage := .stopMetrics }).setEngine
        { d.engine with currentTPS := 0 })
  | .stopMetrics => some (d.setRun k { run with stage := .finish, stopped := true })
  | .finish =>
      some ((d.setRun k { run with stage := .close }).setEngine { d.engine with running := false })
  | .close => some (d.setRun k { run with stage := .closed })
  | .closed => none

/-- One step of the loads of `ResetMetrics`, under the mutex. A key that is stored while
`Range` goes over the keys may be visited or not. -/
def resetStep (d : Dashboard) : StressAction → Option Dashboard
  | .load c =>
      match d.engine.mu with
      | some (.load (c' :: rest) b) =>
          if c = c' then some (d.setMu (some (.load rest
            (b.setCounter c (d.engine.router.counter c))))) else none
      | _ => none
  | .range =>
      match d.engine.mu with
      | some (.load [] b) => some (d.setMu (some (.range d.engine.router.errBreakdown.keys b)))
      | _ => none
  | .visit key =>
      match d.engine.mu with
      | some (.range todo b) =>
          if key ∈ d.engine.router.errBreakdown ∧ key ∉ b.errBreakdown then
            some (d.setMu (some (.range todo
              (b.setError key (d.engine.router.errBreakdown.count key)))))
          else none
      | _ => none
  | .rebase =>
      match d.engine.mu with
      | some (.range todo b) =>
          if ∀ key ∈ todo, key ∈ b.errBreakdown then
            some (d.setEngine { d.engine with baseline := b, mu := some .clear })
          else none
      | _ => none
  | .clear =>
      match d.engine.mu with
      | some .clear => some (d.setEngine { d.engine with currentTPS := 0, mu := none })
      | _ => none
  | _ => none

def step (d : Dashboard) : StressAction → Option Dashboard
  | .add c n =>
      some (d.setRouter (d.engine.router.setCounter c (d.engine.router.counter c + n)))
  | .loadOrStore key => some (d.setRouter (d.engine.router.loadOrStore key))
  | .addError key =>
      if key ∈ d.engine.router.errBreakdown then
        some (d.setRouter
          (d.engine.router.setError key (d.engine.router.errBreakdown.count key + 1)))
      else none
  | .start cfg =>
      if d.engine.mu.isSome then none else some ((d.start cfg).toOption.getD d)
  | .stop p =>
      if d.engine.mu.isSome ∨ d.stopCall p ≠ .idle then none
      else some ((d.setStopCall p (.cancel d.engine.cancel d.engine.done)).setEngine
        { d.engine with cancel := none, done := none })
  | .cancel p =>
      match d.stopCall p with
      | .cancel none done => some (d.setStopCall p (.await done))
      | .cancel (some k) done =>
          some ((d.setRun k { d.run k with cancelled := true }).setStopCall p (.await done))
      | _ => none
  | .stopReturn p =>
      match d.stopCall p with
      | .await done =>
          if done.all fun k => (d.run k).stage = .closed then some (d.setStopCall p .idle)
          else none
      | _ => none
  | .reset =>
      if d.engine.mu.isSome then none
      else some (d.setMu (some (.load StressEngine.loadOrder .zero)))
  | .advance k => d.advance k
  | .tick k =>
      (d.run k).reporter.map fun lastSent =>
        (d.setRun k { d.run k with reporter := some (d.engine.router.counter .reqSent) }).setEngine
          { d.engine with currentTPS := d.engine.router.counter .reqSent - lastSent }
  | .reporterReturn k =>
      if (d.run k).cancelled ∨ (d.run k).stopped then
        some (d.setRun k { d.run k with reporter := none })
      else none
  | action => d.resetStep action

end Dashboard

/-- The engine over a new router. A run that was not started is over. -/
def newDashboard : Dashboard where
  engine := ⟨.zero, none, none, none, false, 0, .zero⟩
  started := 0
  run _ := ⟨⟨0, 0, 0⟩, .closed, false, false, none⟩
  stopCall _ := .idle

/-- The dashboard, with requests whose outcomes are counted at any time. -/
def dashboard : System Dashboard StressAction := ⟨newDashboard, Dashboard.step⟩

end ActorCluster.Client
