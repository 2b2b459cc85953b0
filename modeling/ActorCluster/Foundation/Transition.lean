import Mathlib.Logic.Relation

/-! # Labelled systems and guarded runs

An action resolves every choice of the step it labels, so a step is a partial
function and a finite run can be evaluated. A guard restricts the actions that
may be taken in a state; an unguarded run admits every enabled action.
-/

namespace Transition

variable {State Action : Type}

/-- A system given by its initial state and its partial step function. -/
structure System (State Action : Type) where
  init : State
  step : State → Action → Option State

namespace System

variable (M : System State Action) {guard : State → Action → Prop}

/-- A system whose actions are enabled in some states and have one effect. -/
def guarded (init : State) (enabled : State → Action → Bool) (apply : State → Action → State) :
    System State Action where
  init := init
  step s action := if enabled s action then some (apply s action) else none

/-- One enabled step whose action meets the guard in the state before it. -/
def StepIf (guard : State → Action → Prop) (s t : State) : Prop :=
  ∃ action, guard s action ∧ M.step s action = some t

/-- A finite run all of whose steps meet the guard. -/
def RunIf (guard : State → Action → Prop) : State → State → Prop :=
  Relation.ReflTransGen (M.StepIf guard)

/-- The guard that admits every action. -/
def free : State → Action → Prop := fun _ _ => True

/-- A finite run with no restriction on its actions. -/
def Run : State → State → Prop := M.RunIf free

/-- A state reached from the initial one by a guarded run. -/
def ReachableIf (guard : State → Action → Prop) (s : State) : Prop :=
  M.RunIf guard M.init s

/-- A state reached from the initial one. -/
def Reachable (s : State) : Prop := M.Run M.init s

/-- Evaluate a list of actions, failing at the first one that is not enabled. -/
def exec : State → List Action → Option State
  | s, [] => some s
  | s, action :: rest => (M.step s action).bind fun t => exec t rest

/-- The state that a list of actions leads to, or the initial one if the list
cannot be executed. -/
def after (actions : List Action) : State := (M.exec M.init actions).getD M.init

/-- A run that takes the given actions, all of which meet the guard. -/
inductive Path (guard : State → Action → Prop) : State → List Action → State → Prop
  | nil (s : State) : Path guard s [] s
  | cons {s t u : State} {action : Action} {rest : List Action} (hguard : guard s action)
      (hstep : M.step s action = some t) (hrest : Path guard t rest u) :
      Path guard s (action :: rest) u

/-- Every action of the list meets the guard in the state where it is taken. -/
def admits (guard : State → Action → Prop) [∀ s action, Decidable (guard s action)] :
    State → List Action → Bool
  | _, [] => true
  | s, action :: rest =>
      decide (guard s action) && (M.step s action).all fun t => admits guard t rest

variable {M}

theorem guarded_step_eq_some_iff {init : State} {enabled : State → Action → Bool}
    {apply : State → Action → State} {s t : State} {action : Action} :
    (guarded init enabled apply).step s action = some t ↔
      enabled s action = true ∧ apply s action = t := by
  simp only [guarded]
  split
  next h => simp [h]
  next h => simp [h]

/-- A predicate preserved by every guarded step is preserved by every run. -/
theorem RunIf.preserves {P : State → Prop}
    (hstep : ∀ s action t, P s → guard s action → M.step s action = some t → P t)
    {s t : State} (hrun : M.RunIf guard s t) (hs : P s) : P t := by
  induction hrun with
  | refl => exact hs
  | tail _ hlast ih =>
      obtain ⟨action, hguard, h⟩ := hlast
      exact hstep _ action _ ih hguard h

theorem RunIf.mono {weaker : State → Action → Prop}
    (hweaker : ∀ s action, guard s action → weaker s action) {s t : State}
    (hrun : M.RunIf guard s t) : M.RunIf weaker s t := by
  induction hrun with
  | refl => exact Relation.ReflTransGen.refl
  | tail _ hlast ih =>
      obtain ⟨action, hguard, hstep⟩ := hlast
      exact Relation.ReflTransGen.tail ih ⟨action, hweaker _ action hguard, hstep⟩

/-- A predicate that holds initially and is preserved by every guarded step
holds in every state a guarded run reaches. -/
theorem ReachableIf.invariant {P : State → Prop} (hinit : P M.init)
    (hstep : ∀ s action t, P s → guard s action → M.step s action = some t → P t)
    {s : State} (hs : M.ReachableIf guard s) : P s :=
  RunIf.preserves hstep hs hinit

/-- The invariant rule for a step that relies on what is known of the states reached. -/
theorem ReachableIf.invariant_of {Known P : State → Prop}
    (hknown : ∀ s, M.ReachableIf guard s → Known s) (hinit : P M.init)
    (hstep : ∀ s action t, Known s → P s → guard s action → M.step s action = some t → P t)
    {s : State} (hs : M.ReachableIf guard s) : P s := by
  induction hs with
  | refl => exact hinit
  | tail hrun hlast ih =>
      obtain ⟨action, hguard, h⟩ := hlast
      exact hstep _ action _ (hknown _ hrun) ih hguard h

/-- The unguarded form of the invariant rule. -/
theorem Reachable.invariant {P : State → Prop} (hinit : P M.init)
    (hstep : ∀ s action t, P s → M.step s action = some t → P t)
    {s : State} (hs : M.Reachable s) : P s :=
  RunIf.preserves (fun s action t hP _ h => hstep s action t hP h) hs hinit

theorem exec_append (s : State) (first second : List Action) :
    M.exec s (first ++ second) = (M.exec s first).bind fun t => M.exec t second := by
  induction first generalizing s with
  | nil => rfl
  | cons action rest ih =>
      simp only [List.cons_append, exec]
      cases M.step s action with
      | none => rfl
      | some t => exact ih t

/-- An executable list leads to the state that its evaluation gives. -/
theorem exec_getD {s : State} {actions : List Action}
    (hexec : (M.exec s actions).isSome = true) :
    M.exec s actions = some ((M.exec s actions).getD s) := by
  obtain ⟨t, ht⟩ := Option.isSome_iff_exists.mp hexec
  rw [ht]
  rfl

/-- An evaluated list of actions is a run. -/
theorem runIf_of_exec {s t : State} {actions : List Action}
    (hguard : ∀ action ∈ actions, ∀ s, guard s action) (h : M.exec s actions = some t) :
    M.RunIf guard s t := by
  induction actions generalizing s with
  | nil =>
      cases Option.some.inj h
      exact Relation.ReflTransGen.refl
  | cons action rest ih =>
      simp only [exec, Option.bind_eq_some_iff] at h
      obtain ⟨middle, hstep, hrest⟩ := h
      rw [List.forall_mem_cons] at hguard
      exact Relation.ReflTransGen.head ⟨action, hguard.1 s, hstep⟩ (ih hguard.2 hrest)

/-- An evaluated list of actions is a run if each of them is admitted in its state. -/
theorem path_of_admits [∀ s action, Decidable (guard s action)] {s t : State}
    {actions : List Action} (hadmits : M.admits guard s actions = true)
    (h : M.exec s actions = some t) : M.Path guard s actions t := by
  induction actions generalizing s with
  | nil =>
      cases Option.some.inj h
      exact .nil _
  | cons action rest ih =>
      simp only [exec, Option.bind_eq_some_iff] at h
      obtain ⟨middle, hstep, hrest⟩ := h
      simp only [admits, hstep, Option.all_some, Bool.and_eq_true, decide_eq_true_eq] at hadmits
      exact .cons hadmits.1 hstep (ih hadmits.2 hrest)

/-- An executable list of admitted actions is a run from the initial state. -/
theorem path_after [∀ s action, Decidable (guard s action)] {actions : List Action}
    (hexec : (M.exec M.init actions).isSome = true)
    (hadmits : M.admits guard M.init actions = true) :
    M.Path guard M.init actions (M.after actions) := by
  obtain ⟨t, ht⟩ := Option.isSome_iff_exists.mp hexec
  unfold after
  rw [ht]
  exact path_of_admits hadmits ht

/-- The rest of an executable list leads on from where its first part ends. -/
theorem exec_after {first second : List Action}
    (hexec : (M.exec M.init (first ++ second)).isSome = true) :
    M.exec (M.after first) second = some (M.after (first ++ second)) := by
  unfold after
  rw [exec_append] at hexec ⊢
  cases hs : M.exec M.init first with
  | none =>
      rw [hs] at hexec
      cases hexec
  | some s =>
      rw [hs] at hexec
      obtain ⟨t, ht⟩ := Option.isSome_iff_exists.mp hexec
      rw [ht]
      exact ht

theorem Path.runIf {s t : State} {actions : List Action} (h : M.Path guard s actions t) :
    M.RunIf guard s t := by
  induction h with
  | nil => exact Relation.ReflTransGen.refl
  | cons hguard hstep _ ih => exact Relation.ReflTransGen.head ⟨_, hguard, hstep⟩ ih

theorem runIf_of_admits [∀ s action, Decidable (guard s action)] {s t : State}
    {actions : List Action} (hadmits : M.admits guard s actions = true)
    (h : M.exec s actions = some t) : M.RunIf guard s t :=
  (path_of_admits hadmits h).runIf

/-- What the actions of a list preserve still holds after them. -/
theorem after_append_preserves {P : State → Prop} {first second : List Action} (hinit : P M.init)
    (hfirst : P (M.after first))
    (hstep : ∀ s t, ∀ action ∈ second, P s → M.step s action = some t → P t) :
    P (M.after (first ++ second)) := by
  unfold after at hfirst ⊢
  rw [exec_append]
  cases hs : M.exec M.init first with
  | none => exact hinit
  | some s =>
      rw [hs] at hfirst
      cases ht : M.exec s second with
      | none =>
          simp only [Option.bind_some, ht]
          exact hinit
      | some t =>
          simp only [Option.bind_some, ht]
          have hrun : M.RunIf (fun _ action => action ∈ second) s t :=
            runIf_of_exec (fun _ hmem _ => hmem) ht
          exact hrun.preserves (fun s action t hP hmem h => hstep s t action hmem hP h) hfirst

/-- Actions that meet the guard in every state prolong a guarded run. -/
theorem ReachableIf.append {first second : List Action}
    (hfirst : M.ReachableIf guard (M.after first))
    (hguard : ∀ action ∈ second, ∀ s, guard s action) :
    M.ReachableIf guard (M.after (first ++ second)) :=
  after_append_preserves Relation.ReflTransGen.refl hfirst fun s _ action hmem hs h =>
    Relation.ReflTransGen.tail hs ⟨action, hguard action hmem s, h⟩

/-- One more action that meets the guard in the state that the others lead to. -/
theorem ReachableIf.concat {actions : List Action} {action : Action}
    (hactions : M.ReachableIf guard (M.after actions)) (hguard : guard (M.after actions) action) :
    M.ReachableIf guard (M.after (actions ++ [action])) := by
  unfold after at hactions hguard ⊢
  rw [exec_append]
  cases hs : M.exec M.init actions with
  | none => exact Relation.ReflTransGen.refl
  | some s =>
      rw [hs] at hactions hguard
      cases ht : M.step s action with
      | none =>
          simp only [Option.bind_some, exec, ht]
          exact Relation.ReflTransGen.refl
      | some t =>
          simp only [Option.bind_some, exec, ht]
          exact Relation.ReflTransGen.tail hactions ⟨action, hguard, ht⟩

theorem reachableIf_singleton {action : Action} (hguard : guard M.init action) :
    M.ReachableIf guard (M.after [action]) := by
  have hnil : M.ReachableIf guard (M.after []) := Relation.ReflTransGen.refl
  exact hnil.concat hguard

theorem reachableIf_after {actions : List Action}
    (hguard : ∀ action ∈ actions, ∀ s, guard s action) : M.ReachableIf guard (M.after actions) := by
  have hnil : M.ReachableIf guard (M.after []) := Relation.ReflTransGen.refl
  exact hnil.append hguard

theorem reachableIf_of_admits [∀ s action, Decidable (guard s action)] {actions : List Action}
    (hadmits : M.admits guard M.init actions = true) :
    M.ReachableIf guard (M.after actions) := by
  unfold after
  cases h : M.exec M.init actions with
  | none => exact Relation.ReflTransGen.refl
  | some t => exact runIf_of_admits hadmits h

/-- Actions that a decidable guard admits prolong a run under a weaker guard. -/
theorem ReachableIf.append_of_admits {check : State → Action → Prop}
    [∀ s action, Decidable (check s action)] {first second : List Action}
    (hfirst : M.ReachableIf guard (M.after first))
    (hcheck : ∀ s action, check s action → guard s action)
    (hadmits : M.admits check (M.after first) second = true) :
    M.ReachableIf guard (M.after (first ++ second)) := by
  unfold after at hfirst hadmits ⊢
  rw [exec_append]
  cases hs : M.exec M.init first with
  | none => exact Relation.ReflTransGen.refl
  | some s =>
      rw [hs] at hfirst hadmits
      cases ht : M.exec s second with
      | none =>
          simp only [Option.bind_some, ht]
          exact Relation.ReflTransGen.refl
      | some t =>
          simp only [Option.bind_some, ht]
          exact Relation.ReflTransGen.trans hfirst ((runIf_of_admits hadmits ht).mono hcheck)

theorem reachable_after (actions : List Action) : M.Reachable (M.after actions) :=
  reachableIf_after fun _ _ _ => trivial

/-- Some guarded run leads from the state to one of which the predicate holds. -/
def LeadsTo (M : System State Action) (guard : State → Action → Prop) (s : State)
    (P : State → Prop) : Prop :=
  ∃ t, M.RunIf guard s t ∧ P t

namespace LeadsTo

variable {P Q : State → Prop} {s t : State}

theorem refl (h : P s) : M.LeadsTo guard s P := ⟨s, Relation.ReflTransGen.refl, h⟩

theorem trans (h : M.LeadsTo guard s P) (hnext : ∀ t, P t → M.LeadsTo guard t Q) :
    M.LeadsTo guard s Q := by
  obtain ⟨t, hst, ht⟩ := h
  obtain ⟨u, htu, hu⟩ := hnext t ht
  exact ⟨u, Relation.ReflTransGen.trans hst htu, hu⟩

theorem step {action : Action} (hguard : guard s action) (hstep : M.step s action = some t)
    (h : M.LeadsTo guard t P) : M.LeadsTo guard s P := by
  obtain ⟨u, htu, hu⟩ := h
  exact ⟨u, Relation.ReflTransGen.head ⟨action, hguard, hstep⟩ htu, hu⟩

end LeadsTo

end System

end Transition
