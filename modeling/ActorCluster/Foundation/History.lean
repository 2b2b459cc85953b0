import ActorCluster.Foundation.Transition

/-! # Histories

A history is kept next to the state of a system. Every step brings it up to date
and no step looks at it, so the system takes the same runs with it as without.
-/

namespace Transition.System

variable {State Action History : Type}

/-- The system, with a history that records its steps. -/
def recording (M : System State Action) (start : History)
    (record : State → History → Action → History) : System (State × History) Action where
  init := (M.init, start)
  step s action := (M.step s.1 action).map fun t => (t, record s.1 s.2 action)

variable {M : System State Action} {start : History}
variable {record : State → History → Action → History}

theorem recording_step_eq_some_iff {s t : State × History} {action : Action} :
    (M.recording start record).step s action = some t ↔
      M.step s.1 action = some t.1 ∧ t.2 = record s.1 s.2 action := by
  simp only [recording, Option.map_eq_some_iff]
  constructor
  · rintro ⟨u, hstep, rfl⟩
    exact ⟨hstep, rfl⟩
  · intro h
    exact ⟨t.1, h.1, Prod.ext rfl h.2.symm⟩

/-- The invariant rule for a property of the state and the history. -/
theorem recording_invariant {P : State → History → Prop} (hinit : P M.init start)
    (hstep : ∀ s h action t, P s h → M.step s action = some t → P t (record s h action))
    {s : State × History} (hs : (M.recording start record).Reachable s) : P s.1 s.2 := by
  apply Reachable.invariant (P := fun s => P s.1 s.2) hinit _ hs
  intro s action t h hrecorded
  obtain ⟨hmove, hhistory⟩ := recording_step_eq_some_iff.mp hrecorded
  rw [hhistory]
  exact hstep s.1 s.2 action t.1 h hmove

/-- Every state that is reached has a history. -/
theorem exists_history {s : State} (hs : M.Reachable s) :
    ∃ h, (M.recording start record).Reachable (s, h) := by
  apply Reachable.invariant (P := fun s => ∃ h, (M.recording start record).Reachable (s, h)) _ _ hs
  · exact ⟨start, Relation.ReflTransGen.refl⟩
  · rintro s action t ⟨h, hreach⟩ hmove
    have hrecorded : (M.recording start record).step (s, h) action =
        some (t, record s h action) := recording_step_eq_some_iff.mpr ⟨hmove, rfl⟩
    exact ⟨_, Relation.ReflTransGen.tail hreach ⟨action, trivial, hrecorded⟩⟩

end Transition.System
