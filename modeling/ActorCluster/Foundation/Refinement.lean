import ActorCluster.Foundation.Transition

/-! # Refinement along a state function

A system refines another one if its state determines a state of the other such that each
of its steps is a step of the other or is not seen there. Only states that meet an
invariant of the first system are considered.
-/

namespace Transition.System

variable {State Action State' Action' : Type}

/-- Steps of the first system are steps of the second between the images, or leave the
image as it is. -/
structure Refines (M : System State Action) (guard : State → Action → Prop)
    (N : System State' Action') (guard' : State' → Action' → Prop) (Inv : State → Prop)
    (image : State → State') : Prop where
  init : image M.init = N.init
  step : ∀ s action t, Inv s → guard s action → M.step s action = some t →
    image t = image s ∨ N.StepIf guard' (image s) (image t)

/-- A guarded run of the first system maps to one of the second. -/
theorem Refines.reachableIf {M : System State Action} {guard : State → Action → Prop}
    {N : System State' Action'} {guard' : State' → Action' → Prop} {Inv : State → Prop}
    {image : State → State'} (h : M.Refines guard N guard' Inv image)
    (hinv : ∀ s, M.ReachableIf guard s → Inv s) {s : State} (hs : M.ReachableIf guard s) :
    N.ReachableIf guard' (image s) := by
  induction hs with
  | refl =>
      rw [h.init]
      exact Relation.ReflTransGen.refl
  | tail hrun hlast ih =>
      obtain ⟨action, hguard, hstep⟩ := hlast
      rcases h.step _ action _ (hinv _ hrun) hguard hstep with hsame | hmoved
      · rwa [hsame]
      · exact Relation.ReflTransGen.tail ih hmoved

end Transition.System
