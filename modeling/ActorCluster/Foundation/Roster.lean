import Mathlib.Logic.Function.Basic

/-! # Rosters

Bearers are numbered one after the other. A bearer may be given a new number; the
live bearers have different numbers. A mirror keeps a view of each live bearer
under its number.
-/

structure Roster where
  next : Nat
  of : Nat → Nat

namespace Roster

/-- No number has been given out. -/
def empty : Roster where
  next := 0
  of _ := 0

/-- Give the next number to a bearer. -/
def assign (names : Roster) (p : Nat) : Roster where
  next := names.next + 1
  of := Function.update names.of p names.next

theorem of_assign_self (names : Roster) (p : Nat) : (names.assign p).of p = names.next :=
  Function.update_self _ _ _

theorem of_assign_of_ne (names : Roster) {p q : Nat} (h : q ≠ p) :
    (names.assign p).of q = names.of q :=
  Function.update_of_ne h _ _

/-- The live bearers have different numbers, all of which were given out. -/
structure Valid (names : Roster) (live : Nat → Prop) : Prop where
  lt : ∀ p, live p → names.of p < names.next
  injective : ∀ p q, live p → live q → names.of p = names.of q → p = q

variable {names : Roster} {live live' : Nat → Prop}

theorem Valid.mono (h : names.Valid live) (hback : ∀ p, live' p → live p) : names.Valid live' where
  lt p hp := h.lt p (hback p hp)
  injective p q hp hq := h.injective p q (hback p hp) (hback q hq)

theorem Valid.assign (h : names.Valid live) (p : Nat) (hback : ∀ q, q ≠ p → live' q → live q) :
    (names.assign p).Valid live' := by
  refine ⟨fun q hq => ?_, fun q r hq hr heq => ?_⟩
  · by_cases hqp : q = p
    · subst hqp
      rw [of_assign_self]
      exact Nat.lt_succ_self _
    · rw [names.of_assign_of_ne hqp]
      exact Nat.lt_succ_of_lt (h.lt q (hback q hqp hq))
  · by_cases hqp : q = p <;> by_cases hrp : r = p
    · rw [hqp, hrp]
    · subst hqp
      rw [of_assign_self, names.of_assign_of_ne hrp] at heq
      exact absurd heq (Nat.ne_of_gt (h.lt r (hback r hrp hr)))
    · subst hrp
      rw [of_assign_self, names.of_assign_of_ne hqp] at heq
      exact absurd heq (Nat.ne_of_lt (h.lt q (hback q hqp hq)))
    · rw [names.of_assign_of_ne hqp, names.of_assign_of_ne hrp] at heq
      exact h.injective q r (hback q hqp hq) (hback r hrp hr) heq

/-- Every live bearer has a view under its number, and the view shows it. -/
structure Mirror {View : Type} (names : Roster) (live : Nat → Prop) (shown : Nat → View → Prop)
    (view : Nat → Option View) : Prop where
  valid : names.Valid live
  shows : ∀ p, live p → ∃ v, view (names.of p) = some v ∧ shown p v

namespace Mirror

variable {View : Type} {shown shown' : Nat → View → Prop} {view : Nat → Option View}

theorem of_forall_not (h : ∀ p, ¬ live p) : names.Mirror live shown view where
  valid := ⟨fun p hp => absurd hp (h p), fun p _ hp => absurd hp (h p)⟩
  shows p hp := absurd hp (h p)

theorem keep (h : names.Mirror live shown view)
    (hkeep : ∀ p, live' p → live p ∧ ∀ v, shown p v → shown' p v) :
    names.Mirror live' shown' view := by
  refine ⟨h.valid.mono fun p hp => (hkeep p hp).1, fun p hp => ?_⟩
  obtain ⟨v, hv, hshown⟩ := h.shows p (hkeep p hp).1
  exact ⟨v, hv, (hkeep p hp).2 v hshown⟩

section Family

variable {State : Type} {f : Nat → State} {L K : Nat → State → Prop} {S : State → View → Prop}

/-- One bearer changes, and its view with it. -/
theorem update (h : names.Mirror (fun p => L p (f p)) (fun p => S (f p)) view) {p : Nat}
    (hp : L p (f p)) (x : State) (v : View) (hself : S x v) :
    names.Mirror (fun q => L q (Function.update f p x q)) (fun q => S (Function.update f p x q))
      (Function.update view (names.of p) (some v)) := by
  have hback (q : Nat) (hq : L q (Function.update f p x q)) : L q (f q) := by
    by_cases hqp : q = p
    · exact hqp ▸ hp
    · rwa [Function.update_of_ne hqp] at hq
  refine ⟨h.valid.mono hback, fun q hq => ?_⟩
  by_cases hqp : q = p
  · subst hqp
    rw [Function.update_self, Function.update_self]
    exact ⟨v, rfl, hself⟩
  · have hne : names.of q ≠ names.of p := fun heq =>
      hqp (h.valid.injective q p (hback q hq) hp heq)
    rw [Function.update_of_ne hqp, Function.update_of_ne hne]
    exact h.shows q (hback q hq)

/-- One bearer changes, and its view shows that as well. -/
theorem move (h : names.Mirror (fun p => L p (f p)) (fun p => S (f p)) view) (p : Nat) (x : State)
    (hself : L p x → L p (f p) ∧ ∀ v, S (f p) v → S x v) :
    names.Mirror (fun q => L q (Function.update f p x q)) (fun q => S (Function.update f p x q))
      view := by
  refine h.keep fun q hq => ?_
  by_cases hqp : q = p
  · subst hqp
    rw [Function.update_self] at hq ⊢
    exact hself hq
  · rw [Function.update_of_ne hqp] at hq ⊢
    exact ⟨hq, fun _ => id⟩

/-- A bearer is given a number and a view. -/
theorem assign (h : names.Mirror (fun p => L p (f p)) (fun p => S (f p)) view) (p : Nat) (x : State)
    (v : Option View) (hself : K p x → ∃ w, v = some w ∧ S x w)
    (hother : ∀ q, q ≠ p → K q (f q) → L q (f q)) :
    (names.assign p).Mirror (fun q => K q (Function.update f p x q))
      (fun q => S (Function.update f p x q)) (Function.update view names.next v) := by
  have hback (q : Nat) (hqp : q ≠ p) (hq : K q (Function.update f p x q)) : L q (f q) := by
    rw [Function.update_of_ne hqp] at hq
    exact hother q hqp hq
  refine ⟨h.valid.assign p hback, fun q hq => ?_⟩
  by_cases hqp : q = p
  · subst hqp
    rw [Function.update_self] at hq
    rw [of_assign_self, Function.update_self, Function.update_self]
    exact hself hq
  · have hlt := h.valid.lt q (hback q hqp hq)
    rw [names.of_assign_of_ne hqp, Function.update_of_ne (Nat.ne_of_lt hlt),
      Function.update_of_ne hqp]
    exact h.shows q (hback q hqp hq)

end Family

end Mirror

end Roster
