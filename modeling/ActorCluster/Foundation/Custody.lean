import Mathlib.Data.List.Perm.Subperm
import Mathlib.Data.List.Nodup

/-! # Custody of tokens

Tokens are held at places, and each of them at no more than one place at a
time. A step that only gives tokens up keeps custody exclusive; so does one
that hands a token from one place to another, or receives new tokens.
-/

namespace Custody

open scoped List

variable {Place Token : Type}

/-- No token is held twice, neither at two places nor at one. -/
structure Exclusive (hold : Place → List Token) : Prop where
  nodup : ∀ p, (hold p).Nodup
  unique : ∀ p q x, x ∈ hold p → x ∈ hold q → p = q

variable {hold next : Place → List Token} {p q : Place} {x : Token}

theorem nodup_of_subperm {l l' : List Token} (h : l <+~ l') (hnodup : l'.Nodup) : l.Nodup := by
  obtain ⟨middle, hperm, hsub⟩ := h
  exact hperm.nodup_iff.mp (hnodup.sublist hsub)

/-- A list without a second item of one key has one item for the key. -/
theorem filter_eq_singleton_of_nodup_map {Item : Type} [DecidableEq Token] {f : Item → Token}
    {l : List Item} (hnodup : (l.map f).Nodup) {item : Item} (hitem : item ∈ l) :
    (l.filter fun other => f other = f item) = [item] := by
  induction l with
  | nil => cases hitem
  | cons first rest ih =>
      obtain ⟨hfresh, hrest⟩ := List.nodup_cons.mp hnodup
      rcases List.mem_cons.mp hitem with rfl | hitem
      · rw [List.filter_cons_of_pos (by simp), List.filter_eq_nil_iff.mpr]
        intro other hother hsame
        exact hfresh (of_decide_eq_true hsame ▸ List.mem_map_of_mem hother)
      · rw [List.filter_cons_of_neg]
        · exact ih hrest hitem
        · intro hsame
          exact hfresh (of_decide_eq_true hsame ▸ List.mem_map_of_mem hitem)

theorem subperm_map {Token' : Type} (f : Token → Token') {l l' : List Token} (h : l <+~ l') :
    l.map f <+~ l'.map f := by
  obtain ⟨middle, hperm, hsub⟩ := h
  exact ⟨middle.map f, hperm.map f, hsub.map f⟩

/-- No token is held at two places. -/
def Sole (hold : Place → Token → Prop) : Prop := ∀ p q x, hold p x → hold q x → p = q

section Sole

variable {hold next : Place → Token → Prop}

theorem Sole.mono (h : Sole hold) (hback : ∀ p y, next p y → hold p y) : Sole next :=
  fun p q y hp hq => h p q y (hback p y hp) (hback q y hq)

/-- A token arrives at a place, and nobody keeps it who has had it before. -/
theorem Sole.arrive (h : Sole hold) (x : Token) (dst : Place)
    (hback : ∀ p y, next p y → hold p y ∨ p = dst ∧ y = x)
    (hleft : ∀ p, hold p x → ¬ next p x) : Sole next := by
  intro p q y hp hq
  rcases hback p y hp with hp' | ⟨hpdst, hpx⟩ <;> rcases hback q y hq with hq' | ⟨hqdst, hqx⟩
  · exact h p q y hp' hq'
  · subst hqx
    exact absurd hp (hleft p hp')
  · subst hpx
    exact absurd hq (hleft q hq')
  · rw [hpdst, hqdst]

end Sole

/-- A token held at one place is not held elsewhere. -/
theorem Exclusive.notMem (h : Exclusive hold) (hx : x ∈ hold p) (hpq : p ≠ q) : x ∉ hold q :=
  fun hq => hpq (h.unique p q x hx hq)

/-- Tokens may be given up. -/
theorem Exclusive.mono (h : Exclusive hold) (hsub : ∀ p, next p <+~ hold p) : Exclusive next where
  nodup p := nodup_of_subperm (hsub p) (h.nodup p)
  unique p q x hp hq := h.unique p q x ((hsub p).subset hp) ((hsub q).subset hq)

section Update

variable [DecidableEq Place] {l l' : List Token}

theorem mem_update (h : x ∈ Function.update hold p l q) : x ∈ l ∨ x ∈ hold q := by
  by_cases hq : q = p
  · subst hq
    rw [Function.update_self] at h
    exact Or.inl h
  · rw [Function.update_of_ne hq] at h
    exact Or.inr h

/-- One place gives tokens up. -/
theorem Exclusive.relinquish (h : Exclusive hold) (hl : l <+~ hold p) :
    Exclusive (Function.update hold p l) := by
  apply h.mono
  intro r
  by_cases hr : r = p
  · subst hr
    rwa [Function.update_self]
  · rw [Function.update_of_ne hr]

/-- One place receives tokens that nobody holds. -/
theorem Exclusive.receive (h : Exclusive hold) (new : List Token) (hnodup : new.Nodup)
    (hnew : ∀ x ∈ new, ∀ p, x ∉ hold p) (hl : l <+~ new ++ hold q) :
    Exclusive (Function.update hold q l) := by
  have hmem : ∀ p x, x ∈ Function.update hold q l p → x ∈ hold p ∨ (p = q ∧ x ∈ new) := by
    intro p x hx
    by_cases hpq : p = q
    · subst hpq
      rw [Function.update_self] at hx
      exact (List.mem_append.mp (hl.subset hx)).symm.imp_right fun hin => ⟨rfl, hin⟩
    · rw [Function.update_of_ne hpq] at hx
      exact Or.inl hx
  refine ⟨fun p => ?_, fun p r x hp hr => ?_⟩
  · by_cases hpq : p = q
    · subst hpq
      rw [Function.update_self]
      refine nodup_of_subperm hl (hnodup.append (h.nodup p) ?_)
      exact fun x hin hheld => hnew x hin p hheld
    · rw [Function.update_of_ne hpq]
      exact h.nodup p
  · rcases hmem p x hp with hheld | ⟨rfl, hin⟩ <;> rcases hmem r x hr with hheld' | ⟨rfl, hin'⟩
    · exact h.unique p r x hheld hheld'
    · exact absurd hheld (hnew x hin' p)
    · exact absurd hheld' (hnew x hin r)
    · rfl

/-- One place hands a token to another. -/
theorem Exclusive.move [DecidableEq Token] (h : Exclusive hold) (hx : x ∈ hold p) (hpq : p ≠ q)
    (hp : l <+~ (hold p).erase x) (hq : l' <+~ x :: hold q) :
    Exclusive (Function.update (Function.update hold p l) q l') := by
  -- the token is given up first, and then received at its new place
  have hgone : Exclusive (Function.update hold p l) :=
    h.relinquish (hp.trans List.erase_sublist.subperm)
  refine hgone.receive [x] (List.nodup_singleton x) ?_ (by rwa [Function.update_of_ne hpq.symm])
  intro y hy r
  rw [List.mem_singleton] at hy
  subst hy
  by_cases hr : r = p
  · subst hr
    rw [Function.update_self]
    exact fun hmem => (h.nodup r).not_mem_erase (hp.subset hmem)
  · rw [Function.update_of_ne hr]
    exact h.notMem hx (Ne.symm hr)

/-- One place hands a token to another, and the others keep theirs. -/
theorem Exclusive.hand [DecidableEq Token] (h : Exclusive hold) (hpq : p ≠ q)
    (hp : hold p ~ x :: next p) (hq : next q ~ x :: hold q)
    (hother : ∀ r, r ≠ p → r ≠ q → next r = hold r) : Exclusive next := by
  have hupdate : next = Function.update (Function.update hold p (next p)) q (next q) := by
    funext r
    by_cases hr : r = q
    · subst hr
      rw [Function.update_self]
    · rw [Function.update_of_ne hr]
      by_cases hrp : r = p
      · subst hrp
        rw [Function.update_self]
      · rw [Function.update_of_ne hrp, hother r hrp hr]
  rw [hupdate]
  apply h.move (hp.symm.subset List.mem_cons_self) hpq
  · have herase := hp.erase x
    rw [List.erase_cons_head] at herase
    exact herase.symm.subperm
  · exact hq.subperm

/-- One place gains a token that nobody holds. -/
theorem Exclusive.gain (h : Exclusive hold) (hnew : ∀ r, x ∉ hold r) (hq : next q <+~ x :: hold q)
    (hother : ∀ r, r ≠ q → next r = hold r) : Exclusive next := by
  have hupdate : next = Function.update hold q (next q) := by
    funext r
    by_cases hr : r = q
    · subst hr
      rw [Function.update_self]
    · rw [Function.update_of_ne hr, hother r hr]
  rw [hupdate]
  apply h.receive [x] (List.nodup_singleton x) ?_ hq
  intro y hy r
  rw [List.mem_singleton] at hy
  subst hy
  exact hnew r

end Update

end Custody
