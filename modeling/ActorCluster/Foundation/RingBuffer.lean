import Mathlib.Data.List.Basic
import Mathlib.Data.Fin.Basic
import Mathlib.Data.Nat.ModEq
import Mathlib.Data.Finset.Basic

/-! # Ring buffers

Slots written in cyclic order keep the most recent pushes. The relation below
names the whole history of pushes, of which the slots retain the last `N`; the
slot under the cursor is the one the next push overwrites.
-/

namespace RingBuffer

variable {α : Type} {N : Nat} [NeZero N]

/-- The `n` most recent elements of a list, oldest first. -/
def newest (n : Nat) (pushed : List α) : List α := pushed.drop (pushed.length - n)

/-- The slots and the cursor that pushing a list onto blank slots leaves. -/
structure Holds (blank : α) (slots : Vector α N) (cursor : Fin N) (pushed : List α) : Prop where
  cursor_eq : cursor.val = pushed.length % N
  recent : ∀ (j : Nat) (hj : j < pushed.length), pushed.length ≤ j + N →
    slots[Fin.ofNat N j] = pushed[j]
  unused : ∀ i : Fin N, pushed.length ≤ i.val → slots[i] = blank

variable {blank : α} {slots : Vector α N} {cursor : Fin N} {pushed : List α}

theorem holds_nil (blank : α) : Holds blank (Vector.replicate N blank) 0 [] where
  cursor_eq := by simp
  recent := by simp
  unused := by
    intro i _
    simp

/-- The slot under the cursor is blank until every slot has been used. -/
theorem Holds.oldest_of_lt (h : Holds blank slots cursor pushed) (hlt : pushed.length < N) :
    slots[cursor] = blank :=
  h.unused cursor (by rw [h.cursor_eq, Nat.mod_eq_of_lt hlt])

/-- Afterwards it holds the push made `N` pushes ago. -/
theorem Holds.oldest_of_le (h : Holds blank slots cursor pushed) (hle : N ≤ pushed.length) :
    ∃ hj : pushed.length - N < pushed.length, slots[cursor] = pushed[pushed.length - N] := by
  have hpos : 0 < N := Nat.pos_of_ne_zero (NeZero.ne N)
  have hj : pushed.length - N < pushed.length := by omega
  refine ⟨hj, ?_⟩
  have hslot : cursor = Fin.ofNat N (pushed.length - N) := by
    apply Fin.ext
    rw [h.cursor_eq, Fin.val_ofNat, Nat.mod_eq_sub_mod hle]
  rw [hslot]
  exact h.recent _ hj (by omega)

/-- Pushing one more element. -/
theorem Holds.push (h : Holds blank slots cursor pushed) (x : α) :
    Holds blank (slots.set cursor x) (cursor + 1) (pushed ++ [x]) where
  cursor_eq := by
    rw [Fin.val_add, h.cursor_eq, List.length_append, List.length_singleton]
    change (pushed.length % N + 1 % N) % N = _
    rw [← Nat.add_mod]
  recent := by
    intro j hj hrecent
    rw [List.length_append, List.length_singleton] at hj hrecent
    rcases Nat.lt_succ_iff_lt_or_eq.mp hj with hold | rfl
    · -- an older push among the last `N` sits in another slot
      have hne : cursor.val ≠ (Fin.ofNat N j).val := by
        rw [h.cursor_eq, Fin.val_ofNat]
        intro hmod
        have hdvd := (Nat.modEq_iff_dvd' hold.le).mp hmod.symm
        have := Nat.le_of_dvd (by omega) hdvd
        omega
      rw [List.getElem_append_left hold]
      simp only [Fin.getElem_fin]
      rw [Vector.getElem_set_ne _ _ hne]
      exact h.recent j hold (by omega)
    · simp [← h.cursor_eq]
  unused := by
    intro i hi
    rw [List.length_append, List.length_singleton] at hi
    have hne : cursor.val ≠ i.val := by
      rw [h.cursor_eq, Nat.mod_eq_of_lt (by omega)]
      omega
    simp only [Fin.getElem_fin]
    rw [Vector.getElem_set_ne _ _ hne]
    exact h.unused i (by omega)

/-- Pushing onto a list that is shorter than the window keeps everything. -/
theorem newest_eq_self {n : Nat} (h : pushed.length ≤ n) : newest n pushed = pushed := by
  simp [newest, Nat.sub_eq_zero_of_le h]

/-- The last pushes are in the window, as long as it can hold them. -/
theorem mem_newest_append {n : Nat} {first second : List α} {x : α} (hx : x ∈ second)
    (h : second.length ≤ n) : x ∈ newest n (first ++ second) := by
  rw [newest, List.length_append, List.drop_append]
  refine List.mem_append_right _ ?_
  rw [show first.length + second.length - n - first.length = 0 by omega]
  exact hx

/-- What was pushed only before the last `n` pushes has left the window. -/
theorem notMem_newest_append {n : Nat} {first second : List α} {x : α} (hx : x ∉ second)
    (h : n ≤ second.length) : x ∉ newest n (first ++ second) := by
  rw [newest, List.length_append, List.drop_append, List.drop_eq_nil_of_le (by omega)]
  exact fun hmem => hx (List.mem_of_mem_drop hmem)

/-- Pushing onto a full window drops its oldest element. -/
theorem newest_snoc {n : Nat} (h : n ≤ pushed.length) (hn : 0 < n) (x : α) :
    newest n (pushed ++ [x]) = (newest n pushed).tail ++ [x] := by
  unfold newest
  rw [List.length_append, List.length_singleton, List.tail_drop,
    List.drop_append_of_le_length (by omega)]
  congr 2
  omega

/-- The oldest element of a full window is the push made `n` pushes ago. -/
theorem head_newest {n : Nat} (hj : pushed.length - n < pushed.length) :
    newest n pushed = pushed[pushed.length - n] :: (newest n pushed).tail := by
  unfold newest
  rw [List.tail_drop]
  exact List.drop_eq_getElem_cons hj

/-- The window after one more push: the new element enters, and of a full
window the oldest element leaves. -/
theorem Holds.newest_push (h : Holds blank slots cursor pushed) (x : α) :
    (pushed.length < N ∧ slots[cursor] = blank ∧
      newest N (pushed ++ [x]) = newest N pushed ++ [x]) ∨
    ∃ rest, newest N pushed = slots[cursor] :: rest ∧
      newest N (pushed ++ [x]) = rest ++ [x] := by
  have hpos : 0 < N := Nat.pos_of_ne_zero (NeZero.ne N)
  rcases Nat.lt_or_ge pushed.length N with hshort | hfull
  · refine Or.inl ⟨hshort, h.oldest_of_lt hshort, ?_⟩
    rw [newest_eq_self hshort.le, newest_eq_self (by simpa using Nat.succ_le_of_lt hshort)]
  · obtain ⟨hj, hslot⟩ := h.oldest_of_le hfull
    refine Or.inr ⟨(newest N pushed).tail, ?_, newest_snoc hfull hpos x⟩
    rw [hslot]
    exact head_newest hj

/-- The newest elements are those of the last `n` positions. -/
theorem mem_newest_iff {n : Nat} {x : α} :
    x ∈ newest n pushed ↔ ∃ j, ∃ hj : j < pushed.length, pushed.length ≤ j + n ∧ pushed[j] = x := by
  unfold newest
  rw [List.mem_iff_getElem]
  constructor
  · rintro ⟨i, hi, rfl⟩
    rw [List.length_drop] at hi
    exact ⟨pushed.length - n + i, by omega, by omega, List.getElem_drop.symm⟩
  · rintro ⟨j, hj, hrecent, rfl⟩
    refine ⟨j - (pushed.length - n), by rw [List.length_drop]; omega, ?_⟩
    rw [List.getElem_drop]
    congr 1
    omega

theorem length_newest_le (n : Nat) (pushed : List α) : (newest n pushed).length ≤ n := by
  rw [newest, List.length_drop]
  omega

/-- Every slot that was used holds a push among the last `N`. -/
theorem Holds.slot_of_lt (h : Holds blank slots cursor pushed) {i : Fin N}
    (hi : i.val < pushed.length) :
    ∃ j, ∃ hj : j < pushed.length, pushed.length ≤ j + N ∧ Fin.ofNat N j = i ∧
      slots[i] = pushed[j] := by
  have hpos : 0 < N := Nat.pos_of_ne_zero (NeZero.ne N)
  have hmod := Nat.div_add_mod (pushed.length - 1 - i.val) N
  have hlt := Nat.mod_lt (pushed.length - 1 - i.val) hpos
  obtain ⟨j, hj⟩ : ∃ j, j = i.val + N * ((pushed.length - 1 - i.val) / N) := ⟨_, rfl⟩
  obtain rfl : Fin.ofNat N j = i := by
    apply Fin.ext
    rw [Fin.val_ofNat, hj, Nat.add_mul_mod_self_left, Nat.mod_eq_of_lt i.isLt]
  exact ⟨j, by omega, by omega, rfl, h.recent j (by omega) (by omega)⟩

/-- The slots hold the newest pushes and blanks. -/
theorem Holds.mem_newest_iff_slot (h : Holds blank slots cursor pushed) (hblank : blank ∉ pushed)
    {x : α} : x ∈ newest N pushed ↔ x ≠ blank ∧ ∃ i : Fin N, slots[i] = x := by
  constructor
  · intro hx
    refine ⟨fun heq => hblank (heq ▸ List.mem_of_mem_drop hx), ?_⟩
    obtain ⟨j, hj, hrecent, rfl⟩ := mem_newest_iff.mp hx
    exact ⟨Fin.ofNat N j, h.recent j hj hrecent⟩
  · rintro ⟨hx, i, rfl⟩
    have hi : i.val < pushed.length := Nat.lt_of_not_le fun hle => hx (h.unused i hle)
    obtain ⟨j, hj, hrecent, _, hslot⟩ := h.slot_of_lt hi
    exact mem_newest_iff.mpr ⟨j, hj, hrecent, hslot.symm⟩

/-- Slots that are not blank differ if the newest pushes do. -/
theorem Holds.slot_injective (h : Holds blank slots cursor pushed)
    (hnodup : (newest N pushed).Nodup) {i j : Fin N} (hi : slots[i] ≠ blank)
    (hij : slots[i] = slots[j]) : i = j := by
  have used {i : Fin N} (hi : slots[i] ≠ blank) : i.val < pushed.length :=
    Nat.lt_of_not_le fun hle => hi (h.unused i hle)
  obtain ⟨k, hk, hrecent, rfl, hslot⟩ := h.slot_of_lt (used hi)
  obtain ⟨l, hl, hrecent', rfl, hslot'⟩ := h.slot_of_lt (used (hij ▸ hi))
  have hsame : pushed[k] = pushed[l] := hslot.symm.trans (hij.trans hslot')
  have hnewest {k : Nat} (hk : k < pushed.length) (hrecent : pushed.length ≤ k + N) :
      (newest N pushed)[k - (pushed.length - N)]? = some pushed[k] := by
    rw [newest, List.getElem?_drop, Nat.add_sub_cancel' (by omega), List.getElem?_eq_getElem]
  have hlt : k - (pushed.length - N) < (newest N pushed).length := by
    rw [newest, List.length_drop]
    omega
  have hindex := (List.getElem?_inj hlt hnodup).mp
    ((hnewest hk hrecent).trans (hsame ▸ (hnewest hl hrecent').symm))
  congr 1
  omega

section Cache

variable [DecidableEq α] {cache : Finset α}

/-- Push the elements that were not pushed before. -/
def pushNew (pushed : List α) (xs : List α) : List α :=
  xs.foldl (fun acc x => if x ∈ acc then acc else acc ++ [x]) pushed

theorem pushNew_append (pushed first second : List α) :
    pushNew pushed (first ++ second) = pushNew (pushNew pushed first) second :=
  List.foldl_append

theorem mem_pushNew {xs : List α} {x : α} : x ∈ pushNew pushed xs ↔ x ∈ pushed ∨ x ∈ xs := by
  induction xs generalizing pushed with
  | nil => simp [pushNew]
  | cons y rest ih =>
      change x ∈ pushNew (if y ∈ pushed then pushed else pushed ++ [y]) rest ↔ _
      rw [ih, List.mem_cons]
      split
      next hy =>
        have hold : x = y → x ∈ pushed := fun heq => heq ▸ hy
        tauto
      next => rw [List.mem_append, List.mem_singleton, or_assoc]

theorem nodup_pushNew {xs : List α} (h : pushed.Nodup) : (pushNew pushed xs).Nodup := by
  induction xs generalizing pushed with
  | nil => exact h
  | cons y rest ih =>
      change (pushNew (if y ∈ pushed then pushed else pushed ++ [y]) rest).Nodup
      split
      next => exact ih h
      next hy => exact ih (by simpa using h.concat hy)

theorem pushNew_of_nodup {xs : List α} (h : (pushed ++ xs).Nodup) :
    pushNew pushed xs = pushed ++ xs := by
  induction xs generalizing pushed with
  | nil => simp [pushNew]
  | cons y rest ih =>
      have hy : y ∉ pushed := fun hmem => List.disjoint_of_nodup_append h hmem List.mem_cons_self
      change pushNew (if y ∈ pushed then pushed else pushed ++ [y]) rest = _
      rw [if_neg hy, ih (by simpa using h)]
      simp

theorem pushNew_of_subset {xs : List α} (h : ∀ x ∈ xs, x ∈ pushed) :
    pushNew pushed xs = pushed := by
  induction xs with
  | nil => rfl
  | cons y rest ih =>
      change pushNew (if y ∈ pushed then pushed else pushed ++ [y]) rest = _
      rw [if_pos (h y List.mem_cons_self)]
      exact ih fun x hx => h x (List.mem_cons_of_mem _ hx)

/-- Each element adds at most one push. -/
theorem pushNew_eq_append (pushed xs : List α) :
    ∃ added, pushNew pushed xs = pushed ++ added ∧ added.length ≤ xs.length := by
  induction xs generalizing pushed with
  | nil => exact ⟨[], by simp [pushNew], le_rfl⟩
  | cons y rest ih =>
      change ∃ added, pushNew (if y ∈ pushed then pushed else pushed ++ [y]) rest = _ ∧ _
      split
      next =>
        obtain ⟨added, heq, hle⟩ := ih pushed
        exact ⟨added, heq, hle.trans (Nat.le_succ _)⟩
      next =>
        obtain ⟨added, heq, hle⟩ := ih (pushed ++ [y])
        exact ⟨y :: added, by simpa using heq, Nat.succ_le_succ hle⟩

/-- The first occurrence of an element is pushed, so it is no farther from the end
than it is in the list. -/
theorem mem_newest_pushNew {n : Nat} {before after more : List α} {x : α} (hfirst : x ∉ before)
    (h : after.length + 1 + more.length ≤ n) :
    x ∈ newest n (pushNew [] (before ++ x :: after) ++ more) := by
  obtain ⟨added, heq, hle⟩ := pushNew_eq_append (pushNew [] before ++ [x]) after
  have hnew : x ∉ pushNew [] before := by simpa [mem_pushNew] using hfirst
  have hpushed : pushNew [] (before ++ x :: after) = pushNew [] before ++ (x :: added) := by
    rw [pushNew_append]
    change pushNew (if x ∈ pushNew [] before then pushNew [] before else _) after = _
    rw [if_neg hnew, heq, List.append_assoc, List.singleton_append]
  rw [hpushed, List.append_assoc]
  refine mem_newest_append List.mem_cons_self ?_
  rw [List.cons_append, List.length_cons, List.length_append]
  omega

/-- A cache of the newest pushes beside the ring that remembers their order. -/
structure Window (blank : α) (slots : Vector α N) (cursor : Fin N) (cache : Finset α)
    (pushed : List α) : Prop where
  ring : Holds blank slots cursor pushed
  cached : ∀ x ∈ newest N pushed, x ∈ cache
  nodup : (newest N pushed).Nodup

/-- The cache after the element under the cursor is evicted for a new one. -/
def evict (blank : α) (slots : Vector α N) (cursor : Fin N) (cache : Finset α) : Finset α :=
  if slots[cursor] ≠ blank then cache.erase slots[cursor] else cache

omit [NeZero N] in
theorem evict_subset : evict blank slots cursor cache ⊆ cache := by
  unfold evict
  split
  · exact Finset.erase_subset _ _
  · exact Finset.Subset.refl _

/-- A new element enters the window, and nothing else in it is evicted. -/
theorem Window.replace (h : Window blank slots cursor cache pushed) {x : α} (hx : x ∉ cache) :
    Window blank (slots.set cursor x) (cursor + 1)
      (insert x (evict blank slots cursor cache)) (pushed ++ [x]) := by
  have hnew : x ∉ newest N pushed := fun hmem => hx (h.cached x hmem)
  rcases h.ring.newest_push x with ⟨_, hblank, hsnoc⟩ | ⟨rest, hcons, hsnoc⟩
  · refine ⟨h.ring.push x, ?_, ?_⟩
    · intro y hy
      rw [hsnoc, List.mem_append, List.mem_singleton] at hy
      rw [Finset.mem_insert, evict, if_neg (not_not.mpr hblank)]
      exact hy.symm.imp_right (h.cached y)
    · rw [hsnoc]
      simpa using h.nodup.concat hnew
  · have hnodup := h.nodup
    rw [hcons] at hnodup hnew
    obtain ⟨hleaves, hrest⟩ := List.nodup_cons.mp hnodup
    refine ⟨h.ring.push x, ?_, ?_⟩
    · intro y hy
      rw [hsnoc, List.mem_append, List.mem_singleton] at hy
      rw [Finset.mem_insert]
      refine hy.symm.imp_right fun hmem => ?_
      have hcached := h.cached y (by rw [hcons]; exact List.mem_cons_of_mem _ hmem)
      unfold evict
      split
      · exact Finset.mem_erase.mpr ⟨fun heq => hleaves (heq ▸ hmem), hcached⟩
      · exact hcached
    · rw [hsnoc]
      simpa using hrest.concat fun hmem => hnew (List.mem_cons_of_mem _ hmem)

/-- A cache that holds nothing but the window stays so, as long as blanks are
never pushed. -/
theorem Window.replace_exact (h : Window blank slots cursor cache pushed)
    (hexact : cache ⊆ (newest N pushed).toFinset) (hblank : blank ∉ pushed) (x : α) :
    insert x (evict blank slots cursor cache) ⊆ (newest N (pushed ++ [x])).toFinset := by
  intro y hy
  rw [List.mem_toFinset]
  rcases Finset.mem_insert.mp hy with rfl | hkept
  · rcases h.ring.newest_push y with ⟨_, _, hsnoc⟩ | ⟨rest, _, hsnoc⟩ <;> rw [hsnoc] <;> simp
  · have hold := List.mem_toFinset.mp (hexact (evict_subset hkept))
    rcases h.ring.newest_push x with ⟨_, _, hsnoc⟩ | ⟨rest, hcons, hsnoc⟩
    · rw [hsnoc]
      exact List.mem_append_left _ hold
    · have hfilled : slots[cursor] ≠ blank := by
        intro heq
        apply hblank
        rw [← heq]
        exact List.mem_of_mem_drop (hcons ▸ List.mem_cons_self : slots[cursor] ∈ newest N pushed)
      rw [evict, if_pos hfilled] at hkept
      rw [hcons] at hold
      rw [hsnoc]
      exact List.mem_append_left _
        ((List.mem_cons.mp hold).resolve_left (Finset.mem_erase.mp hkept).1)

/-- A cache that holds nothing but the window mirrors the slots of the ring. -/
theorem Window.mem_cache_iff (h : Window blank slots cursor cache pushed)
    (hexact : cache ⊆ (newest N pushed).toFinset) (hblank : blank ∉ pushed) {x : α} :
    x ∈ cache ↔ x ≠ blank ∧ ∃ i : Fin N, slots[i] = x := by
  rw [← h.ring.mem_newest_iff_slot hblank]
  exact ⟨fun hx => List.mem_toFinset.mp (hexact hx), h.cached x⟩

end Cache

end RingBuffer
