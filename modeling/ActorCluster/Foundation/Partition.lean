import Mathlib.Algebra.Order.Ring.Int
import Mathlib.Data.List.Basic

/-! # Partitions in clustering order

One partition of a wide-column table: its rows are kept in the order of their
clustering key and no two rows share a key. Writing a row is an upsert, so it
replaces the row that carries the same key.
-/

namespace Partition

variable {Row K : Type} [LinearOrder K] (key : Row → K)

/-- Rows in strictly increasing key order. -/
abbrev Ordered (rows : List Row) : Prop := rows.Pairwise fun a b => key a < key b

/-- Insert a row at its place, replacing the row with the same key. -/
def insertRow (row : Row) : List Row → List Row
  | [] => [row]
  | head :: tail =>
      if key row < key head then row :: head :: tail
      else if key row = key head then row :: tail
      else head :: insertRow row tail

variable {key}

theorem mem_insertRow {row other : Row} {rows : List Row}
    (h : other ∈ insertRow key row rows) : other = row ∨ other ∈ rows := by
  induction rows with
  | nil => exact Or.inl (by simpa [insertRow] using h)
  | cons head tail ih =>
      unfold insertRow at h
      split at h
      next => simpa using h
      next =>
        split at h
        next =>
          rcases List.mem_cons.mp h with rfl | htail
          · exact Or.inl rfl
          · exact Or.inr (List.mem_cons_of_mem _ htail)
        next =>
          rcases List.mem_cons.mp h with rfl | htail
          · exact Or.inr List.mem_cons_self
          · exact (ih htail).imp_right (List.mem_cons_of_mem _)

theorem mem_insertRow_self (row : Row) (rows : List Row) : row ∈ insertRow key row rows := by
  induction rows with
  | nil => exact List.mem_singleton_self row
  | cons head tail ih =>
      unfold insertRow
      split
      next => exact List.mem_cons_self
      next =>
        split
        next => exact List.mem_cons_self
        next => exact List.mem_cons_of_mem head ih

/-- A change of rows that keeps their keys commutes with an upsert. -/
theorem map_insertRow {f : Row → Row} (hf : ∀ row, key (f row) = key row) (row : Row)
    (rows : List Row) :
    (insertRow key row rows).map f = insertRow key (f row) (rows.map f) := by
  induction rows with
  | nil => rfl
  | cons head tail ih =>
      simp only [insertRow, List.map_cons, hf]
      split
      · rfl
      · split
        · rfl
        · rw [List.map_cons, ih]

/-- An upsert keeps the clustering order. -/
theorem Ordered.insertRow {rows : List Row} (hrows : Ordered key rows) (row : Row) :
    Ordered key (insertRow key row rows) := by
  induction rows with
  | nil => exact List.pairwise_singleton _ _
  | cons head tail ih =>
      obtain ⟨hhead, htail⟩ := List.pairwise_cons.mp hrows
      unfold Partition.insertRow
      split
      next hlt =>
        refine List.pairwise_cons.mpr ⟨?_, hrows⟩
        intro other hother
        rcases List.mem_cons.mp hother with rfl | hmem
        · exact hlt
        · exact hlt.trans (hhead other hmem)
      next hnlt =>
        split
        next heq => exact List.pairwise_cons.mpr ⟨fun other h => heq ▸ hhead other h, htail⟩
        next hne =>
          refine List.pairwise_cons.mpr ⟨?_, ih htail⟩
          intro other hother
          rcases mem_insertRow hother with rfl | hmem
          · exact lt_of_le_of_ne (not_lt.mp hnlt) (Ne.symm hne)
          · exact hhead other hmem

/-- A row whose key exceeds every key of the partition is appended. -/
theorem insertRow_of_forall_lt {row : Row} {rows : List Row}
    (h : ∀ other ∈ rows, key other < key row) : insertRow key row rows = rows ++ [row] := by
  induction rows with
  | nil => rfl
  | cons head tail ih =>
      have hhead := h head List.mem_cons_self
      simp only [insertRow, if_neg hhead.not_gt, if_neg hhead.ne', List.cons_append,
        ih fun other hother => h other (List.mem_cons_of_mem _ hother)]

/-- A row with the key of the last row replaces it. -/
theorem insertRow_last {row last : Row} {rows : List Row}
    (h : ∀ other ∈ rows, key other < key row) (hlast : key row = key last) :
    insertRow key row (rows ++ [last]) = rows ++ [row] := by
  induction rows with
  | nil => simp [insertRow, hlast]
  | cons head tail ih =>
      have hhead := h head List.mem_cons_self
      simp only [List.cons_append, insertRow, if_neg hhead.not_gt, if_neg hhead.ne',
        ih fun other hother => h other (List.mem_cons_of_mem _ hother)]

/-- Rows of an ordered partition are determined by their key. -/
theorem Ordered.eq_of_key_eq {rows : List Row} (hrows : Ordered key rows) {a b : Row}
    (ha : a ∈ rows) (hb : b ∈ rows) (hkey : key a = key b) : a = b := by
  induction rows with
  | nil => simp at ha
  | cons head tail ih =>
      obtain ⟨hhead, htail⟩ := List.pairwise_cons.mp hrows
      rcases List.mem_cons.mp ha with rfl | ha' <;> rcases List.mem_cons.mp hb with rfl | hb'
      · rfl
      · exact absurd hkey (hhead b hb').ne
      · exact absurd hkey.symm (hhead a ha').ne
      · exact ih htail ha' hb'

section Contiguous

variable {key : Row → Int} {start : Int}

/-- The keys of the rows count upwards from `start + 1`. -/
def Contiguous (key : Row → Int) (start : Int) : List Row → Prop
  | [] => True
  | row :: rest => key row = start + 1 ∧ Contiguous key (start + 1) rest

theorem Contiguous.append_iff {first second : List Row} :
    Contiguous key start (first ++ second) ↔
      Contiguous key start first ∧ Contiguous key (start + first.length) second := by
  induction first generalizing start with
  | nil => simp [Contiguous]
  | cons row rest ih =>
      simp only [List.cons_append, Contiguous, ih, List.length_cons, and_assoc]
      rw [show start + 1 + rest.length = start + ((rest.length + 1 : Nat) : Int) by omega]

theorem Contiguous.key_bounds {rows : List Row} (h : Contiguous key start rows) {row : Row}
    (hrow : row ∈ rows) : start < key row ∧ key row ≤ start + rows.length := by
  induction rows generalizing start with
  | nil => simp at hrow
  | cons head tail ih =>
      simp only [List.length_cons, Nat.cast_add, Nat.cast_one]
      rcases List.mem_cons.mp hrow with rfl | htail
      · rw [h.1]
        omega
      · have hbounds := ih h.2 htail
        omega

/-- The row at a position carries the key of that position. -/
theorem Contiguous.key_get {rows : List Row} (h : Contiguous key start rows) {i : Nat} {row : Row}
    (hi : rows[i]? = some row) : key row = start + i + 1 := by
  induction rows generalizing start i with
  | nil => simp at hi
  | cons head tail ih =>
      cases i with
      | zero =>
          obtain rfl : head = row := by simpa using hi
          simpa using h.1
      | succ i =>
          rw [ih h.2 (by simpa using hi)]
          omega

/-- A query for the keys above the first `k` ones drops the first `k` rows. -/
theorem Contiguous.filter_after {rows : List Row} (h : Contiguous key start rows) (k : Nat) :
    rows.filter (fun row => start + k < key row) = rows.drop k := by
  induction rows generalizing start k with
  | nil => simp
  | cons head tail ih =>
      cases k with
      | zero =>
          refine List.filter_eq_self.mpr fun row hrow => ?_
          simpa using (h.key_bounds hrow).1
      | succ k =>
          have hdrop : ¬ start + ((k + 1 : Nat) : Int) < key head := by
            rw [h.1]
            omega
          simp only [List.filter_cons, hdrop, decide_false, Bool.false_eq_true, if_false,
            List.drop_succ_cons]
          rw [← ih h.2 k, Nat.cast_add_one, add_comm (k : Int) 1, ← add_assoc]

theorem Contiguous.mem_keys_iff {rows : List Row} (h : Contiguous key start rows) {v : Int}
    (hv : start < v) : (∃ row ∈ rows, key row = v) ↔ v ≤ start + rows.length := by
  induction rows generalizing start with
  | nil => simpa using hv
  | cons head tail ih =>
      simp only [List.exists_mem_cons_iff, List.length_cons, Nat.cast_add, Nat.cast_one, h.1]
      rcases Int.lt_or_eq_of_le (show start + 1 ≤ v from hv) with hlater | rfl
      · rw [ih h.2 hlater]
        omega
      · exact iff_of_true (.inl rfl) (by omega)

/-- Rows in key order whose keys are the next `count` ones count upwards. -/
theorem contiguous_of_keys {rows : List Row} (hordered : Ordered key rows)
    (hafter : ∀ row ∈ rows, start < key row) {count : Nat}
    (hkeys : ∀ v, start < v → ((∃ row ∈ rows, key row = v) ↔ v ≤ start + count)) :
    Contiguous key start rows ∧ rows.length = count := by
  induction rows generalizing start count with
  | nil =>
      have hnone := hkeys (start + 1) (by omega)
      simp only [List.not_mem_nil, false_and, exists_false, false_iff] at hnone
      exact ⟨trivial, by simp; omega⟩
  | cons head tail ih =>
      obtain ⟨hleast, htail⟩ := List.pairwise_cons.mp hordered
      have hhead := hafter head List.mem_cons_self
      have hbound := (hkeys (key head) hhead).mp ⟨head, List.mem_cons_self, rfl⟩
      -- the least key is the next one
      obtain ⟨first, hfirst, hnext⟩ := (hkeys (start + 1) (by omega)).mpr (by omega)
      have hkey : key head = start + 1 := by
        rcases List.mem_cons.mp hfirst with rfl | hmem
        · exact hnext
        · have hlt := hleast first hmem
          omega
      have hrest : ∀ v, start + 1 < v →
          ((∃ row ∈ tail, key row = v) ↔ v ≤ start + 1 + ((count - 1 : Nat) : Int)) := by
        intro v hv
        have hold := hkeys v (by omega)
        simp only [List.exists_mem_cons_iff, hkey] at hold
        rw [or_iff_right (by omega)] at hold
        rw [hold]
        omega
      obtain ⟨hcontiguous, hlength⟩ := ih htail
        (fun row hrow => hkey ▸ hleast row hrow) hrest
      exact ⟨⟨hkey, hcontiguous⟩, by rw [List.length_cons, hlength]; omega⟩

end Contiguous

end Partition
