-- SUMMARY: The rows that a candidate set lists.
import Mathlib
import Pushdown.Candidates

/-!
# Listed candidates

In a column with a known number of rows every candidate set is a list of rows. The sets that stages make
list strictly ascending rows of the column; a set made from such a list lists it again, whichever of the
two forms it takes.
-/

namespace Pushdown.Candidates

/-- The candidate rows of a column with `n` rows, in the order in which a walk comes to them. -/
def listed (n : Nat) : Candidates → List Nat
  | .unbounded => List.range n
  | .empty => []
  | .bounded rows => rows

/-- Listed rows come in strictly ascending order. -/
def Ascending : Candidates → Prop
  | .bounded rows => rows.Pairwise (· < ·)
  | _ => True

/-- The set lists rows of a column with `n` rows, in ascending order. -/
structure Within (n : Nat) (candidates : Candidates) : Prop where
  ascending : candidates.Ascending
  lt : ∀ row ∈ candidates.listed n, row < n

theorem within_unbounded (n : Nat) : Within n .unbounded where
  ascending := trivial
  lt _ h := List.mem_range.mp h

theorem within_empty (n : Nat) : Within n .empty where
  ascending := trivial
  lt _ := nofun

/-! ## Sets made from ascending rows -/

@[simp] theorem listed_ofAscending (n : Nat) (rows : List Nat) : (ofAscending rows).listed n = rows := by
  cases rows <;> rfl

theorem rows?_ofAscending (rows : List Nat) : (ofAscending rows).rows? = some rows := by
  cases rows <;> rfl

theorem isEmpty_ofAscending (rows : List Nat) : (ofAscending rows).isEmpty = rows.isEmpty := by
  cases rows <;> rfl

theorem eq_empty_of_isEmpty {candidates : Candidates} (h : candidates.isEmpty = true) :
    candidates = .empty := by
  cases candidates with
  | empty => rfl
  | unbounded => cases h
  | bounded rows => cases h

theorem count_eq_length (n : Nat) (candidates : Candidates) :
    candidates.count n = (candidates.listed n).length := by
  cases candidates with
  | unbounded => simp [count, listed]
  | empty => rfl
  | bounded rows => rfl

theorem Ascending.listed {candidates : Candidates} (h : candidates.Ascending) (n : Nat) :
    (candidates.listed n).Pairwise (· < ·) := by
  cases candidates with
  | unbounded => exact List.pairwise_lt_range
  | empty => exact .nil
  | bounded rows => exact h

/-- Some of the rows of a set make a set of rows of the column again. -/
theorem Within.sublist {n : Nat} {candidates : Candidates} (h : candidates.Within n) {rows : List Nat}
    (hrows : rows.Sublist (candidates.listed n)) : (ofAscending rows).Within n where
  ascending := by
    have hascend := (h.ascending.listed n).sublist hrows
    cases rows with
    | nil => trivial
    | cons row rows => exact hascend
  lt row hrow := by
    rw [listed_ofAscending] at hrow
    exact h.lt row (hrows.subset hrow)

theorem Within.filter {n : Nat} {candidates : Candidates} (h : candidates.Within n)
    (test : Nat → Bool) : (ofAscending ((candidates.listed n).filter test)).Within n :=
  h.sublist List.filter_sublist

/-! ## Searching listed rows -/

section

variable {rows : List Nat} {row base size : Nat}

/-- A search that finds a row finds one of the listed rows, in whatever order they are. -/
theorem mem_of_bisect {rows : Array Nat} (h : bisect rows row base size = true) : row ∈ rows := by
  fun_induction bisect rows row base size with
  | case1 base size hsize => exact Array.mem_of_getElem? (beq_iff_eq.mp h)
  | case2 base size hsize middle base' ih => exact ih h

/-- A search among ascending rows finds the row if its position is among those that are searched. -/
theorem bisect_of_getElem (hrows : rows.SortedLT) (hsize : base + size ≤ rows.length) {position : Nat}
    (hposition : position < rows.length) (hfrom : base ≤ position) (hto : position < base + size) :
    bisect rows.toArray rows[position] base size = true := by
  fun_induction bisect rows.toArray rows[position] base size with
  | case1 base size hone =>
    obtain rfl : base = position := by omega
    simp [hposition]
  | case2 base size hmany middle base' ih =>
    have hmiddle : middle < rows.length := by omega
    have hlater : rows[position] < rows[middle] ↔ position < middle := hrows.getElem_lt_getElem_iff
    -- the half that is kept is the one with the position in it, since the rows ascend
    have hbase : base' = if position < middle then base else middle := by
      simp [base', hmiddle, hlater]
    by_cases hbefore : position < middle
    · rw [if_pos hbefore] at hbase
      exact ih (by omega) (by omega) (by omega)
    · rw [if_neg hbefore] at hbase
      exact ih (by omega) (by omega) (by omega)

/-- Ascending rows contain exactly those that are listed. -/
theorem contains_bounded (hrows : rows.Pairwise (· < ·)) :
    (bounded rows).contains row = true ↔ row ∈ rows := by
  constructor
  · intro h
    simpa using mem_of_bisect h
  · intro h
    obtain ⟨position, hposition, rfl⟩ := List.mem_iff_getElem.mp h
    have hend : 0 + rows.length ≤ rows.length := (Nat.zero_add _).le
    exact bisect_of_getElem hrows.sortedLT hend hposition (Nat.zero_le _) (hposition.trans_eq (Nat.zero_add _).symm)

theorem contains_ofAscending (hrows : rows.Pairwise (· < ·)) :
    (ofAscending rows).contains row = true ↔ row ∈ rows := by
  cases rows with
  | nil => simp [ofAscending, contains]
  | cons first rows => exact contains_bounded hrows

/-- A listed set is included in those that contain what it lists. -/
theorem subsetOf_ofAscending {c : Candidates} :
    (ofAscending rows).subsetOf c = true ↔ ∀ row ∈ rows, c.contains row = true := by
  cases rows with
  | nil => cases c <;> simp [ofAscending, subsetOf]
  | cons first rows =>
    cases c with
    | unbounded => exact iff_of_true rfl fun _ _ => rfl
    | empty => exact iff_of_false nofun fun h => nomatch h first List.mem_cons_self
    | bounded others => exact List.all_eq_true

end

/-! ## Narrowing a set -/

/-- The one form of a set once a filter has run: without rows it is `empty`, and else it lists them in
    strictly ascending order. -/
def Canonical : Candidates → Prop
  | .unbounded => False
  | .empty => True
  | .bounded rows => rows ≠ [] ∧ rows.Pairwise (· < ·)

/-- The set is a part of another, in its one form. -/
structure Narrows (narrowed incoming : Candidates) : Prop where
  canonical : narrowed.Canonical
  subset : narrowed.subsetOf incoming = true
  contains : ∀ rows, narrowed.rows? = some rows → ∀ row ∈ rows, incoming.contains row = true

theorem narrows_empty (incoming : Candidates) : empty.Narrows incoming where
  canonical := trivial
  subset := by cases incoming <;> rfl
  contains rows hrows := by
    cases hrows
    exact nofun

theorem canonical_ofAscending {kept : List Nat} (hkept : kept.Pairwise (· < ·)) :
    (ofAscending kept).Canonical := by
  cases kept with
  | nil => trivial
  | cons row kept => exact ⟨List.cons_ne_nil _ _, hkept⟩

theorem narrows_ofAscending {kept : List Nat} {incoming : Candidates} (hkept : kept.Pairwise (· < ·))
    (hcontains : ∀ row ∈ kept, incoming.contains row = true) : (ofAscending kept).Narrows incoming where
  canonical := canonical_ofAscending hkept
  subset := subsetOf_ofAscending.mpr hcontains
  contains rows hrows := by
    rw [rows?_ofAscending] at hrows
    exact Option.some.inj hrows ▸ hcontains

end Pushdown.Candidates
