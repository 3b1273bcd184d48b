-- SUMMARY: Inclusion of candidate sets is inclusion of the rows that they contain, and it is an order.
import Pushdown.Proofs.Candidates

/-!
# Inclusion

A set is made from strictly ascending rows and refused for any others. One that was made stands for the rows it
was made from, and the unbounded one for every row. Asking a set for a row and comparing two sets are then
questions about the sets of rows that they stand for. No list has every row in it, and ascending lists of the same
rows are the same, so a set of rows is stood for in one form only: hence sets that include each other are equal.
-/

namespace Pushdown.Candidates

variable {rows : List Nat} {row previous : Nat}

/-! ## Making a set -/

/-- The neighbours `previous` and `row` are the first ones that do not ascend. -/
def FirstDescent (rows : List Nat) (previous row : Nat) : Prop :=
  ∃ before after, rows = before ++ previous :: row :: after ∧ (before ++ [previous]).IsChain (· < ·) ∧
    row ≤ previous

section

variable {first second : Nat} {rest : List Nat}

theorem firstDescent_of_le (h : second ≤ first) :
    FirstDescent (first :: second :: rest) previous row ↔ first = previous ∧ second = row := by
  constructor
  · rintro ⟨before, after, hrows, hascend, -⟩
    match before with
    | [] =>
      obtain ⟨hprevious, htail⟩ := List.cons.inj hrows
      exact ⟨hprevious, (List.cons.inj htail).1⟩
    | [_] | _ :: _ :: _ =>
      -- a later descent would have `first` and `second` ascend before it
      cases hrows
      exact absurd h (Nat.not_le.mpr hascend.rel)
  · rintro ⟨rfl, rfl⟩
    exact ⟨[], rest, rfl, .singleton _, h⟩

theorem firstDescent_of_lt (h : first < second) :
    FirstDescent (first :: second :: rest) previous row ↔ FirstDescent (second :: rest) previous row := by
  constructor
  · rintro ⟨before, after, hrows, hascend, hle⟩
    match before with
    | [] =>
      cases hrows
      exact absurd hle (Nat.not_le.mpr h)
    | _ :: before => exact ⟨before, after, (List.cons.inj hrows).2, hascend.tail, hle⟩
  · rintro ⟨before, after, hrows, hascend, hle⟩
    refine ⟨first :: before, after, congrArg _ hrows, ?_, hle⟩
    match before with
    | [] | _ :: _ =>
      cases hrows
      exact hascend.cons_cons h

end

theorem firstDescent?_eq_some :
    firstDescent? rows = some (row, previous) ↔ FirstDescent rows previous row := by
  fun_induction firstDescent? rows with
  | case1 first second rest hdescent =>
    rw [firstDescent_of_le hdescent]
    simp [and_comm]
  | case2 first second rest hascent ih => rw [ih, firstDescent_of_lt (Nat.lt_of_not_le hascent)]
  | case3 rows hshort =>
    refine ⟨nofun, ?_⟩
    rintro ⟨before, after, rfl, -⟩
    match before with
    | [] | [_] | _ :: _ :: _ => exact (hshort _ _ _ rfl).elim

theorem firstDescent?_eq_none : firstDescent? rows = none ↔ rows.Pairwise (· < ·) := by
  rw [← List.isChain_iff_pairwise]
  fun_induction firstDescent? rows with
  | case1 first second rest hdescent => simp [hdescent]
  | case2 first second rest hascent ih => simp [ih, Nat.lt_of_not_le hascent]
  | case3 rows hshort =>
    match rows with
    | [] | [_] => simp
    | _ :: _ :: _ => exact (hshort _ _ _ rfl).elim

theorem ofRows_eq_ok {c : Candidates} : ofRows rows = .ok c ↔ rows.Pairwise (· < ·) ∧ ofAscending rows = c := by
  rw [← firstDescent?_eq_none, ofRows]
  cases firstDescent? rows <;> simp

theorem ofRows_eq_error {e : Failure} :
    ofRows rows = .error e ↔
      ∃ previous row, FirstDescent rows previous row ∧ e = .candidateOrder row previous := by
  simp only [← firstDescent?_eq_some, ofRows]
  cases firstDescent? rows with
  | none => simp
  | some descent =>
    obtain ⟨row, previous⟩ := descent
    simp [eq_comm]

/-! ## The rows that a set stands for -/

/-- The set was made from the rows, or it is the one that has every row. -/
inductive StandsFor : Candidates → Set Nat → Prop
  | every : StandsFor .unbounded Set.univ
  | listed {rows : List Nat} {c : Candidates} (h : ofRows rows = .ok c) : StandsFor c {row | row ∈ rows}

/-- No list has every row in it. -/
theorem setOf_mem_ne_univ (rows : List Nat) : {row | row ∈ rows} ≠ Set.univ :=
  fun h => Set.infinite_univ (h ▸ List.finite_toSet rows)

theorem unbounded_subsetOf_ofAscending (rows : List Nat) : unbounded.subsetOf (ofAscending rows) = false := by
  cases rows <;> rfl

namespace StandsFor

variable {a b : Candidates} {s t : Set Nat}

theorem contains_iff (h : a.StandsFor s) : a.contains row = true ↔ row ∈ s := by
  cases h with
  | every => exact iff_of_true rfl trivial
  | listed h =>
    obtain ⟨hrows, rfl⟩ := ofRows_eq_ok.mp h
    exact contains_ofAscending hrows

theorem subsetOf_iff (ha : a.StandsFor s) (hb : b.StandsFor t) : a.subsetOf b = true ↔ s ⊆ t := by
  cases ha with
  | every =>
    cases hb with
    | every => exact iff_of_true rfl (Set.Subset.refl _)
    | @listed others _ h =>
      -- neither side holds, as there is always a row that is not listed
      obtain ⟨-, rfl⟩ := ofRows_eq_ok.mp h
      rw [unbounded_subsetOf_ofAscending, Set.univ_subset_iff]
      exact iff_of_false nofun (setOf_mem_ne_univ others)
  | listed h =>
    obtain ⟨-, rfl⟩ := ofRows_eq_ok.mp h
    simp only [subsetOf_ofAscending, hb.contains_iff]
    rfl

/-- Sets that stand for the same rows have the same form. -/
theorem eq_of_same (ha : a.StandsFor s) (hb : b.StandsFor t) (h : s = t) : a = b := by
  cases ha with
  | every =>
    cases hb with
    | every => rfl
    | @listed others => exact absurd h.symm (setOf_mem_ne_univ others)
  | @listed rows _ ha =>
    cases hb with
    | every => exact absurd h (setOf_mem_ne_univ rows)
    | listed hb =>
      obtain ⟨hrows, rfl⟩ := ofRows_eq_ok.mp ha
      obtain ⟨hothers, rfl⟩ := ofRows_eq_ok.mp hb
      rw [hrows.sortedLT.eq_of_mem_iff hothers.sortedLT (Set.ext_iff.mp h)]

/-- A set whose rows are rows of a column has as many of them as the column has rows that it contains. -/
theorem count_eq (h : a.StandsFor s) {total : Nat}
    (hlt : ∀ rows, a.rows? = some rows → ∀ row ∈ rows, row < total) :
    a.count total = Nat.count (fun row => a.contains row = true) total := by
  cases h with
  | every => exact (Nat.count_of_forall fun _ _ => rfl).symm
  | @listed rows _ h =>
    obtain ⟨hrows, rfl⟩ := ofRows_eq_ok.mp h
    have hkept : {row ∈ Finset.range total | (ofAscending rows).contains row = true} = rows.toFinset := by
      ext row
      simpa [contains_ofAscending hrows] using hlt rows (rows?_ofAscending rows) row
    rw [Nat.count_eq_card_filter_range, hkept, List.toFinset_card_of_nodup hrows.nodup, count_eq_length,
      listed_ofAscending]

end StandsFor

/-- Rows make a set if they ascend, and else the first neighbours that do not are reported. A set is asked for a
    row, included in another, and counted as the rows are that it stands for, and inclusion is an order on the
    sets. -/
theorem inclusion_is_order {a b c : Candidates} {s t u : Set Nat} (ha : a.StandsFor s) (hb : b.StandsFor t)
    (hc : c.StandsFor u) :
    (∀ rows, ((∃ made, ofRows rows = .ok made) ↔ rows.Pairwise (· < ·)) ∧
        ∀ e, ofRows rows = .error e ↔
          ∃ previous row, FirstDescent rows previous row ∧ e = .candidateOrder row previous) ∧
      (∀ row, a.contains row = true ↔ row ∈ s) ∧
      (a.subsetOf b = true ↔ ∀ row, a.contains row = true → b.contains row = true) ∧
      a.subsetOf a = true ∧
      (a.subsetOf b = true → b.subsetOf c = true → a.subsetOf c = true) ∧
      (a.subsetOf b = true → b.subsetOf a = true → a = b) ∧
      ∀ total, (∀ rows, a.rows? = some rows → ∀ row ∈ rows, row < total) →
        a.count total = Nat.count (fun row => a.contains row = true) total := by
  refine ⟨fun rows => ⟨?_, fun e => ofRows_eq_error⟩, fun row => ha.contains_iff, ?_, ?_, ?_, ?_,
    fun total => ha.count_eq⟩
  · simp only [ofRows_eq_ok, exists_and_left, exists_eq', and_true]
  · simp only [ha.subsetOf_iff hb, ha.contains_iff, hb.contains_iff]
    rfl
  · exact (ha.subsetOf_iff ha).mpr (Set.Subset.refl s)
  · rw [ha.subsetOf_iff hb, hb.subsetOf_iff hc, ha.subsetOf_iff hc]
    exact Set.Subset.trans
  · rw [ha.subsetOf_iff hb, hb.subsetOf_iff ha]
    exact fun hab hba => ha.eq_of_same hb (hab.antisymm hba)

/-- Two of three rows, and rows that descend twice. -/
theorem inclusion_is_order_of_two_rows :
    let two := bounded [1, 4]
    let three := bounded [1, 3, 4]
    two.StandsFor {row | row ∈ [1, 4]} ∧ three.StandsFor {row | row ∈ [1, 3, 4]} ∧
      ofRows [1, 5, 3, 3] = .error (.candidateOrder 3 5) ∧
      (two.contains 4 = true ∧ two.contains 3 = false) ∧
      (two.subsetOf three = true ∧ three.subsetOf two = false) ∧
      two.subsetOf .unbounded = true ∧
      Nat.count (fun row => two.contains row = true) 6 = 2 := by
  intro two three
  have htwo : two.StandsFor {row | row ∈ [1, 4]} := .listed rfl
  have hthree : three.StandsFor {row | row ∈ [1, 3, 4]} := .listed rfl
  obtain ⟨hrows, hcontains, hsubset, -, htrans, hantisymm, hcount⟩ := inclusion_is_order htwo hthree .every
  have hincluded : two.subsetOf three = true := hsubset.mpr fun row hrow => by
    have hlisted : row = 1 ∨ row = 4 := by simpa using (hcontains row).mp hrow
    rw [hthree.contains_iff]
    rcases hlisted with rfl | rfl <;> simp
  refine ⟨htwo, hthree, ((hrows [1, 5, 3, 3]).2 _).mpr ?_, ⟨(hcontains 4).mpr (by simp), ?_⟩,
    ⟨hincluded, ?_⟩, htrans hincluded rfl, ?_⟩
  · exact ⟨5, 3, ⟨[1], [3], rfl, by simp, by decide⟩, rfl⟩
  · exact Bool.eq_false_iff.mpr fun h => absurd ((hcontains 3).mp h) (by simp)
  · exact Bool.eq_false_iff.mpr fun h => absurd (hantisymm hincluded h) (by simp [two, three])
  · refine (hcount 6 fun rows hrows => ?_).symm
    cases hrows
    decide

end Pushdown.Candidates
