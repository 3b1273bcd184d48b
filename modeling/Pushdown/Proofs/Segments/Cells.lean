-- SUMMARY: The cells that segments hold, and reading rows of them one after the other.
import Pushdown.Proofs.Outcome
import Pushdown.Proofs.Segments.Locating
import Pushdown.Segments.Walk

/-!
# Cells

A cell is what decoding a row gives: a value, or the failure that stands in its place. Segments hold a
list of parts, one list of cells for each segment, when their calls behave as a front-to-back reading of
those parts. The cells of the column are the parts joined.

`Cells.visit` is the walk that needs no segments: it reads rows by their number and stops at the first
cell without a value.
-/

namespace Pushdown

variable {δ α : Type}

abbrev Cells (α : Type) := List (Except Failure α)

namespace Cells

/-- The cell of a row. Past the last row it is the failure of asking for one there. -/
def cell (cells : Cells α) (row : Nat) : Except Failure α :=
  cells[row]?.getD (.error (.rowOutOfRange row cells.length))

def value? (cells : Cells α) (row : Nat) : Option α := (cells.cell row).toOption

def fault? (cells : Cells α) (row : Nat) : Option Failure :=
  match cells.cell row with
  | .error e => some e
  | .ok _ => none

/-- Whether the row has a value that passes the test. -/
def passes (cells : Cells α) (test : α → Bool) (row : Nat) : Bool := (cells.value? row).any test

/-- The values of the rows that have one. -/
def select (cells : Cells α) (rows : List Nat) : List α := rows.filterMap cells.value?

/-- The rows with their values up to the first row without one, and how it ended. -/
def visit (cells : Cells α) : List Nat → List (Nat × α) × Except Failure Unit
  | [] => ([], .ok ())
  | row :: rows =>
    match cells.cell row with
    | .error e => ([], .error e)
    | .ok value =>
      let rest := cells.visit rows
      ((row, value) :: rest.1, rest.2)

/-- The cells of values that are all there. -/
def ofValues (values : List α) : Cells α := values.map .ok

/-! ## Single cells -/

theorem cell_of_lt {cells : Cells α} {row : Nat} (h : row < cells.length) :
    cells.cell row = cells[row] := by
  simp [cell, h]

theorem cell_of_le {cells : Cells α} {row : Nat} (h : cells.length ≤ row) :
    cells.cell row = .error (.rowOutOfRange row cells.length) := by
  simp [cell, h]

/-- The cell at the front of what is left after some rows. -/
theorem cell_of_drop {cells rest : Cells α} {row : Nat} {c : Except Failure α}
    (h : cells.drop row = c :: rest) : cells.cell row = c := by
  have hc : cells[row]? = some c := by
    rw [← List.head?_drop, h]
    rfl
  simp [cell, hc]

theorem value?_of_ok {cells : Cells α} {row : Nat} {value : α} (h : cells.cell row = .ok value) :
    cells.value? row = some value := by
  rw [value?, h]
  rfl

theorem value?_of_error {cells : Cells α} {row : Nat} {e : Failure} (h : cells.cell row = .error e) :
    cells.value? row = none := by
  rw [value?, h]
  rfl

theorem fault?_of_ok {cells : Cells α} {row : Nat} {value : α} (h : cells.cell row = .ok value) :
    cells.fault? row = none := by
  rw [fault?, h]

theorem fault?_of_error {cells : Cells α} {row : Nat} {e : Failure} (h : cells.cell row = .error e) :
    cells.fault? row = some e := by
  rw [fault?, h]

theorem fault?_eq_some {cells : Cells α} {row : Nat} {e : Failure} :
    cells.fault? row = some e ↔ cells.cell row = .error e := by
  unfold fault?
  cases cells.cell row with
  | ok value => simp
  | error found => simp

@[simp] theorem length_ofValues (values : List α) : (ofValues values).length = values.length := by
  simp [ofValues]

@[simp] theorem value?_ofValues (values : List α) (row : Nat) :
    (ofValues values).value? row = values[row]? := by
  rcases Nat.lt_or_ge row values.length with h | h
  · rw [List.getElem?_eq_getElem h]
    exact value?_of_ok (by simp [cell, ofValues, h])
  · rw [List.getElem?_eq_none h]
    exact value?_of_error (cell_of_le (by simpa [ofValues] using h))

theorem select_ofValues (values : List α) (rows : List Nat) :
    (ofValues values).select rows = rows.filterMap (values[·]?) :=
  List.filterMap_congr fun row _ => value?_ofValues values row

theorem fault?_ofValues {values : List α} {row : Nat} (h : row < values.length) :
    (ofValues values).fault? row = none :=
  fault?_of_ok (show (ofValues values).cell row = .ok values[row] by simp [cell, ofValues, h])

/-! ## Visiting rows -/

theorem visit_append (cells : Cells α) (rows more : List Nat) :
    cells.visit (rows ++ more) =
      match (cells.visit rows).2 with
      | .error e => ((cells.visit rows).1, .error e)
      | .ok () => ((cells.visit rows).1 ++ (cells.visit more).1, (cells.visit more).2) := by
  induction rows with
  | nil => rfl
  | cons row rows ih =>
    simp only [List.cons_append, visit, ih]
    cases cells.cell row with
    | error e => rfl
    | ok value => cases (cells.visit rows).2 <;> rfl

theorem visit_ending (cells : Cells α) (rows : List Nat) :
    (cells.visit rows).2 = settle (rows.findSome? cells.fault?) () := by
  induction rows with
  | nil => rfl
  | cons row rows ih =>
    rw [visit, List.findSome?_cons]
    cases h : cells.cell row with
    | error e => simp [fault?_of_error h]
    | ok value => simp [fault?_of_ok h, ih]

/-- Where no row fails, every row is handed out with its value. -/
theorem visit_visited {cells : Cells α} {rows : List Nat} (h : rows.findSome? cells.fault? = none) :
    (cells.visit rows).1 = rows.filterMap fun row => (cells.value? row).map (row, ·) := by
  induction rows with
  | nil => rfl
  | cons row rows ih =>
    rw [List.findSome?_cons] at h
    cases hc : cells.cell row with
    | error e => simp [fault?_of_error hc] at h
    | ok value =>
      rw [fault?_of_ok hc] at h
      simp [visit, hc, ih h, value?_of_ok hc]

end Cells

/-! ## Segments that hold cells -/

/-- The segments hold the parts: there are as many, of the sizes of the parts, and a decoder reads its
    part from front to back. `ahead d rest` says that a decoder in the state `d` has `rest` before it. -/
structure Segments.Holds (segments : Segments δ α) (parts : List (Cells α))
    (ahead : δ → Cells α → Prop) : Prop where
  count : segments.count = parts.length
  size : ∀ {segment part}, parts[segment]? = some part → segments.size segment = .ok part.length
  decoder : ∀ {segment part}, parts[segment]? = some part →
    ∃ d, segments.decoder segment = .ok d ∧ ahead d part
  skip : ∀ {d rest n}, ahead d rest → n ≤ rest.length →
    ∃ d', segments.skip d n = (.ok (), d') ∧ ahead d' (rest.drop n)
  next : ∀ {d cell rest}, ahead d (cell :: rest) →
    ∃ d', segments.next d = (cell, d') ∧ ahead d' rest

/-- The segments serve the parts: they hold them, except that a segment may not open, and that a decoder may
    also fail where it has a cell before it. Such a failure is one of those permitted, and what the decoder
    does after it is left open. -/
structure Segments.Serves (segments : Segments δ α) (permitted : Failure → Prop) (parts : List (Cells α))
    (ahead : δ → Cells α → Prop) : Prop where
  count : segments.count = parts.length
  size : ∀ {segment part}, parts[segment]? = some part → segments.size segment = .ok part.length
  decoder : ∀ {segment part}, parts[segment]? = some part →
    (∃ d, segments.decoder segment = .ok d ∧ ahead d part) ∨
      ∃ e, segments.decoder segment = .error e ∧ permitted e
  skip : ∀ {d rest n}, ahead d rest → n ≤ rest.length →
    (∃ d', segments.skip d n = (.ok (), d') ∧ ahead d' (rest.drop n)) ∨
      ∃ e d', segments.skip d n = (.error e, d') ∧ permitted e
  next : ∀ {d cell rest}, ahead d (cell :: rest) →
    (∃ d', segments.next d = (cell, d') ∧ ahead d' rest) ∨
      ∃ e d', segments.next d = (.error e, d') ∧ permitted e

section

variable {segments : Segments δ α} {parts : List (Cells α)} {ahead : δ → Cells α → Prop}
  {permitted : Failure → Prop}

/-- Segments that hold the parts serve them without a failure of their own. -/
theorem Segments.Holds.serves (h : segments.Holds parts ahead) : segments.Serves permitted parts ahead where
  count := h.count
  size := h.size
  decoder hpart := .inl (h.decoder hpart)
  skip hahead hle := .inl (h.skip hahead hle)
  next hahead := .inl (h.next hahead)

/-- The sizes that the segments report are those of the parts. -/
theorem Segments.Serves.sized (h : segments.Serves permitted parts ahead) :
    segments.Sized (parts.map List.length) where
  count := by rw [h.count, List.length_map]
  size hsize := by
    obtain ⟨part, hpart, rfl⟩ := by simpa using hsize
    exact h.size hpart

end

namespace Walk

/-- The walk does what a visit of the rows does. -/
def Visits (w : Walk α) (cells : Cells α) (rows : List Nat) : Prop :=
  (w.visited, w.ending) = cells.visit rows

variable {w : Walk α} {cells : Cells α} {rows : List Nat}

theorem Visits.visited_eq (h : w.Visits cells rows) : w.visited = (cells.visit rows).1 :=
  congrArg Prod.fst h

theorem Visits.ending_eq (h : w.Visits cells rows) :
    w.ending = settle (rows.findSome? cells.fault?) () :=
  (congrArg Prod.snd h).trans (cells.visit_ending rows)

theorem visits_ofCalls (cells : Cells α) (calls : List Access) :
    (ofCalls calls (.ok ()) : Walk α).Visits cells [] := rfl

theorem Visits.andThen {rest : Unit → Walk α} {more : List Nat} (h : w.Visits cells rows)
    (hrest : (rest ()).Visits cells more) : (w.andThen rest).Visits cells (rows ++ more) := by
  have hvisited := h.visited_eq
  have hending : w.ending = (cells.visit rows).2 := congrArg Prod.snd h
  unfold Visits
  rw [Cells.visit_append, ← hvisited, ← hending]
  unfold Walk.andThen
  cases he : w.ending with
  | error e => simp [he]
  | ok u =>
    have hmore : (rest ()).ending = (cells.visit more).2 := congrArg Prod.snd hrest
    simp [hrest.visited_eq, hmore]

/-- The walk does what a visit of the rows does, unless it ends with a permitted failure. -/
def VisitsUnless (w : Walk α) (permitted : Failure → Prop) (cells : Cells α) (rows : List Nat) : Prop :=
  w.Visits cells rows ∨ ∃ e, w.ending = .error e ∧ permitted e

variable {permitted : Failure → Prop}

theorem VisitsUnless.visits (h : w.VisitsUnless (fun _ => False) cells rows) : w.Visits cells rows := by
  simpa [VisitsUnless] using h

theorem visitsUnless_of_permitted (cells : Cells α) (rows : List Nat) (calls : List Access) {e : Failure}
    (he : permitted e) : (ofCalls calls (.error e)).VisitsUnless permitted cells rows :=
  .inr ⟨e, rfl, he⟩

/-- A walk that ends at a row without a value visits any rows from there on. -/
theorem visitsUnless_of_fault {row : Nat} {e : Failure} (hcell : cells.cell row = .error e)
    (calls : List Access) (rows : List Nat) :
    (ofCalls calls (.error e)).VisitsUnless permitted cells (row :: rows) := by
  apply Or.inl
  simp [Visits, Cells.visit, hcell, ofCalls]

theorem VisitsUnless.cons (h : w.VisitsUnless permitted cells rows) {row : Nat} {value : α}
    (hcell : cells.cell row = .ok value) (calls : List Access) :
    (⟨(row, value) :: w.visited, calls, w.ending⟩ : Walk α).VisitsUnless permitted cells (row :: rows) := by
  rcases h with hvisits | hfails
  · apply Or.inl
    simp [Visits, Cells.visit, hcell, ← (show (w.visited, w.ending) = cells.visit rows from hvisits)]
  · exact .inr hfails

theorem VisitsUnless.andThen {rest : Unit → Walk α} {more : List Nat}
    (h : w.VisitsUnless permitted cells rows) (hrest : (rest ()).VisitsUnless permitted cells more) :
    (w.andThen rest).VisitsUnless permitted cells (rows ++ more) := by
  rcases h with hvisits | ⟨e, hending, he⟩
  · rcases hrest with hrest | ⟨e, hending, he⟩
    · exact .inl (hvisits.andThen hrest)
    · cases hfirst : w.ending with
      -- the first walk fails already, and then so does the visit of its rows
      | error e' =>
        apply Or.inl
        have hvisit : (cells.visit rows).2 = .error e' := by rw [← congrArg Prod.snd hvisits, hfirst]
        simp [Visits, Cells.visit_append, hvisit, Walk.andThen, hfirst, hvisits.visited_eq]
      | ok => exact .inr ⟨e, by simp [Walk.andThen, hfirst, hending], he⟩
  · exact .inr ⟨e, by simp [Walk.andThen, hending], he⟩

/-- The values that a visit hands out are those of its rows, unless one of them has none. -/
theorem Visits.values_eq (h : w.Visits cells rows) :
    w.values = settle (rows.findSome? cells.fault?) (cells.select rows) := by
  unfold values
  rw [h.ending_eq, h.visited_eq, map_settle]
  cases hf : rows.findSome? cells.fault? with
  | some e => rfl
  | none =>
    rw [Cells.visit_visited hf, List.map_filterMap]
    simp [Cells.select, Function.comp_def]

/-- The rows that a visit keeps are those that pass the test, unless one of them has no value. -/
theorem Visits.keep_eq (h : w.Visits cells rows) (test : α → Bool) :
    w.keep test =
      settle (rows.findSome? cells.fault?) (.ofAscending (rows.filter (cells.passes test))) := by
  unfold keep
  rw [h.ending_eq, h.visited_eq, map_settle]
  cases hf : rows.findSome? cells.fault? with
  | some e => rfl
  | none =>
    rw [Cells.visit_visited hf]
    congr 2
    clear h hf
    induction rows with
    | nil => rfl
    | cons row rows ih =>
      cases hv : cells.value? row with
      | none => simp [Cells.passes, hv, ih]
      | some value => cases ht : test value <;> simp [Cells.passes, hv, ht, ih]

end Walk

end Pushdown
