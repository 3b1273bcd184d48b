-- SUMMARY: A table without its store, the answer to a query read off it, and the cells met on the way.
import Pushdown.Answer
import Pushdown.Proofs.Content

/-!
# Sheets

A `Sheet` is a table with all of its columns joined, and nothing left of the way in which they are stored.
The answer to a query is read off it: the rows that satisfy every predicate, found without going from
one candidate set to the next, and the values of the projected columns in them.

A scan comes to cells in a certain order, which `met` lists, and it fails at the first of them without a
value. Which cells these are depends on the rows that survive, so the list is read off the sheet as well.
-/

namespace Pushdown

structure Sheet where
  rows : Nat
  /-- What the column at a position holds. Positions without a column that can be scanned do not count. -/
  content : Nat → Content

namespace Sheet

variable (sheet : Sheet)

/-! ## The answer -/

def satisfies (predicate : Predicate) (row : Nat) : Bool :=
  (sheet.content predicate.column).satisfies predicate row

/-- The rows that satisfy all of the predicates. -/
def survivors (predicates : List Predicate) : List Nat :=
  (List.range sheet.rows).filter fun row => predicates.all (sheet.satisfies · row)

/-- The survivors as candidates. Rows are only listed once there is a predicate. -/
def candidates (predicates : List Predicate) : Candidates :=
  if predicates.isEmpty then .unbounded else .ofAscending (sheet.survivors predicates)

/-- What the condition at a position did: it left the rows that satisfy the predicates up to its own,
    and it was skipped if those before it had left none. -/
def narrowing (predicates : List Predicate) (condition : Condition) (position : Nat) : Narrowing where
  condition := condition
  candidates := (sheet.survivors (predicates.take (position + 1))).length
  skipped := decide (0 < position) && (sheet.survivors (predicates.take position)).isEmpty

/-- The answer to a query whose conditions stand for the predicates. -/
def answer (query : Query) (predicates : List Predicate) (form : DictionaryForm) : Answer where
  columns := query.projections.map fun column =>
    { column, values := (sheet.content column).valuesAt form (sheet.survivors predicates) }
  candidates := sheet.candidates predicates
  narrowings := query.conditions.zipIdx.map fun (condition, position) =>
    sheet.narrowing predicates condition position
  rows := (sheet.survivors predicates).length

/-! ## The cells that are decoded for it -/

/-- A cell by its column and its row. -/
structure Place where
  column : Nat
  row : Nat
deriving DecidableEq, Repr

def fault? (place : Place) : Option Failure := (sheet.content place.column).fault? place.row

/-- The cells that the predicate at a position is tested on: those of its column in the rows that
    satisfy the predicates before it. -/
def tested (predicates : List Predicate) (predicate : Predicate) (position : Nat) : List Place :=
  (sheet.survivors (predicates.take position)).map fun row => ⟨predicate.column, row⟩

/-- The cells of a projected column in the rows that satisfy all predicates. -/
def projected (predicates : List Predicate) (column : Nat) : List Place :=
  (sheet.survivors predicates).map fun row => ⟨column, row⟩

/-- The cells that a scan comes to, in the order in which it does. -/
def met (query : Query) (predicates : List Predicate) : List Place :=
  (predicates.zipIdx.flatMap fun (predicate, position) =>
      sheet.tested predicates predicate position) ++
    query.projections.flatMap fun column => sheet.projected predicates column

/-- The first fault that a scan comes to. -/
def firstFault? (query : Query) (predicates : List Predicate) : Option Failure :=
  (sheet.met query predicates).findSome? sheet.fault?

/-! ## Survivors as candidates -/

variable {sheet} {predicates : List Predicate}

@[simp] theorem survivors_nil : sheet.survivors [] = List.range sheet.rows := by
  simp [survivors]

/-- One more predicate keeps those of the survivors that satisfy it. -/
theorem survivors_concat (predicates : List Predicate) (predicate : Predicate) :
    sheet.survivors (predicates ++ [predicate]) =
      (sheet.survivors predicates).filter (sheet.satisfies predicate) := by
  rw [survivors, survivors, List.filter_filter]
  exact List.filter_congr fun row _ => by simp [Bool.and_comm]

@[simp] theorem candidates_nil : sheet.candidates [] = .unbounded := rfl

@[simp] theorem candidates_concat (predicates : List Predicate) (predicate : Predicate) :
    sheet.candidates (predicates ++ [predicate]) =
      .ofAscending (sheet.survivors (predicates ++ [predicate])) := by
  simp [candidates]

@[simp] theorem listed_candidates (predicates : List Predicate) :
    (sheet.candidates predicates).listed sheet.rows = sheet.survivors predicates := by
  cases predicates with
  | nil => exact survivors_nil.symm
  | cons predicate predicates => exact Candidates.listed_ofAscending _ _

/-- The candidates are rows of the sheet. -/
theorem candidates_within (predicates : List Predicate) :
    (sheet.candidates predicates).Within sheet.rows := by
  cases predicates with
  | nil => exact Candidates.within_unbounded _
  | cons predicate predicates => exact (Candidates.within_unbounded sheet.rows).filter _

/-- A set of candidates without a row is only known for one once there is a predicate. -/
theorem isEmpty_candidates (predicates : List Predicate) :
    (sheet.candidates predicates).isEmpty =
      (decide (0 < predicates.length) && (sheet.survivors predicates).isEmpty) := by
  cases predicates with
  | nil => rfl
  | cons predicate predicates => exact Candidates.isEmpty_ofAscending _

/-! ## Where the cells lie -/

theorem lt_of_mem_survivors {row : Nat} (h : row ∈ sheet.survivors predicates) : row < sheet.rows :=
  List.mem_range.mp (List.mem_filter.mp h).1

/-- The cells that are met lie in the columns of the predicates and in the projected ones. -/
theorem place_of_mem_met {query : Query} {place : Place} (h : place ∈ sheet.met query predicates) :
    place.row < sheet.rows ∧
      ((∃ predicate ∈ predicates, predicate.column = place.column) ∨
        place.column ∈ query.projections) := by
  rcases List.mem_append.mp h with h | h
  · obtain ⟨⟨predicate, position⟩, hpredicate, hplace⟩ := List.mem_flatMap.mp h
    obtain ⟨row, hrow, rfl⟩ := List.mem_map.mp hplace
    exact ⟨lt_of_mem_survivors hrow, .inl ⟨predicate, List.fst_mem_of_mem_zipIdx hpredicate, rfl⟩⟩
  · obtain ⟨column, hcolumn, hplace⟩ := List.mem_flatMap.mp h
    obtain ⟨row, hrow, rfl⟩ := List.mem_map.mp hplace
    exact ⟨lt_of_mem_survivors hrow, .inr hcolumn⟩

end Sheet
end Pushdown
