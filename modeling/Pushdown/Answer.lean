-- SUMMARY: Answering a query from a table.
import Pushdown.Query
import Pushdown.Table

/-!
# Answers

A query is checked as a whole before any value is decoded: conditions in order, then projections. Each
condition narrows the candidates that the one before it left; once none are left the others are
recorded as skipped. The projections are decoded at the rows that survive.
-/

namespace Pushdown

variable {δ : Type → Type}

/-! ## Checking a query -/

namespace Table

/-- The type of a column that a query names. -/
def namedType (table : Table δ) (column : Nat) : Except Failure ColumnType :=
  if table.columnCount ≤ column then .error (.unknownColumn column table.columnCount)
  else table.columnType column

/-- The predicate that a condition stands for. -/
def predicate (table : Table δ) (condition : Condition) : Except Failure Predicate := do
  let columnType ← table.namedType condition.column
  Predicate.parse condition.column columnType condition.op condition.operand

/-- The predicates of a query, if every part of it can be answered. -/
def check (table : Table δ) (query : Query) : Except Failure (List Predicate) := do
  let predicates ← query.conditions.mapM table.predicate
  query.projections.forM fun column => discard (table.namedType column)
  return predicates

end Table

/-! ## Answering it -/

/-- What one condition did. -/
structure Narrowing where
  condition : Condition
  /-- The number of candidates after it. -/
  candidates : Nat
  /-- Whether no candidate was left to apply it to. -/
  skipped : Bool
deriving DecidableEq, Repr

structure Projection where
  column : Nat
  values : Values
deriving DecidableEq, Repr

structure Answer where
  /-- One entry for each projection of the query, in its order. -/
  columns : List Projection
  candidates : Candidates
  narrowings : List Narrowing
  /-- The number of rows in each column. -/
  rows : Nat
deriving DecidableEq, Repr

namespace Table

/-- Narrow the candidates by one predicate, unless none are left. -/
def narrow (table : Table δ) (predicate : Predicate) (candidates : Candidates) :
    Except Failure Candidates := do
  if candidates.isEmpty then return candidates
  let column ← table.column predicate.column
  (column.filter predicate candidates).result

/-- Narrow the candidates by one condition after the other, each given with its predicate. -/
def narrowAll (table : Table δ) :
    List (Condition × Predicate) → Candidates → Except Failure (Candidates × List Narrowing)
  | [], candidates => .ok (candidates, [])
  | (condition, predicate) :: rest, candidates => do
    let narrowed ← table.narrow predicate candidates
    let narrowing : Narrowing :=
      { condition, candidates := narrowed.count table.rows, skipped := candidates.isEmpty }
    let (final, narrowings) ← table.narrowAll rest narrowed
    return (final, narrowing :: narrowings)

def projection (table : Table δ) (candidates : Candidates) (form : DictionaryForm)
    (column : Nat) : Except Failure Projection := do
  let source ← table.column column
  let values ← (source.project candidates form).result
  return { column, values }

/-- Answer a query, the values of dictionary columns in the given form. -/
def scan (table : Table δ) (query : Query) (form : DictionaryForm) : Except Failure Answer := do
  let predicates ← table.check query
  let (candidates, narrowings) ← table.narrowAll (query.conditions.zip predicates) .unbounded
  let columns ← query.projections.mapM (table.projection candidates form)
  return { columns, candidates, narrowings, rows := candidates.count table.rows }

end Table

end Pushdown
