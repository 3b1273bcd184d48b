-- SUMMARY: Which columns are wanted, and the conditions on the rows.
import Pushdown.Failure

/-!
# Queries

A query names columns to project, and conditions that are applied before. It knows nothing of a table:
columns are positions, and operands are text.
-/

namespace Pushdown

/-- A filter whose operand is still text. -/
structure Condition where
  column : Nat
  op : Comparison
  operand : String
deriving DecidableEq, Repr

/-- A condition whose comparison is given by name. -/
def Condition.ofName (column : Nat) (name operand : String) : Except Failure Condition :=
  match Comparison.ofName? name with
  | some op => .ok { column, op, operand }
  | none => .error (.unknownOperator name)

structure Query where
  projections : List Nat
  conditions : List Condition
deriving DecidableEq, Repr

/-- A query whose condition `i` is made of the `i`th entry of each of three lists. -/
def Query.ofLists (projections columns : List Nat) (operators operands : List String) :
    Except Failure Query :=
  if columns.length ≠ operators.length || columns.length ≠ operands.length then
    .error (.filterArity columns.length operators.length operands.length)
  else do
    let conditions ← (columns.zip (operators.zip operands)).mapM fun (column, name, operand) =>
      Condition.ofName column name operand
    return { projections, conditions }

end Pushdown
