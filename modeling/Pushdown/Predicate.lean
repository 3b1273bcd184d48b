-- SUMMARY: A comparison checked against the type of the column it filters.
import Pushdown.Decimal.Numeral
import Pushdown.Failure
import Pushdown.Text.Blank

/-!
# Predicates

The operand of a filter comes as text. `Predicate.parse` reads it as a value of the column's type:
numbers with the blank space around them removed, text as it stands. Whether the comparison suits the
type is checked before the operand is looked at.
-/

namespace Pushdown

inductive Operand
  | float64 (value : Binary64)
  | int32 (value : Int32)
  | utf8 (value : String)
deriving DecidableEq, Repr

def Operand.parse? (columnType : ColumnType) (text : String) : Option Operand :=
  match columnType with
  | .float64 => (Decimal.binary64? (Text.trim text.toList)).map .float64
  | .int32 => (Decimal.int32? (Text.trim text.toList)).map .int32
  | .utf8 | .dictionary => some (.utf8 text)

structure Predicate where
  column : Nat
  op : Comparison
  operand : Operand
deriving DecidableEq, Repr

namespace Predicate

/-- Equality suits every column, an order only those whose type has one. -/
def suits (op : Comparison) (columnType : ColumnType) : Bool :=
  op = .equal || columnType.isOrdered

def parse (column : Nat) (columnType : ColumnType) (op : Comparison) (text : String) :
    Except Failure Predicate :=
  if !suits op columnType then .error (.unsupportedOperator column op columnType)
  else
    match Operand.parse? columnType text with
    | some operand => .ok { column, op, operand }
    | none => .error (.operandSyntax column columnType text)

end Predicate

end Pushdown
