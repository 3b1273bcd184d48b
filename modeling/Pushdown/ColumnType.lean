-- SUMMARY: The physical types of a column, and the schema of one.

/-!
# Column types

How the values of a column are stored. Text comes in two types: plain, or as keys into a dictionary
of its distinct values. Only numbers have an order that a filter can use.
-/

namespace Pushdown

inductive ColumnType
  | float64
  | int32
  | utf8
  | dictionary
deriving DecidableEq, Repr

namespace ColumnType

def all : List ColumnType := [.float64, .int32, .utf8, .dictionary]

def isOrdered : ColumnType → Bool
  | .float64 | .int32 => true
  | .utf8 | .dictionary => false

def name : ColumnType → String
  | .float64 => "Float64"
  | .int32 => "Int32"
  | .utf8 => "Utf8"
  | .dictionary => "Dictionary<Utf8>"

end ColumnType

structure ColumnHeader where
  name : String
  columnType : ColumnType
deriving DecidableEq, Repr

end Pushdown
