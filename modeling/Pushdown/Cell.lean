-- SUMMARY: One value of a row.
import Pushdown.ColumnType
import Pushdown.Decimal.Layout
import Pushdown.Text.Quoted

/-!
# Cells

A cell is one value of a row that is handed to a table. It says which column types it fits: text fits
both a plain and a dictionary column.
-/

namespace Pushdown

inductive Cell
  | float64 (value : Binary64)
  | int32 (value : Int32)
  | utf8 (value : String)
deriving DecidableEq, Repr

namespace Cell

def fits : Cell → ColumnType → Bool
  | .float64 _, .float64 => true
  | .int32 _, .int32 => true
  | .utf8 _, .utf8 => true
  | .utf8 _, .dictionary => true
  | _, _ => false

/-- Numbers in a message are written out without an exponent, and a whole number has no point. -/
def messageLayout : Decimal.Layout where
  tie := .up
  isPositional := fun _ => true
  wholeMark := []
  plusMark := []
  notANumber := "NaN".toList
  infinity := "inf".toList
  negativeInfinity := "-inf".toList

def describe : Cell → String
  | .float64 x => String.ofList (messageLayout.write x)
  | .int32 n => toString n.toInt
  | .utf8 s => Text.quote s

end Cell

end Pushdown
