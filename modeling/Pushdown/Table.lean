-- SUMMARY: What a scan needs of a table, whatever store holds it.
import Pushdown.Column

/-!
# Tables

A table has a number of rows and columns that are known by their position. The positions of columns
that cannot be scanned are kept, and asking for the type of such a column is an error that names it.
-/

namespace Pushdown

structure Table (δ : Type → Type) where
  rows : Nat
  columnCount : Nat
  columnName? : Nat → Option String
  columnType : Nat → Except Failure ColumnType
  segmentSizes : Nat → Except Failure (List Nat)
  column : Nat → Except Failure (Column δ)

end Pushdown
