-- SUMMARY: The five comparisons of a filter, and the values they compare.
import Pushdown.Binary64

/-!
# Comparisons

A comparison is decided by the order of the value against the operand. Where the two have no order,
as with a floating-point value that is not a number, no comparison holds.
-/

namespace Pushdown

inductive Comparison
  | equal
  | greater
  | greaterEqual
  | less
  | lessEqual
deriving DecidableEq, Repr

/-- Values that a comparison can put in order. -/
class Comparable (α : Type) where
  compare? : α → α → Option Ordering

instance : Comparable Binary64 where
  compare? := Binary64.compare?

instance : Comparable Int32 where
  compare? x y := some (compare x y)

/-- Text is in the order of its code points, which is that of its UTF-8 bytes. -/
instance : Comparable String where
  compare? x y := some (compare x y)

/-- Dictionary keys. -/
instance : Comparable UInt32 where
  compare? x y := some (compare x y)

namespace Comparison

def all : List Comparison := [.equal, .greater, .greaterEqual, .less, .lessEqual]

def name : Comparison → String
  | .equal => "EQUAL"
  | .greater => "GREATER"
  | .greaterEqual => "GREATER_EQUAL"
  | .less => "LESS"
  | .lessEqual => "LESS_EQUAL"

def ofName? (s : String) : Option Comparison := all.find? fun op => op.name = s

/-- Whether the comparison holds of a value that stands in the given order to the operand. -/
def accepts : Comparison → Ordering → Bool
  | .equal, o => o.isEq
  | .greater, o => o.isGT
  | .greaterEqual, o => o.isGE
  | .less, o => o.isLT
  | .lessEqual, o => o.isLE

def holds {α : Type} [Comparable α] (op : Comparison) (value operand : α) : Bool :=
  (Comparable.compare? value operand).any op.accepts

end Comparison

end Pushdown
