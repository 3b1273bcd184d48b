-- SUMMARY: Arrow arrays and record batches, and cutting them into slices.
import Pushdown.Record.Type
import Pushdown.Binary64

/-!
# Record batches

A batch holds one array for each field of its schema, all of the same length. An array knows its type,
which need not be the one its schema promises. A missing value is `none`. A dictionary array holds keys
into texts of its own, and either may be missing. Of the arrays whose values are never looked at only
it is kept which slots have one. A structure is never missing itself. It has the length of its first
field, and counts as empty without any.
-/

namespace Pushdown.Record

inductive LeafArray
  | float64 (values : List (Option Binary64))
  | integer (type : IntegerType) (values : List (Option Int))
  | text (type : TextType) (values : List (Option String))
  | binary (values : List (Option ByteArray))
  | dictionary (key : KeyType) (value : TextType) (keys : List (Option Int))
      (texts : List (Option String))
  | plain (type : PlainType) (present : List Bool)

inductive ColumnArray
  | leaf (array : LeafArray)
  | list (itemName : String) (item : LeafType) (present : List Bool)
  | struct (fields : List (String × LeafArray))

namespace LeafArray

def type : LeafArray → LeafType
  | .float64 _ => .float64
  | .integer type _ => .integer type
  | .text type _ => .text type
  | .binary _ => .binary
  | .dictionary key value _ _ => .dictionary key value
  | .plain type _ => .plain type

def length : LeafArray → Nat
  | .float64 values => values.length
  | .integer _ values => values.length
  | .text _ values => values.length
  | .binary values => values.length
  | .dictionary _ _ keys _ => keys.length
  | .plain _ present => present.length

/-- Whether a slot has no value. In a dictionary array that is a missing key; what the keys stand for
    does not count. -/
def hasNull : LeafArray → Bool
  | .float64 values => values.any Option.isNone
  | .integer _ values => values.any Option.isNone
  | .text _ values => values.any Option.isNone
  | .binary values => values.any Option.isNone
  | .dictionary _ _ keys _ => keys.any Option.isNone
  | .plain _ present => present.any not

/-- The `n` slots from `start` on. A slice of a dictionary array keeps all of its texts. -/
def slice (start n : Nat) : LeafArray → LeafArray
  | .float64 values => .float64 ((values.drop start).take n)
  | .integer type values => .integer type ((values.drop start).take n)
  | .text type values => .text type ((values.drop start).take n)
  | .binary values => .binary ((values.drop start).take n)
  | .dictionary key value keys texts => .dictionary key value ((keys.drop start).take n) texts
  | .plain type present => .plain type ((present.drop start).take n)

end LeafArray

namespace ColumnArray

def type : ColumnArray → DataType
  | .leaf array => .leaf array.type
  | .list itemName item _ => .list itemName item
  | .struct fields => .struct (fields.map fun (name, array) => (name, array.type))

def length : ColumnArray → Nat
  | .leaf array => array.length
  | .list _ _ present => present.length
  | .struct fields => (fields.head?.map fun (_, array) => array.length).getD 0

/-- Whether a slot has no value. Structures have one in every slot. -/
def hasNull : ColumnArray → Bool
  | .leaf array => array.hasNull
  | .list _ _ present => present.any not
  | .struct _ => false

def slice (start n : Nat) : ColumnArray → ColumnArray
  | .leaf array => .leaf (array.slice start n)
  | .list itemName item present => .list itemName item ((present.drop start).take n)
  | .struct fields => .struct (fields.map fun (name, array) => (name, array.slice start n))

end ColumnArray

structure Batch where
  arrays : List ColumnArray

namespace Batch

def rows (b : Batch) : Nat := (b.arrays.head?.map ColumnArray.length).getD 0

def slice (start n : Nat) (b : Batch) : Batch := ⟨b.arrays.map (·.slice start n)⟩

/-- Cut the `left` rows from `start` on into slices of `size + 1` rows. -/
def slices (b : Batch) (size start left : Nat) : List Batch :=
  if left = 0 then []
  else b.slice start (min (size + 1) left)
    :: b.slices size (start + (size + 1)) (left - (size + 1))
termination_by left

/-- Cut a batch into slices of `size` rows, and a last one with what remains. A size of zero counts as
    one; a batch without rows gives no slice. -/
def split (size : Nat) (b : Batch) : List Batch := b.slices (size - 1) 0 b.rows

end Batch

/-- Batches with the schema that they follow. -/
structure BatchFile where
  schema : List Field
  batches : List Batch

end Pushdown.Record
