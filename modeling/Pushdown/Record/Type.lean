-- SUMMARY: Arrow data types and the fields of a schema.
import Pushdown.Text.Quoted

/-!
# Arrow types

The types of record batch columns, grouped by what a reader makes of them: numbers of double precision,
integers of at most 32 bits, text in three layouts, bytes, text through a dictionary, and the `plain`
types whose values are never looked at. A column holds such leaves, lists of them, or structures of
them. `name` spells a type the way messages show it.

The types are not nested any deeper, and they are the ones listed. The loader tells the five kinds of
leaf that can be scanned from all the others, which get a placeholder whatever they are. So a type that
is not listed would be one more that is loaded as a placeholder. In a file it would have leaves of its
own, and count for as many.
-/

namespace Pushdown.Record

inductive IntegerType
  | int8
  | int16
  | int32
  | uint32
  | date32
deriving DecidableEq, Repr

inductive TextType
  | utf8
  | largeUtf8
  | utf8View
deriving DecidableEq, Repr

inductive KeyType
  | int8
  | int32
deriving DecidableEq, Repr

inductive PlainType
  | float32
  | int64
  | timestampMillisecond
  | boolean
  | fixedSizeBinary (width : Nat)
deriving DecidableEq, Repr

inductive LeafType
  | float64
  | integer (type : IntegerType)
  | text (type : TextType)
  | binary
  | dictionary (key : KeyType) (value : TextType)
  | plain (type : PlainType)
deriving DecidableEq, Repr

inductive DataType
  | leaf (type : LeafType)
  | list (itemName : String) (item : LeafType)
  | struct (fields : List (String × LeafType))
deriving DecidableEq, Repr

structure Field where
  name : String
  type : DataType
  /-- Whether a row may lack a value. -/
  nullable : Bool
deriving DecidableEq, Repr

/-! ## Names -/

def IntegerType.name : IntegerType → String
  | .int8 => "Int8"
  | .int16 => "Int16"
  | .int32 => "Int32"
  | .uint32 => "UInt32"
  | .date32 => "Date32"

def TextType.name : TextType → String
  | .utf8 => "Utf8"
  | .largeUtf8 => "LargeUtf8"
  | .utf8View => "Utf8View"

def KeyType.name : KeyType → String
  | .int8 => "Int8"
  | .int32 => "Int32"

def PlainType.name : PlainType → String
  | .float32 => "Float32"
  | .int64 => "Int64"
  | .timestampMillisecond => "Timestamp(Millisecond, None)"
  | .boolean => "Boolean"
  | .fixedSizeBinary width => s!"FixedSizeBinary({width})"

def LeafType.name : LeafType → String
  | .float64 => "Float64"
  | .integer type => type.name
  | .text type => type.name
  | .binary => "Binary"
  | .dictionary key value => s!"Dictionary({key.name}, {value.name})"
  | .plain type => type.name

/-- A field within a nested type, which holds no nulls. -/
def LeafType.fieldName (name : String) (type : LeafType) : String :=
  "Field \x7b name: " ++ Text.quote name ++ ", data_type: " ++ type.name
    ++ ", nullable: false, dict_id: 0, dict_is_ordered: false, metadata: \x7b\x7d \x7d"

def DataType.name : DataType → String
  | .leaf type => type.name
  | .list itemName item => "List(" ++ item.fieldName itemName ++ ")"
  | .struct fields =>
    "Struct([" ++ ", ".intercalate (fields.map fun (name, type) => type.fieldName name) ++ "])"

end Pushdown.Record
