-- SUMMARY: Scanning a Parquet file in place.
import Pushdown.Parquet.Decoder
import Pushdown.Parquet.File
import Pushdown.Table

/-!
# Parquet tables

The segments of a Parquet table are its row groups, as long as the footer claims they are. Its
columns are the leaves of the schema: a structure of leaves counts as its fields, a list of leaves as
its items, and no type is nested deeper. A leaf can be scanned if it is not repeated and is stored as
double-precision numbers, integers of 32 bits or bytes; dictionaries are resolved by the reader, so a
leaf of bytes is always plain text.
-/

namespace Pushdown.Parquet

open Record

/-! ## Leaves -/

inductive PhysicalType
  | boolean
  | int32
  | int64
  | float
  | double
  | byteArray
  | fixedLenByteArray
deriving DecidableEq, Repr

def PhysicalType.name : PhysicalType → String
  | .boolean => "BOOLEAN"
  | .int32 => "INT32"
  | .int64 => "INT64"
  | .float => "FLOAT"
  | .double => "DOUBLE"
  | .byteArray => "BYTE_ARRAY"
  | .fixedLenByteArray => "FIXED_LEN_BYTE_ARRAY"

def physicalType : LeafType → PhysicalType
  | .float64 => .double
  | .integer _ => .int32
  | .text _ | .binary | .dictionary .. => .byteArray
  | .plain .float32 => .float
  | .plain .int64 | .plain .timestampMillisecond => .int64
  | .plain .boolean => .boolean
  | .plain (.fixedSizeBinary _) => .fixedLenByteArray

structure Leaf where
  name : String
  physicalType : PhysicalType
  repeated : Bool
deriving DecidableEq, Repr

/-- The leaves of a field. The leaf of a list is named for its items. -/
def leavesOf (field : Field) : List Leaf :=
  match field.type with
  | .leaf type => [⟨field.name, physicalType type, false⟩]
  | .list itemName item => [⟨itemName, physicalType item, true⟩]
  | .struct fields => fields.map fun (name, type) => ⟨name, physicalType type, false⟩

/-- The arrays of the leaves of a column, where their values can be scanned. -/
def leafArrays : ColumnArray → List (Option LeafArray)
  | .leaf array => [some array]
  | .list .. => [none]
  | .struct fields => fields.map fun (_, array) => some array

/-! ## Records -/

def stored {α : Type} : Option α → Stored α
  | some value => .present value
  | none => .missing

def storedBytes : Option ByteArray → Stored String
  | none => .missing
  | some bytes =>
    match String.fromUTF8? bytes with
    | some text => .present text
    | none => .malformed

def floatRecords : LeafArray → List (Stored Binary64)
  | .float64 values => values.map stored
  | _ => []

/-- Integers of at most 32 bits, unsigned ones taken by their bits. -/
def integerRecords : LeafArray → List (Stored Int32)
  | .integer _ values => values.map fun value => stored (value.map Int32.ofInt)
  | _ => []

def textRecords : LeafArray → List (Stored String)
  | .text _ values => values.map stored
  | .binary values => values.map storedBytes
  | .dictionary _ _ keys texts => keys.map fun key => stored (textOf? texts key)
  | _ => []

/-! ## Tables -/

/-- The number of rows in each row group, counted from `segment` on. A negative claim means that the
    footer is corrupt. -/
def claimedSizes (segment : Nat) : List RowGroup → Except Failure (List Nat)
  | [] => .ok []
  | group :: groups =>
    if group.claimedRows < 0 then .error (.corruptRowCount segment group.claimedRows)
    else do
      let sizes ← claimedSizes (segment + 1) groups
      return group.claimedRows.toNat :: sizes

structure FileTable where
  file : File
  rowGroupSizes : List Nat

namespace FileTable

def ofFile (file : File) : Except Failure FileTable := do
  let rowGroupSizes ← claimedSizes 0 file.rowGroups
  return { file, rowGroupSizes }

def rows (t : FileTable) : Nat := t.rowGroupSizes.foldr (· + ·) 0

def leaves (t : FileTable) : List Leaf := t.file.schema.flatMap leavesOf

def leaf? (t : FileTable) (column : Nat) : Except Failure Leaf :=
  match t.leaves[column]? with
  | some leaf => .ok leaf
  | none => .error (.unknownColumn column t.leaves.length)

def columnType (t : FileTable) (column : Nat) : Except Failure ColumnType := do
  let leaf ← t.leaf? column
  if leaf.repeated then throw (.unsupportedType column ("repeated " ++ leaf.physicalType.name))
  match leaf.physicalType with
  | .double => return .float64
  | .int32 => return .int32
  | .byteArray => return .utf8
  | other => throw (.unsupportedType column other.name)

/-- The records of one leaf in one row group. -/
def records {α : Type} (t : FileTable) (read : LeafArray → List (Stored α)) (column segment : Nat) :
    List (Stored α) :=
  match t.file.rowGroups[segment]? with
  | none => []
  | some group =>
    match ((group.batch.arrays.flatMap leafArrays)[column]?).join with
    | none => []
    | some array => read array

/-- The row groups as segments of a column that is opened in each of them. -/
def segmentsFrom {ρ α : Type} (t : FileTable) (opened : Nat → Except Failure ρ)
    (reader : RecordReader ρ α) : Segments (RowGroupDecoder ρ) α where
  count := t.rowGroupSizes.length
  size segment := .ok (t.rowGroupSizes[segment]?.getD 0)
  decoder segment := (opened segment).map fun records =>
    { segment, remaining := t.rowGroupSizes[segment]?.getD 0, records }
  skip := RowGroupDecoder.skip reader
  next := RowGroupDecoder.next reader

/-- The row groups as segments of a column whose records are all at hand. -/
def segments {α : Type} (t : FileTable) (read : LeafArray → List (Stored α)) (column : Nat) :
    Segments (RecordDecoder α) α :=
  t.segmentsFrom (fun segment => .ok (t.records read column segment)) .ofList

def column (t : FileTable) (column : Nat) : Except Failure (Column RecordDecoder) := do
  match ← t.columnType column with
  | .float64 => return .float64 (t.segments floatRecords column)
  | .int32 => return .int32 (t.segments integerRecords column)
  | .utf8 => return .utf8 (t.segments textRecords column)
  | .dictionary => throw (.unsupportedType column ColumnType.dictionary.name)

/-- The table with its columns given in some way. -/
def tableOf {δ : Type → Type} (t : FileTable) (column : Nat → Except Failure (Column δ)) : Table δ where
  rows := t.rows
  columnCount := t.leaves.length
  columnName? column := t.leaves[column]?.map (·.name)
  columnType := t.columnType
  segmentSizes column := (t.leaf? column).map fun _ => t.rowGroupSizes
  column

def toTable (t : FileTable) : Table RecordDecoder := t.tableOf t.column

end FileTable

end Pushdown.Parquet
