-- SUMMARY: Scanning a Parquet file through a library of the format that may fail.
import Pushdown.Parquet.Table

/-!
# Parquet tables over a library

The bytes of a file are read by a library. It opens a leaf in a row group with a reader for values of some
physical type, and both opening and reading may fail. A table asks for values of the type that the schema
gives the leaf; a reader for values of another type is refused, under the name that the wanted type has in
the program.

`FileTable.toTable` is the table over the library that hands out what is stored, which is
`FileTable.contents`.
-/

namespace Pushdown.Parquet

/-- A reader of a leaf in a row group, by the type of its values. Only values of some types can be asked
    for. -/
inductive LeafReader (ρ : Type → Type)
  | boolean
  | int32 (records : ρ Int32)
  | int64
  | float
  | double (records : ρ Binary64)
  | byteArray (records : ρ String)
  | fixedLenByteArray

namespace LeafReader

variable {ρ : Type → Type}

def physicalType : LeafReader ρ → PhysicalType
  | boolean => .boolean
  | int32 _ => .int32
  | int64 => .int64
  | float => .float
  | double _ => .double
  | byteArray _ => .byteArray
  | fixedLenByteArray => .fixedLenByteArray

def doubles? : LeafReader ρ → Option (ρ Binary64)
  | double records => some records
  | _ => none

def integers? : LeafReader ρ → Option (ρ Int32)
  | int32 records => some records
  | _ => none

def texts? : LeafReader ρ → Option (ρ String)
  | byteArray records => some records
  | _ => none

end LeafReader

/-- A library of the format, as far as a table relies on it. Bytes are read as the text that they form, if
    they form one. -/
structure Library (ρ : Type → Type) where
  /-- A reader of a column in a row group. -/
  openLeaf : Nat → Nat → Except ReadProblem (LeafReader ρ)
  doubles : RecordReader (ρ Binary64) Binary64
  integers : RecordReader (ρ Int32) Int32
  texts : RecordReader (ρ String) String

variable {ρ : Type → Type}

/-- Open a column in a row group for values of one type. -/
def Library.openAs {σ : Type} (library : Library ρ) (wanted? : LeafReader ρ → Option σ) (typeName : String)
    (column segment : Nat) : Except Failure σ :=
  match library.openLeaf column segment with
  | .error problem => .error problem.failure
  | .ok reader =>
    match wanted? reader with
    | some records => .ok records
    | none => .error (.unsupportedType column typeName)

namespace FileTable

def columnBy (t : FileTable) (library : Library ρ) (column : Nat) :
    Except Failure (Column fun α => RowGroupDecoder (ρ α)) := do
  match ← t.columnType column with
  | .float64 => return .float64 (t.segmentsFrom (library.openAs LeafReader.doubles? "f64" column) library.doubles)
  | .int32 => return .int32 (t.segmentsFrom (library.openAs LeafReader.integers? "i32" column) library.integers)
  | .utf8 =>
    let typeName := "alloc::sync::Arc<str>"
    return .utf8 (t.segmentsFrom (library.openAs LeafReader.texts? typeName column) library.texts)
  | .dictionary => throw (.unsupportedType column ColumnType.dictionary.name)

/-- The table with its values read by the library. -/
def toTableBy (t : FileTable) (library : Library ρ) : Table fun α => RowGroupDecoder (ρ α) :=
  t.tableOf (t.columnBy library)

/-- The reader of a leaf in a row group that has its records at hand. -/
def storedLeaf (t : FileTable) (column segment : Nat) :
    PhysicalType → LeafReader fun α => List (Stored α)
  | .boolean => .boolean
  | .int32 => .int32 (t.records integerRecords column segment)
  | .int64 => .int64
  | .float => .float
  | .double => .double (t.records floatRecords column segment)
  | .byteArray => .byteArray (t.records textRecords column segment)
  | .fixedLenByteArray => .fixedLenByteArray

/-- The library that hands out what is stored in the file, as values of the types of the schema. -/
def contents (t : FileTable) : Library fun α => List (Stored α) where
  openLeaf column segment :=
    match t.leaves[column]? with
    | some leaf => .ok (t.storedLeaf column segment leaf.physicalType)
    | none => .error .unreadable
  doubles := .ofList
  integers := .ofList
  texts := .ofList

end FileTable

end Pushdown.Parquet
