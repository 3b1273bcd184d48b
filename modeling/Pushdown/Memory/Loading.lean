-- SUMMARY: Loading record batches into memory.
import Pushdown.Record.Batch
import Pushdown.Memory.Table

/-!
# Loading batches

Each batch becomes one chunk of every column. Columns of a type that cannot be scanned keep their place
and count their rows; in all others a missing value is an error. Text comes plain or through a
dictionary. A dictionary of a batch is merged into that of the column, text by text, and its keys are
translated.
-/

namespace Pushdown

open Record

structure LoadSettings where
  /-- Whether plain text columns become dictionary columns. -/
  dictionaryStrings : Bool := false
  /-- The most rows that go into one chunk. -/
  batchSize : Nat := 65536
deriving DecidableEq, Repr

def LoadSettings.default : LoadSettings := {}

/-- A column with the chunks loaded so far. -/
inductive PartialColumn
  | float64 (chunks : Array (List Binary64))
  | int32 (chunks : Array (List Int32))
  | utf8 (chunks : Array (List String))
  | dictionary (chunks : Array (List UInt32)) (interner : Interner)
  | unsupported (typeName : String) (rows : Nat)

namespace PartialColumn

def ofType (settings : LoadSettings) : DataType → PartialColumn
  | .leaf .float64 => .float64 #[]
  | .leaf (.integer .int32) => .int32 #[]
  | .leaf (.text .utf8) | .leaf (.text .largeUtf8) =>
    if settings.dictionaryStrings then .dictionary #[] .empty else .utf8 #[]
  | .leaf (.dictionary .int32 .utf8) => .dictionary #[] .empty
  | type => .unsupported type.name 0

/-! ## The values of an array without nulls -/

def floats? : ColumnArray → Option (List Binary64)
  | .leaf (.float64 values) => some (values.filterMap id)
  | _ => none

def integers? : ColumnArray → Option (List Int32)
  | .leaf (.integer .int32 values) => some (values.filterMap fun value => value.map Int32.ofInt)
  | _ => none

/-- Text in one of the two layouts that are read. -/
def textsOf? : TextType → List (Option String) → Option (List String)
  | .utf8View, _ => none
  | _, values => some (values.filterMap id)

def texts? : ColumnArray → Option (List String)
  | .leaf (.text type values) => textsOf? type values
  | _ => none

/-- The key of the column that a key of the batch stands for. -/
def translateKey (translated : List UInt32) (key : Int) : Except Failure UInt32 :=
  match (if key < 0 then none else translated[key.toNat]?) with
  | some key => .ok key
  | none => .error (.dictionaryIndex (UInt32.ofInt key) translated.length)

/-! ## Loading a chunk -/

/-- The keys of a chunk of text. `mismatch` is the error for an array that holds none. -/
def loadKeys (interner : Interner) (array : ColumnArray) (batch : Nat) (mismatch : Failure) :
    Except Failure (List UInt32 × Interner) :=
  match array with
  | .leaf (.dictionary .int32 type keys texts) =>
    if texts.any Option.isNone then .error (.nullValue batch)
    else
      match textsOf? type texts with
      | none => .error mismatch
      | some texts => do
        let (translated, interner) := interner.internAll texts
        let keys ← (keys.filterMap id).mapM (translateKey translated)
        return (keys, interner)
  | array =>
    match texts? array with
    | none => .error mismatch
    | some texts => .ok (interner.internAll texts)

/-- The values read from an array, which must not have a slot without one. -/
def require {α : Type} (array : ColumnArray) (batch : Nat) (mismatch : Failure)
    (values? : Option α) : Except Failure α :=
  if array.hasNull then .error (.nullValue batch)
  else
    match values? with
    | some values => .ok values
    | none => .error mismatch

/-- Load an array as the next chunk of the column. -/
def push (loader : PartialColumn) (field : Field) (array : ColumnArray) (batch : Nat) :
    Except Failure PartialColumn :=
  let mismatch := .schemaMismatch field.name field.type.name array.type.name batch
  match loader with
  | .float64 chunks => do
    let values ← require array batch mismatch (floats? array)
    return .float64 (chunks.push values)
  | .int32 chunks => do
    let values ← require array batch mismatch (integers? array)
    return .int32 (chunks.push values)
  | .utf8 chunks => do
    let values ← require array batch mismatch (texts? array)
    return .utf8 (chunks.push values)
  | .dictionary chunks interner => do
    require array batch mismatch (some ())
    let (keys, interner) ← loadKeys interner array batch mismatch
    return .dictionary (chunks.push keys) interner
  | .unsupported typeName rows => return .unsupported typeName (rows + array.length)

def toData : PartialColumn → ColumnChunks
  | .float64 chunks => .float64 chunks.toList
  | .int32 chunks => .int32 chunks.toList
  | .utf8 chunks => .utf8 chunks.toList
  | .dictionary chunks interner => .dictionary chunks.toList interner.toDictionary
  | .unsupported typeName rows => .unsupported typeName rows

end PartialColumn

/-! ## Loading a table -/

namespace MemoryTable

/-- Load one array into each column, in the order of the columns. -/
def pushArrays (batch : Nat) :
    List (Field × PartialColumn) → List ColumnArray → Except Failure (List (Field × PartialColumn))
  | (field, loader) :: columns, array :: arrays => do
    let loader ← loader.push field array batch
    let columns ← pushArrays batch columns arrays
    return (field, loader) :: columns
  | columns, _ => .ok columns

def pushBatch (columns : List (Field × PartialColumn)) (batch : Batch) (position : Nat) :
    Except Failure (List (Field × PartialColumn)) :=
  if batch.arrays.length ≠ columns.length then
    .error (.rowArity columns.length batch.arrays.length)
  else pushArrays position columns batch.arrays

def pushBatches (columns : List (Field × PartialColumn)) :
    List (Batch × Nat) → Except Failure (List (Field × PartialColumn))
  | [] => .ok columns
  | (batch, position) :: rest => do
    let columns ← pushBatch columns batch position
    pushBatches columns rest

/-- A table of the batches, one chunk for each. -/
def ofBatches (schema : List Field) (batches : List Batch) (settings : LoadSettings) :
    Except Failure MemoryTable := do
  let columns ← pushBatches (schema.map fun field => (field, .ofType settings field.type))
    batches.zipIdx
  ofColumns (columns.map fun (field, loader) => { name := field.name, data := loader.toData })

/-- Load the batches of a file, each cut into slices of the batch size. -/
def ofBatchFile (file : BatchFile) (settings : LoadSettings) : Except Failure MemoryTable :=
  ofBatches file.schema (file.batches.flatMap (·.split settings.batchSize)) settings

end MemoryTable

end Pushdown
