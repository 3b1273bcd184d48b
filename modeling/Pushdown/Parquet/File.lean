-- SUMMARY: Parquet files as row groups of leaf columns, written from a table or from batches.
import Pushdown.Record.Batch
import Pushdown.Memory.Table

/-!
# Parquet files

A file is a run of row groups, each a record batch with the number of rows that the footer claims for
it. A table is written with a row group for every stretch between two chunk boundaries of any of its
columns, dictionary columns as plain text. The writer takes no more rows into a row group than its
limit: of a longer stretch it makes full row groups and one with the rows that remain.

Batches are given as files with a row group each, those without rows leaving nothing. Such files are not
the program's own, so that no limit applies to them.

Only a nullable column can mark a missing value. In any other a row always has one, but its key may
stand for a text that is missing from the dictionary: then the empty text is written.

Read back as batches, a file has the types it was written with, except that the dictionaries of a row
group are made anew from the texts in its rows.
-/

namespace Pushdown.Parquet

open Record

structure RowGroup where
  /-- The number of rows that the footer claims. -/
  claimedRows : Int
  batch : Batch

structure File where
  schema : List Field
  rowGroups : List RowGroup

/-! ## Writing -/

def RowGroup.ofBatch (batch : Batch) : RowGroup := ⟨batch.rows, batch⟩

/-- The array with the empty text for every text that is missing from its dictionary. -/
def fillTexts : ColumnArray → ColumnArray
  | .leaf (.dictionary key value keys texts) =>
    .leaf (.dictionary key value keys (texts.map fun text => some (text.getD "")))
  | array => array

/-- What is written of an array of the field. -/
def writtenArray (field : Field) (array : ColumnArray) : ColumnArray :=
  if field.nullable then array else fillTexts array

def File.ofBatches (schema : List Field) (batches : List Batch) : File where
  schema := schema
  rowGroups := (batches.filter (·.rows ≠ 0)).map fun batch =>
    .ofBatch ⟨List.zipWith writtenArray schema batch.arrays⟩

/-- A column of a table with its chunks joined and its keys resolved. -/
def flatten (column : MemoryColumn) (position : Nat) : Except Failure LeafArray :=
  match column.data with
  | .float64 chunks => .ok (.float64 (chunks.flatten.map some))
  | .int32 chunks => .ok (.integer .int32 (chunks.flatten.map fun n => some n.toInt))
  | .utf8 chunks => .ok (.text .utf8 (chunks.flatten.map some))
  | .dictionary chunks texts => do
    let values ← chunks.flatten.mapM texts.textOf
    return .text .utf8 (values.map some)
  | .unsupported typeName _ => .error (.unsupportedType position typeName)

/-- The rows at which a chunk ends, counted from `start`. -/
def ends (start : Nat) : List Nat → List Nat
  | [] => []
  | n :: sizes => (start + n) :: ends (start + n) sizes

/-- The rows at which a chunk of some column ends, each once and in ascending order. -/
def boundaries (columns : List MemoryColumn) : List Nat :=
  (((columns.flatMap fun column => ends 0 column.chunkSizes).filter (0 < ·)).mergeSort).eraseReps

/-- Cut a batch at the given rows, the first piece beginning at `start`. -/
def cut (batch : Batch) (start : Nat) : List Nat → List Batch
  | [] => []
  | stop :: stops => batch.slice start (stop - start) :: cut batch stop stops

/-- The number of rows that the writer takes into one row group, unless it is told otherwise. -/
def rowGroupLimit : Nat := 1048576

/-- The row groups of a batch that is written on its own. -/
def writtenGroups (batch : Batch) : List RowGroup := (batch.split rowGroupLimit).map .ofBatch

def File.ofTable (table : MemoryTable) : Except Failure File := do
  let arrays ← table.columns.zipIdx.mapM fun (column, position) => flatten column position
  let schema := List.zipWith (fun column array => ⟨column.name, .leaf array.type, false⟩)
    table.columns arrays
  let batch : Batch := ⟨arrays.map .leaf⟩
  return { schema, rowGroups := (cut batch 0 (boundaries table.columns)).flatMap writtenGroups }

/-! ## Reading batches -/

/-- The text that a key stands for, if both are there. -/
def textOf? (texts : List (Option String)) (key : Option Int) : Option String :=
  key.bind fun key => texts[key.toNat]?.join

/-- A dictionary array whose texts are those of its rows, each once, in the order in which they first
    appear. -/
def encodeTexts (key : KeyType) (value : TextType) (rows : List (Option String)) : LeafArray :=
  let texts := (rows.filterMap id).eraseDups
  let keys := rows.map fun row => (row.bind texts.idxOf?).map Int.ofNat
  .dictionary key value keys (texts.map some)

/-- The array as it is read back. -/
def storedArray : ColumnArray → ColumnArray
  | .leaf (.dictionary key value keys texts) =>
    .leaf (encodeTexts key value (keys.map (textOf? texts)))
  | array => array

/-- The number of rows in the file, as its footer claims. -/
def File.claimedRows (file : File) : Int := (file.rowGroups.map (·.claimedRows)).foldr (· + ·) 0

/-- The number of rows that a reader takes at a time: no more than the footer claims for the whole
    file, unless the claim is negative and so none. -/
def File.readSize (file : File) (batchSize : Nat) : Nat :=
  if file.claimedRows < 0 then max batchSize 1 else min (max batchSize 1) file.claimedRows.toNat

/-- The row groups as batches, each cut into slices of the size at which they are read. A reader that
    takes no rows at a time comes to no batch; beyond that the claims play no part. -/
def File.toBatchFile (file : File) (batchSize : Nat) : BatchFile where
  schema := file.schema
  batches :=
    if file.readSize batchSize = 0 then []
    else file.rowGroups.flatMap fun group =>
      Batch.split (file.readSize batchSize) ⟨group.batch.arrays.map storedArray⟩

end Pushdown.Parquet
