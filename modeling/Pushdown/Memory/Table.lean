-- SUMMARY: Tables held in memory.
import Pushdown.Memory.Column
import Pushdown.Table

/-!
# Tables in memory

A table is a list of columns with the same number of rows each. How a column is cut into chunks is its
own affair.
-/

namespace Pushdown

structure MemoryTable where
  columns : List MemoryColumn
  rows : Nat
deriving DecidableEq, Repr

namespace MemoryTable

/-- The first column that does not have the given number of rows. -/
def misfit? (rows : Nat) (columns : List MemoryColumn) : Option (MemoryColumn × Nat) :=
  columns.zipIdx.find? fun (c, _) => c.rows ≠ rows

/-- A table of the columns. The first of them sets the number of rows. -/
def ofColumns (columns : List MemoryColumn) : Except Failure MemoryTable :=
  let rows := (columns.head?.map MemoryColumn.rows).getD 0
  match misfit? rows columns with
  | some (c, position) => .error (.columnLength position rows c.rows)
  | none => .ok { columns, rows }

def column? (t : MemoryTable) (column : Nat) : Except Failure MemoryColumn :=
  match t.columns[column]? with
  | some c => .ok c
  | none => .error (.unknownColumn column t.columns.length)

def columnType (t : MemoryTable) (column : Nat) : Except Failure ColumnType := do
  let c ← t.column? column
  match c.data.source with
  | .ok source => return source.columnType
  | .error typeName => throw (.unsupportedType column typeName)

def source (t : MemoryTable) (column : Nat) : Except Failure (Column ChunkDecoder) := do
  let c ← t.column? column
  match c.data.source with
  | .ok source => return source
  | .error typeName => throw (.unsupportedType column typeName)

/-- The columns that can be scanned, with their positions. -/
def schema (t : MemoryTable) : List (Nat × ColumnHeader) :=
  t.columns.zipIdx.filterMap fun (c, position) =>
    c.columnType?.map fun columnType => (position, { name := c.name, columnType })

def toTable (t : MemoryTable) : Table ChunkDecoder where
  rows := t.rows
  columnCount := t.columns.length
  columnName? column := t.columns[column]?.map (·.name)
  columnType := t.columnType
  segmentSizes column := (t.column? column).map MemoryColumn.chunkSizes
  column := t.source

end MemoryTable

end Pushdown
