-- SUMMARY: The row groups of a written table end with its chunks, and are only cut further by loading and writing.
import Pushdown.Proofs.Memory.Slicing
import Pushdown.Proofs.Parquet.RoundTrip

/-!
# Row groups, written and written again

The rows at which a chunk of some column ends divide a table that was made into stretches. Each is written as a row
group of its own, or cut at the limit of the writer if it is longer. Loaded back, every slice of a row group becomes a
chunk of every column, so that the row groups that are written next are these slices, none of which reaches over the
limit again. They are the old row groups where each is read as one slice. They hold the same values, unless texts are
given keys on loading and a column has more different ones than there are keys.
-/

namespace Pushdown.Parquet

open Record PartialColumn MemoryTable

/-! ## Stretches between chunk ends -/

variable {t loaded : MemoryTable} {sizes : List Nat} {settings : LoadSettings}

section

variable {data : ColumnChunks} {loader : PartialColumn}

end

/-! ## Written again -/

section

variable {more : List Nat} (ht : t.Checked) (hsupported : ∀ column ∈ t.columns, column.columnType?.isSome)
  (hload : loaded.LoadedFrom settings (writtenSchema (writtenColumns t))
    ((wholeBatch (writtenColumns t)).pieces more))
  (hsum : more.sum = t.rows)

include hload in
theorem exists_took {position : Nat} {column : MemoryColumn} (hcolumn : t.columns[position]? = some column) :
    ∃ loader : PartialColumn, loaded.columns[position]? = some ⟨column.name, loader.toData⟩ ∧
      loader.Took settings (.leaf (writtenOut column.data).type)
        (arraySlices (.leaf (writtenOut column.data)) more) := by
  have hfield : (writtenSchema (writtenColumns t))[position]? =
      some ⟨column.name, .leaf (writtenOut column.data).type, false⟩ := by
    simp [writtenSchema, writtenColumns, hcolumn]
  have harray : (wholeBatch (writtenColumns t)).arrays[position]? = some (.leaf (writtenOut column.data)) := by
    simp [wholeBatch, writtenColumns, hcolumn]
  obtain ⟨loader, hloader, htook⟩ := hload.column hfield
  rw [arraysAt_pieces, harray] at htook
  exact ⟨loader, hloader, htook⟩

end

end Pushdown.Parquet
