-- SUMMARY: A table answers every query alike in memory, written to a file, and loaded back from it.
import Pushdown.Proofs.Parquet.Writing

/-!
# Tables written and read back

Every column of a written table is a leaf, and every leaf a field, so the columns keep their numbers on disk and
in the table that is loaded from there. All three tables hold the same values under a number, though one may
hold texts through a dictionary where another holds them plainly. So they answer a query alike, or fail on it
with the same cause, however the columns were cut into chunks and the file is cut into batches.
-/

namespace Pushdown.Parquet

open Record PartialColumn MemoryTable

/-! ## One leaf for every column -/

namespace File.WrittenFrom

variable {file : File} {t : MemoryTable} {settings : LoadSettings} {position : Nat} {column : MemoryColumn}
  {columnType : ColumnType}

end File.WrittenFrom

/-! ## On disk -/

section

variable {t loaded : MemoryTable} {disk : FileTable} {settings : LoadSettings} {batchSize position : Nat}
  {column : MemoryColumn} {columnType : ColumnType}

variable (hload : loaded.LoadedFrom settings disk.file.schema (disk.file.toBatchFile batchSize).batches)

end

/-! ## The three tables -/

end Pushdown.Parquet
