-- SUMMARY: Loading a Parquet file into memory.
import Pushdown.Memory.Loading
import Pushdown.Parquet.File

/-!
# Loading Parquet files

The row groups of a file are read as record batches, cut at the batch size, and loaded as chunks.
-/

namespace Pushdown

def MemoryTable.ofParquet (file : Parquet.File) (settings : LoadSettings) :
    Except Failure MemoryTable :=
  let batches := file.toBatchFile settings.batchSize
  ofBatches batches.schema batches.batches settings

end Pushdown
