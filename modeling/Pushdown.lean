import Pushdown.Memory.Builder
import Pushdown.Main
import Pushdown.Proofs.Command.Backings
import Pushdown.Proofs.Memory.Encoding
import Pushdown.Proofs.Parquet.Faults
import Pushdown.Proofs.Parquet.Misalignment
import Pushdown.Proofs.Parquet.RoundTrip
import Pushdown.Proofs.Parquet.Straying
import Pushdown.Proofs.Reordering
import Pushdown.Proofs.Translation
import Pushdown.Proofs.Validity
import Pushdown.Proofs.Narrowing
import Pushdown.Proofs.Segments.Sweeping
import Pushdown.Proofs.Memory.Stages
import Pushdown.Proofs.Memory.Misreporting
import Pushdown.Proofs.Memory.Gaps
import Pushdown.Proofs.Memory.Slicing
import Pushdown.Proofs.Parquet.Rewriting
import Pushdown.Proofs.Decoding
import Pushdown.Proofs.Segments.Differences
import Pushdown.Proofs.Segments.Searching
import Pushdown.Proofs.Memory.Chunking
import Pushdown.Proofs.Candidates.Inclusion
import Pushdown.Proofs.Command.Spelling
import Pushdown.Proofs.Comparison
import Pushdown.Proofs.Command.Report
