-- SUMMARY: Decoding one column of one row group, with whatever reads its records.
import Pushdown.Segments

/-!
# Row group decoders

A decoder runs through the records of a row group and counts down the rows that the footer claims for
it. The two may disagree: a claim that is too high shows when the records end early. A missing value
and bytes that are not text are found when their row is decoded, and that row is then used up; skipping
over them is no fault.

The records come from a reader that belongs to a library of the format, which may fail at any call.
`RecordDecoder` is the decoder over a reader that never does.
-/

namespace Pushdown

/-- What is stored for one row. -/
inductive Stored (α : Type)
  | present (value : α)
  | missing
  /-- Bytes that do not form a value. -/
  | malformed
deriving DecidableEq, Repr

def Stored.read {α : Type} (segment : Nat) : Stored α → Except Failure α
  | .present value => .ok value
  | .missing => .error (.nullValue segment)
  | .malformed => .error (.invalidUtf8 segment)

/-! ## Readers -/

/-- Why a library could not read: what is wrong with the bytes, or why they were not handed out. -/
inductive ReadProblem
  | unreadable
  | file (problem : FileProblem)
deriving DecidableEq, Repr

def ReadProblem.failure : ReadProblem → Failure
  | .unreadable => .unreadable .parquet
  | .file problem => .readInPlace problem

/-- A reader of the records of a column in a row group. Its states are in `ρ`. -/
structure RecordReader (ρ α : Type) where
  /-- Pass over a number of records, and tell how many there were to pass over. -/
  skip : ρ → Nat → Except ReadProblem Nat × ρ
  /-- Read the next record, if there is one. -/
  next : ρ → Except ReadProblem (Option (Stored α)) × ρ

/-- The reader of records that are all at hand. -/
def RecordReader.ofList {α : Type} : RecordReader (List (Stored α)) α where
  skip records n := (.ok (records.take n).length, records.drop n)
  next
    | [] => (.ok none, [])
    | record :: records => (.ok (some record), records)

/-! ## Decoders -/

structure RowGroupDecoder (ρ : Type) where
  segment : Nat
  /-- The rows left by the footer's claim. -/
  remaining : Nat
  /-- The reader of the records left. -/
  records : ρ

namespace RowGroupDecoder

variable {ρ α : Type}

/-- Pass over `n` rows. If the records end before that, they are used up and the claim stays. -/
def skip (reader : RecordReader ρ α) (d : RowGroupDecoder ρ) (n : Nat) :
    Except Failure Unit × RowGroupDecoder ρ :=
  if d.remaining < n then (.error (.truncatedSegment d.segment n d.remaining), d)
  else
    match reader.skip d.records n with
    | (.error problem, records) => (.error problem.failure, { d with records })
    | (.ok skipped, records) =>
      if skipped ≠ n then (.error (.truncatedSegment d.segment n skipped), { d with records })
      else (.ok (), { d with remaining := d.remaining - n, records })

def next (reader : RecordReader ρ α) (d : RowGroupDecoder ρ) : Except Failure α × RowGroupDecoder ρ :=
  if d.remaining = 0 then (.error (.truncatedSegment d.segment 1 0), d)
  else
    match reader.next d.records with
    | (.error problem, records) => (.error problem.failure, { d with records })
    | (.ok none, records) => (.error (.truncatedSegment d.segment 1 0), { d with records })
    | (.ok (some record), records) =>
      (record.read d.segment, { d with remaining := d.remaining - 1, records })

end RowGroupDecoder

/-- A decoder whose reader has the records at hand. -/
abbrev RecordDecoder (α : Type) := RowGroupDecoder (List (Stored α))

namespace RecordDecoder

variable {α : Type}

def skip (d : RecordDecoder α) (n : Nat) : Except Failure Unit × RecordDecoder α :=
  RowGroupDecoder.skip .ofList d n

def next (d : RecordDecoder α) : Except Failure α × RecordDecoder α :=
  RowGroupDecoder.next .ofList d

end RecordDecoder

end Pushdown
