-- SUMMARY: A scan of a Parquet table fails with faults of the store only, whatever the footer claims.
import Pushdown.Proofs.Parquet.Table
import Pushdown.Proofs.Serving

/-!
# Footers that claim too much or too little

Nothing makes a footer tell the truth. A row group may hold fewer records than it claims, or more, and a
leaf that the schema has may be missing in it. The sheet of such a table has the rows that the footer
claims. A row without a record is a cell without a value, and records beyond the claim are left out.

A decoder that comes to the end of its records does not count on from there as it would on the sheet. It
need not: that is a fault of the store, and the scan ends with it.
-/

namespace Pushdown

namespace RecordDecoder

variable {α : Type}

/-- The cells of `n` claimed rows. Where the records end early, the others have no value. -/
def cells (segment : Nat) : Nat → List (Stored α) → Cells α
  | 0, _ => []
  | n + 1, [] => .error (.truncatedSegment segment 1 0) :: cells segment n []
  | n + 1, record :: records => record.read segment :: cells segment n records

@[simp] theorem length_cells (segment n : Nat) (records : List (Stored α)) :
    (cells segment n records).length = n := by
  induction n generalizing records with
  | zero => rfl
  | succ n ih => cases records <;> simp [cells, ih]

theorem drop_cells (segment : Nat) {n m : Nat} {records : List (Stored α)} (h : m ≤ records.length) :
    (cells segment n records).drop m = cells segment (n - m) (records.drop m) := by
  induction m generalizing n records with
  | zero => rfl
  | succ m ih =>
    obtain ⟨record, records, rfl⟩ := List.exists_cons_of_ne_nil (List.ne_nil_of_length_pos (Nat.zero_lt_of_lt h))
    cases n with
    | zero => simp [cells]
    | succ n =>
      rw [cells, List.drop_succ_cons, List.drop_succ_cons, Nat.succ_sub_succ]
      exact ih (Nat.le_of_succ_le_succ h)

/-- A row without a value is a fault of the store. -/
theorem isStoreFault_of_mem_cells {segment n : Nat} {records : List (Stored α)} {e : Failure}
    (h : .error e ∈ cells segment n records) : e.isStoreFault = true := by
  induction n generalizing records with
  | zero => cases h
  | succ n ih =>
    cases records with
    | nil =>
      rcases List.mem_cons.mp h with h | h
      · cases h
        rfl
      · exact ih h
    | cons record records =>
      rcases List.mem_cons.mp h with h | h
      · cases record with
        | present value => cases h
        | missing | malformed =>
          cases h
          rfl
      · exact ih h

/-- The decoder has the cells of the claimed rows before it. -/
def Claims (d : RecordDecoder α) (rest : Cells α) : Prop := rest = cells d.segment d.remaining d.records

theorem Claims.skip {d : RecordDecoder α} {rest : Cells α} {n : Nat} (h : d.Claims rest)
    (hle : n ≤ rest.length) :
    (∃ d', d.skip n = (.ok (), d') ∧ d'.Claims (rest.drop n)) ∨
      ∃ e d', d.skip n = (.error e, d') ∧ e.isStoreFault = true := by
  obtain rfl := h
  rw [length_cells] at hle
  rw [RecordDecoder.skip_eq, if_neg (Nat.not_lt.mpr hle)]
  by_cases hend : (d.records.take n).length = n
  · refine .inl ⟨⟨d.segment, d.remaining - n, d.records.drop n⟩, by simp [hend], ?_⟩
    rw [List.length_take, min_eq_left_iff] at hend
    exact drop_cells d.segment hend
  · exact .inr ⟨_, _, if_pos hend, rfl⟩

theorem Claims.next {d : RecordDecoder α} {cell : Except Failure α} {rest : Cells α}
    (h : d.Claims (cell :: rest)) :
    (∃ d', d.next = (cell, d') ∧ d'.Claims rest) ∨ ∃ e d', d.next = (.error e, d') ∧ e.isStoreFault = true := by
  obtain ⟨segment, remaining, records⟩ := d
  cases remaining with
  | zero => cases h
  | succ remaining =>
    cases records with
    | nil => exact .inr ⟨_, _, rfl, rfl⟩
    | cons record records =>
      cases h
      exact .inl ⟨⟨segment, remaining, records⟩, rfl, rfl⟩

end RecordDecoder

namespace Parquet.FileTable

open Record

variable {α : Type} {t : FileTable}

/-! ## The rows that are claimed -/

/-- The cells of a leaf that the footer claims, one list for each row group. -/
def claimedParts (t : FileTable) (read : LeafArray → List (Stored α)) (column : Nat) : List (Cells α) :=
  t.rowGroupSizes.zipIdx.map fun (size, segment) =>
    RecordDecoder.cells segment size (t.records read column segment)

theorem claimedParts_eq_some {read : LeafArray → List (Stored α)} {column segment : Nat} {part : Cells α}
    (h : (t.claimedParts read column)[segment]? = some part) :
    ∃ size, t.rowGroupSizes[segment]? = some size ∧
      part = RecordDecoder.cells segment size (t.records read column segment) := by
  rw [claimedParts, List.getElem?_map] at h
  obtain ⟨⟨size, position⟩, hentry, rfl⟩ := Option.map_eq_some_iff.mp h
  rw [List.getElem?_zipIdx, Nat.zero_add] at hentry
  obtain ⟨found, hsize, hsame⟩ := Option.map_eq_some_iff.mp hentry
  cases hsame
  exact ⟨size, hsize, rfl⟩

theorem segments_serves (t : FileTable) (read : LeafArray → List (Stored α)) (column : Nat) :
    (t.segments read column).Serves (·.isStoreFault = true) (t.claimedParts read column)
      RecordDecoder.Claims where
  count := by simp [segments, claimedParts]
  size {segment part} hpart := by
    obtain ⟨size, hsize, rfl⟩ := claimedParts_eq_some hpart
    rw [RecordDecoder.length_cells]
    exact segmentsFrom_size hsize
  decoder {segment part} hpart := by
    obtain ⟨size, hsize, rfl⟩ := claimedParts_eq_some hpart
    exact .inl ⟨_, segments_decoder hsize, rfl⟩
  skip := RecordDecoder.Claims.skip
  next := RecordDecoder.Claims.next

theorem servesCells_claimed (t : FileTable) (read : LeafArray → List (Stored α)) (column : Nat) :
    (t.segments read column).ServesCells (·.isStoreFault = true) (t.claimedParts read column).flatten where
  serves := ⟨_, _, t.segments_serves read column, rfl⟩
  permitted_of_mem e he := by
    obtain ⟨part, hpart, he⟩ := List.mem_flatten.mp he
    obtain ⟨entry, -, rfl⟩ := List.mem_map.mp hpart
    exact RecordDecoder.isStoreFault_of_mem_cells he

theorem length_claimed (t : FileTable) (read : LeafArray → List (Stored α)) (column : Nat) :
    (t.claimedParts read column).flatten.length = t.rows := by
  have hlengths : (t.claimedParts read column).map List.length = t.rowGroupSizes := by
    rw [claimedParts, List.map_map]
    simp [Function.comp_def]
  rw [List.length_flatten, hlengths]
  rfl

/-! ## The sheet -/

/-- The leaves in the rows that the footer claims. -/
def claimedSheet (t : FileTable) : Sheet where
  rows := t.rows
  content position :=
    match t.columnType position with
    | .ok .float64 => .float64 (t.claimedParts floatRecords position).flatten
    | .ok .int32 => .int32 (t.claimedParts integerRecords position).flatten
    | _ => .utf8 (t.claimedParts textRecords position).flatten

theorem column_serves {position : Nat} {columnType : ColumnType}
    (htype : t.columnType position = .ok columnType) :
    ∃ column, t.column position = .ok column ∧
      column.Serves (·.isStoreFault = true) (t.claimedSheet.content position) ∧
      (t.claimedSheet.content position).columnType = columnType ∧
      (t.claimedSheet.content position).size = t.rows := by
  unfold FileTable.column claimedSheet
  dsimp only
  rw [htype]
  cases columnType with
  | float64 => exact ⟨_, rfl, .float64 (t.servesCells_claimed _ _), rfl, t.length_claimed _ _⟩
  | int32 => exact ⟨_, rfl, .int32 (t.servesCells_claimed _ _), rfl, t.length_claimed _ _⟩
  | utf8 => exact ⟨_, rfl, .utf8 (t.servesCells_claimed _ _), rfl, t.length_claimed _ _⟩
  | dictionary => exact absurd htype columnType_ne_dictionary

/-- A table fails with faults of the store only, and serves the rows that the footer claims. -/
theorem serves_claimedSheet (t : FileTable) :
    t.toTable.Serves (·.isStoreFault = true) t.claimedSheet where
  rows_eq := rfl
  column htype := by
    obtain ⟨column, hcolumn, hserves, -⟩ := column_serves (t.namedType_eq _ ▸ htype)
    exact ⟨column, hcolumn, hserves⟩
  columnType_eq htype := by
    obtain ⟨-, -, -, htype, -⟩ := column_serves (t.namedType_eq _ ▸ htype)
    exact htype
  size_eq htype := by
    obtain ⟨-, -, -, -, hsize⟩ := column_serves (t.namedType_eq _ ▸ htype)
    exact hsize

end Parquet.FileTable

end Pushdown
