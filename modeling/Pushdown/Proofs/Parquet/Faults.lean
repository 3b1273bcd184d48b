-- SUMMARY: Which scans of a Parquet table fail, and with what.
import Pushdown.Proofs.Parquet.Table

/-!
# Faults in Parquet tables

A row of a table lies at an offset of one row group. If the record there has no value, or bytes that are no
text, its cell is faulty and the fault names the row group. A scan fails exactly if it comes to a faulty
cell, with the fault of the first that it comes to.
-/

namespace Pushdown

/-- The record without its value. -/
def Stored.mark {α : Type} : Stored α → Stored Unit
  | .present _ => .present ()
  | .missing => .missing
  | .malformed => .malformed

theorem Stored.read_eq_error {α : Type} {record : Stored α} {segment : Nat} {e : Failure} :
    record.read segment = .error e ↔
      (record.mark = .missing ∧ e = .nullValue segment) ∨
        (record.mark = .malformed ∧ e = .invalidUtf8 segment) := by
  cases record with
  | present value => simp [Stored.read, Stored.mark]
  | missing => simp [Stored.read, Stored.mark, eq_comm]
  | malformed => simp [Stored.read, Stored.mark, eq_comm]

namespace Parquet.FileTable

open Record

variable {t : FileTable}

/-- The row lies in the row group, `offset` rows after its first. -/
structure Lies (t : FileTable) (row segment offset : Nat) : Prop where
  offset_lt : ∃ size, t.rowGroupSizes[segment]? = some size ∧ offset < size
  row_eq : (t.rowGroupSizes.take segment).sum + offset = row

/-- The records of a leaf in a row group, whatever the type of their values. -/
def marks (t : FileTable) (column segment : Nat) : List (Stored Unit) :=
  match t.columnType column with
  | .ok .float64 => (t.records floatRecords column segment).map Stored.mark
  | .ok .int32 => (t.records integerRecords column segment).map Stored.mark
  | _ => (t.records textRecords column segment).map Stored.mark

/-- The cell has no value, for the given reason. -/
inductive FaultAt (t : FileTable) (place : Sheet.Place) : Failure → Prop
  | missing {segment offset : Nat} (hrow : t.Lies place.row segment offset)
      (h : (t.marks place.column segment)[offset]? = some .missing) : FaultAt t place (.nullValue segment)
  | malformed {segment offset : Nat} (hrow : t.Lies place.row segment offset)
      (h : (t.marks place.column segment)[offset]? = some .malformed) :
      FaultAt t place (.invalidUtf8 segment)

/-- The cell has no value. -/
def Faulty (t : FileTable) (place : Sheet.Place) : Prop := ∃ e, t.FaultAt place e

/-! ## The row group of a row -/

theorem exists_offset {sizes : List Nat} {row : Nat} (h : row < sizes.sum) :
    ∃ segment offset, (∃ size, sizes[segment]? = some size ∧ offset < size) ∧
      (sizes.take segment).sum + offset = row := by
  induction sizes generalizing row with
  | nil => cases h
  | cons size sizes ih =>
    rw [List.sum_cons] at h
    rcases Nat.lt_or_ge row size with hlt | hge
    · exact ⟨0, row, ⟨size, rfl, hlt⟩, by simp⟩
    · have hrest : row - size < sizes.sum := by omega
      obtain ⟨segment, offset, hoffset, hsum⟩ := ih hrest
      refine ⟨segment + 1, offset, hoffset, ?_⟩
      rw [List.take_succ_cons, List.sum_cons]
      omega

theorem exists_lies {row : Nat} (h : row < t.rows) : ∃ segment offset, t.Lies row segment offset := by
  obtain ⟨segment, offset, hoffset, hrow⟩ := exists_offset h
  exact ⟨segment, offset, hoffset, hrow⟩

/-- The cell of a row is its record, read in the row group where it lies. -/
theorem cell_of_lies {α : Type} {read : LeafArray → List (Stored α)} {column row segment offset : Nat}
    (h : t.Complete read column) (hrow : t.Lies row segment offset) :
    ∃ record, (t.records read column segment)[offset]? = some record ∧
      Cells.cell (t.parts read column).flatten row = record.read segment := by
  obtain ⟨⟨size, hsize, hoffset⟩, rfl⟩ := hrow
  obtain ⟨hlt, -⟩ := List.getElem?_eq_some_iff.mp hsize
  have hrecords := h _ _ hsize
  have hpart : (t.parts read column)[segment]? =
      some ((t.records read column segment).map (Stored.read segment)) := by
    simp [parts, hlt]
  have hlength : offset < ((t.records read column segment).map (Stored.read segment)).length := by
    simpa [hrecords] using hoffset
  have hcell := cell_startOf hpart hlength
  rw [startOf, map_length_parts h, List.getElem_map] at hcell
  exact ⟨_, List.getElem?_eq_getElem _, hcell⟩

/-! ## Faulty cells -/

theorem fault?_parts_eq_some {α : Type} {read : LeafArray → List (Stored α)} {place : Sheet.Place}
    (h : t.Complete read place.column)
    (hmarks : ∀ segment, t.marks place.column segment =
      (t.records read place.column segment).map Stored.mark)
    (hrow : place.row < t.rows) {e : Failure} :
    Cells.fault? (t.parts read place.column).flatten place.row = some e ↔ t.FaultAt place e := by
  have hmark : ∀ {segment offset : Nat} {record : Stored α}, (t.records read place.column segment)[offset]? = some record →
      (t.marks place.column segment)[offset]? = some record.mark := by
    intro segment offset record hrecord
    rw [hmarks, List.getElem?_map, hrecord]
    rfl
  rw [Cells.fault?_eq_some]
  constructor
  · intro hfault
    obtain ⟨segment, offset, hlies⟩ := exists_lies hrow
    obtain ⟨record, hrecord, hcell⟩ := cell_of_lies h hlies
    rw [hcell, Stored.read_eq_error] at hfault
    rcases hfault with ⟨hmissing, rfl⟩ | ⟨hmalformed, rfl⟩
    · exact .missing hlies (hmissing ▸ hmark hrecord)
    · exact .malformed hlies (hmalformed ▸ hmark hrecord)
  · intro hfault
    cases hfault with
    | missing hlies hmissing =>
      obtain ⟨record, hrecord, hcell⟩ := cell_of_lies h hlies
      rw [hmark hrecord] at hmissing
      exact hcell.trans (Stored.read_eq_error.mpr (.inl ⟨Option.some.inj hmissing, rfl⟩))
    | malformed hlies hmalformed =>
      obtain ⟨record, hrecord, hcell⟩ := cell_of_lies h hlies
      rw [hmark hrecord] at hmalformed
      exact hcell.trans (Stored.read_eq_error.mpr (.inr ⟨Option.some.inj hmalformed, rfl⟩))

theorem fault?_sheet_eq_some (h : t.WellFormed) {place : Sheet.Place} {columnType : ColumnType}
    (htype : t.columnType place.column = .ok columnType) (hrow : place.row < t.rows) {e : Failure} :
    t.sheet.fault? place = some e ↔ t.FaultAt place e := by
  unfold Sheet.fault? sheet
  dsimp only
  rw [htype]
  cases columnType with
  | float64 =>
    exact fault?_parts_eq_some (complete_of_columnType h htype length_floatRecords)
      (fun segment => by rw [marks, htype]) hrow
  | int32 =>
    exact fault?_parts_eq_some (complete_of_columnType h htype length_integerRecords)
      (fun segment => by rw [marks, htype]) hrow
  | utf8 =>
    exact fault?_parts_eq_some (complete_of_columnType h htype length_textRecords)
      (fun segment => by rw [marks, htype]) hrow
  | dictionary => exact absurd htype columnType_ne_dictionary

/-! ## Scans -/

variable {query : Query} {predicates : List Predicate}

theorem faulty_iff_of_mem_met (h : t.WellFormed) (hcheck : t.toTable.check query = .ok predicates)
    {place : Sheet.Place} (hplace : place ∈ t.sheet.met query predicates) {e : Failure} :
    t.sheet.fault? place = some e ↔ t.FaultAt place e := by
  obtain ⟨columnType, htype⟩ := Table.namedType_of_mem_met hcheck hplace
  rw [namedType_eq] at htype
  exact fault?_sheet_eq_some h htype (Sheet.place_of_mem_met hplace).1

theorem fault?_eq_none_iff (h : t.WellFormed) (hcheck : t.toTable.check query = .ok predicates)
    {place : Sheet.Place} (hplace : place ∈ t.sheet.met query predicates) :
    t.sheet.fault? place = none ↔ ¬ t.Faulty place := by
  rw [Option.eq_none_iff_forall_ne_some, Faulty, not_exists]
  exact forall_congr' fun e => not_congr (faulty_iff_of_mem_met h hcheck hplace)

/-- A checked query fails exactly if the scan comes to a faulty cell. It fails with the fault of the
    first of them, and without one it is answered from the leaves with their row groups joined. -/
theorem scan_fails_at_first_fault {file : File} (hfile : file.Consistent)
    (hopen : ofFile file = .ok t) (hcheck : t.toTable.check query = .ok predicates)
    (form : DictionaryForm) :
    ((∃ e, t.toTable.scan query form = .error e) ↔
        ∃ place ∈ t.sheet.met query predicates, t.Faulty place) ∧
      (∀ e, t.toTable.scan query form = .error e →
        ∃ earlier place later, t.sheet.met query predicates = earlier ++ place :: later ∧
          (∀ before ∈ earlier, ¬ t.Faulty before) ∧ t.FaultAt place e) ∧
      ((∀ place ∈ t.sheet.met query predicates, ¬ t.Faulty place) →
        t.toTable.scan query form = .ok (t.sheet.answer query predicates form)) := by
  have h := wellFormed_of_ofFile hfile hopen
  have hscan := Table.scan_eq (shows_sheet h) hcheck form
  have hnone : t.sheet.firstFault? query predicates = none ↔
      ∀ place ∈ t.sheet.met query predicates, ¬ t.Faulty place := by
    rw [Sheet.firstFault?, List.findSome?_eq_none_iff]
    exact forall₂_congr fun place hplace => fault?_eq_none_iff h hcheck hplace
  refine ⟨?_, ?_, ?_⟩
  · simp only [hscan, settle_eq_error]
    rw [← Option.isSome_iff_exists, Option.isSome_iff_ne_none, Ne, hnone]
    simp
  · intro e he
    rw [hscan, settle_eq_error, Sheet.firstFault?, List.findSome?_eq_some_iff] at he
    obtain ⟨earlier, place, later, hmet, hfault, hearlier⟩ := he
    have hmem : ∀ other ∈ earlier ++ place :: later, other ∈ t.sheet.met query predicates :=
      fun other hother => hmet ▸ hother
    refine ⟨earlier, place, later, hmet, ?_, ?_⟩
    · intro before hbefore
      exact (fault?_eq_none_iff h hcheck (hmem before (by simp [hbefore]))).mp (hearlier before hbefore)
    · exact (faulty_iff_of_mem_met h hcheck (hmem place (by simp))).mp hfault
  · intro hall
    rw [hscan, hnone.mpr hall]
    rfl

/-- The value that is missing in the second row does no harm, the one in the last row does. -/
theorem scan_fails_past_ruled_out_row :
    let schema : List Field := [⟨"key", .leaf (.text .utf8), false⟩, ⟨"n", .leaf (.integer .int32), true⟩]
    let first : Batch :=
      ⟨[.leaf (.text .utf8 [some "a", some "b"]), .leaf (.integer .int32 [some 1, none])]⟩
    let last : Batch := ⟨[.leaf (.text .utf8 [some "a"]), .leaf (.integer .int32 [none])]⟩
    let t : FileTable := ⟨⟨schema, [⟨2, first⟩, ⟨1, last⟩]⟩, [2, 1]⟩
    let query : Query := ⟨[1], [⟨0, .equal, "a"⟩]⟩
    t.file.Consistent ∧ ofFile t.file = .ok t ∧
      t.toTable.check query = .ok [⟨0, .equal, .utf8 "a"⟩] ∧
      t.sheet.met query [⟨0, .equal, .utf8 "a"⟩] = [⟨0, 0⟩, ⟨0, 1⟩, ⟨0, 2⟩, ⟨1, 0⟩, ⟨1, 2⟩] ∧
      t.FaultAt ⟨1, 2⟩ (.nullValue 1) ∧ ∃ e, t.toTable.scan query .strings = .error e := by
  intro schema first last t query
  have hfile : t.file.Consistent := by
    intro group hgroup
    rcases List.mem_pair.mp hgroup with rfl | rfl
    · exact ⟨2, rfl, rfl, by simp [first, ColumnArray.Fills, LeafArray.length]⟩
    · exact ⟨1, rfl, rfl, by simp [last, ColumnArray.Fills, LeafArray.length]⟩
  have hopen : ofFile t.file = .ok t := rfl
  have hcheck : t.toTable.check query = .ok [⟨0, .equal, .utf8 "a"⟩] := rfl
  have hmet : t.sheet.met query [⟨0, .equal, .utf8 "a"⟩] =
      [⟨0, 0⟩, ⟨0, 1⟩, ⟨0, 2⟩, ⟨1, 0⟩, ⟨1, 2⟩] := by decide
  have hfault : t.FaultAt ⟨1, 2⟩ (.nullValue 1) := .missing ⟨⟨1, rfl, Nat.one_pos⟩, rfl⟩ rfl
  refine ⟨hfile, hopen, hcheck, hmet, hfault, ?_⟩
  have hfails := (scan_fails_at_first_fault hfile hopen hcheck .strings).1
  exact hfails.mpr ⟨⟨1, 2⟩, by simp [hmet], _, hfault⟩

end Parquet.FileTable

end Pushdown
