-- SUMMARY: Reading on in a Parquet column after a row without a value.
import Pushdown.Proofs.Parquet.Faults
import Pushdown.Proofs.Segments.Straying

/-!
# Reading on in Parquet columns

A caller may go on reading a column after a read that came to a missing value or to bytes that are no text.
In the row group of such a row every later value is one that is stored further on: the decoder has gone past
the faulty record, and the next read skips as if it had not. It is further on by as many records as the failed
reads of that row group have used up. In the other row groups the values are those of the rows.
-/

namespace Pushdown

/-! ## Decoders at their end -/

theorem RecordDecoder.refuses {α : Type} (segments : Segments (RecordDecoder α) α)
    (hskip : segments.skip = RecordDecoder.skip) (hnext : segments.next = RecordDecoder.next) :
    segments.Refuses RecordDecoder.Ahead where
  skip {d rest n} hahead hlt := by
    have hrest : d.remaining < n := by
      rw [hahead.rest_eq, List.length_map, ← hahead.remaining_eq] at hlt
      exact hlt
    rw [hskip, RecordDecoder.skip_of_lt hrest]
    exact ⟨_, _, rfl, rfl, hahead⟩
  next {d} hahead := by
    have hnone : d.remaining = 0 := by
      rw [hahead.remaining_eq, List.length_eq_zero_iff]
      exact List.map_eq_nil_iff.mp hahead.rest_eq.symm
    rw [hnext, RecordDecoder.next_eq, if_pos hnone]
    exact ⟨_, _, rfl, rfl, hahead⟩

namespace Parquet

open Record

/-- How the records of a column of the type are read off the arrays of its leaf. -/
inductive Reads : {α : Type} → ColumnType → (LeafArray → List (Stored α)) → Prop
  | float64 : Reads .float64 floatRecords
  | int32 : Reads .int32 integerRecords
  | utf8 : Reads .utf8 textRecords

namespace FileTable

variable {t : FileTable} {α : Type} {read : LeafArray → List (Stored α)} {column : Nat}
  {columnType : ColumnType}

theorem complete_of_reads (h : t.WellFormed) (htype : t.columnType column = .ok columnType)
    (hreads : Reads columnType read) : t.Complete read column := by
  cases hreads with
  | float64 => exact complete_of_columnType h htype length_floatRecords
  | int32 => exact complete_of_columnType h htype length_integerRecords
  | utf8 => exact complete_of_columnType h htype length_textRecords

/-- A record without a value is a fault of the store. -/
theorem faulting_parts (t : FileTable) (read : LeafArray → List (Stored α)) (column : Nat) :
    Faulting (t.parts read column) := by
  intro part hpart e he
  obtain ⟨segment, -, rfl⟩ := List.mem_map.mp hpart
  obtain ⟨record, -, hrecord⟩ := List.mem_map.mp he
  rcases Stored.read_eq_error.mp hrecord with ⟨-, rfl⟩ | ⟨-, rfl⟩ <;> rfl

theorem liesIn_parts (h : t.Complete read column) {row segment offset : Nat} :
    (∃ part, LiesIn (t.parts read column) row segment offset part) ↔ t.Lies row segment offset := by
  have hstart : startOf (t.parts read column) segment = (t.rowGroupSizes.take segment).sum := by
    rw [startOf, map_length_parts h]
  constructor
  · rintro ⟨part, hpart, hoffset, hrow⟩
    obtain ⟨size, hsize, rfl⟩ := parts_eq_some hpart
    rw [List.length_map, h _ _ hsize] at hoffset
    exact ⟨⟨size, hsize, hoffset⟩, hstart ▸ hrow⟩
  · rintro ⟨⟨size, hsize, hoffset⟩, hrow⟩
    obtain ⟨hlt, -⟩ := List.getElem?_eq_some_iff.mp hsize
    refine ⟨(t.records read column segment).map (Stored.read segment), ?_, ?_, hstart ▸ hrow⟩
    · simp [parts, hlt]
    · rw [List.length_map, h _ _ hsize]
      exact hoffset

/-- A read of a row of the row group ended with a fault of the store. -/
def Struck (t : FileTable) (earlier : Transcript α) (segment : Nat) : Prop :=
  ∃ row e offset, (row, .error e) ∈ earlier ∧ e.isStoreFault = true ∧ t.Lies row segment offset

theorem struck_parts (h : t.Complete read column) {earlier : Transcript α} {segment : Nat} :
    Pushdown.Struck (t.parts read column) earlier segment ↔ t.Struck earlier segment := by
  simp only [Pushdown.Struck, Struck, ← liesIn_parts h, exists_and_left]

/-- A read that gives a value gives one of the same row group, as many records further on as earlier faults in that
    group have used up. It is that of the row asked for exactly as long as no read of a row of the group has come to
    a fault. -/
theorem value_eq_of_reading_on {file : File} (hfile : file.Consistent) (hopen : ofFile file = .ok t)
    (htype : t.columnType column = .ok columnType) (hreads : Reads columnType read) {rows : List Nat}
    {before after : Transcript α} {row : Nat} {value : α}
    (hread : ({} : Cursor (RecordDecoder α)).transcript (t.segments read column) rows =
      before ++ (row, .ok value) :: after) :
    ∃ segment offset lost, t.Lies row segment offset ∧
      (t.records read column segment)[offset + lost]? = some (.present value) ∧
      (lost = 0 ↔ ¬ t.Struck before segment) ∧ lost = (Progress.of t.rowGroupSizes segment before).lost := by
  have hcomplete := complete_of_reads (wellFormed_of_ofFile hfile hopen) htype hreads
  have hrefuses : (t.segments read column).Refuses RecordDecoder.Ahead :=
    RecordDecoder.refuses _ rfl rfl
  have hcomes := (Cursor.strayed_new (t.parts read column) RecordDecoder.Ahead).comes
    (segments_holds hcomplete) hrefuses (faulting_parts t read column) hread
  rw [List.nil_append] at hcomes
  cases hcomes with
  | @value segment offset part _ hrow hcell =>
    obtain ⟨size, -, rfl⟩ := parts_eq_some hrow.part_eq
    have hlost := Progress.lost_eq_zero_iff (t.parts read column) segment before
    rw [map_length_parts hcomplete] at hcell hlost
    rw [List.getElem?_map] at hcell
    obtain ⟨record, hrecord, hvalue⟩ := Option.map_eq_some_iff.mp hcell
    have hpresent : record = .present value := by
      cases record <;> cases hvalue
      rfl
    refine ⟨segment, offset, _, (liesIn_parts hcomplete).mp ⟨_, hrow⟩, hpresent ▸ hrecord, ?_, rfl⟩
    rw [hlost, struck_parts hcomplete]

/-! ## A read that goes too far -/

/-- One row group of four numbers, the second of which is missing. -/
def gapped : FileTable where
  file :=
    { schema := [⟨"n", .leaf (.integer .int32), true⟩]
      rowGroups := [⟨4, ⟨[.leaf (.integer .int32 [some 1, none, some 3, some 4])]⟩⟩] }
  rowGroupSizes := [4]

theorem consistent_gapped : gapped.file.Consistent := by
  intro group hgroup
  obtain rfl := List.mem_singleton.mp hgroup
  exact ⟨4, rfl, rfl, by simp [ColumnArray.Fills, LeafArray.length]⟩

theorem transcript_gapped :
    ({} : Cursor (RecordDecoder Int32)).transcript (gapped.segments integerRecords 0) [0, 1, 2] =
      [(0, .ok 1), (1, .error (.nullValue 0)), (2, .ok 4)] := by
  cbv

/-- After the read that came to the missing number, the third row is answered with the number one further. -/
theorem reads_on_past_missing_number :
    let earlier : Transcript Int32 := [(0, .ok 1), (1, .error (.nullValue 0))]
    gapped.file.Consistent ∧ ofFile gapped.file = .ok gapped ∧ gapped.columnType 0 = .ok .int32 ∧
      Reads .int32 integerRecords ∧
      ({} : Cursor (RecordDecoder Int32)).transcript (gapped.segments integerRecords 0) [0, 1, 2] =
        earlier ++ (2, .ok 4) :: [] ∧
      (Progress.of gapped.rowGroupSizes 0 earlier).lost = 1 ∧
      ∃ segment offset lost, gapped.Lies 2 segment offset ∧
        (gapped.records integerRecords 0 segment)[offset + lost]? = some (.present 4) ∧
        (lost = 0 ↔ ¬ gapped.Struck earlier segment) ∧
        lost = (Progress.of gapped.rowGroupSizes segment earlier).lost := by
  intro earlier
  have hopen : ofFile gapped.file = .ok gapped := rfl
  have htype : gapped.columnType 0 = .ok .int32 := rfl
  have hsplit : ({} : Cursor (RecordDecoder Int32)).transcript (gapped.segments integerRecords 0) [0, 1, 2] =
      earlier ++ (2, .ok 4) :: [] := transcript_gapped
  exact ⟨consistent_gapped, hopen, htype, .int32, hsplit, rfl,
    value_eq_of_reading_on consistent_gapped hopen htype .int32 hsplit⟩

/-- The third row holds another number than the one that is handed out for it. -/
theorem missing_number_shifts_later_read :
    gapped.file.Consistent ∧ ofFile gapped.file = .ok gapped ∧ gapped.columnType 0 = .ok .int32 ∧
      (2, .ok 4) ∈ ({} : Cursor (RecordDecoder Int32)).transcript (gapped.segments integerRecords 0) [0, 1, 2] ∧
      gapped.Lies 2 0 2 ∧ (gapped.records integerRecords 0 0)[2]? = some (.present 3) := by
  refine ⟨consistent_gapped, rfl, rfl, ?_, ⟨⟨4, rfl, by simp⟩, rfl⟩, rfl⟩
  rw [transcript_gapped]
  simp

end FileTable

end Parquet

end Pushdown
