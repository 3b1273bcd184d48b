-- SUMMARY: A Parquet table shows the sheet of its leaves with the row groups joined.
import Pushdown.Parquet.Table
import Pushdown.Proofs.Record
import Pushdown.Proofs.Scan

/-!
# Scanning Parquet tables

In a consistent file every row group has the rows that the footer claims, of the types of the schema. The
sheet of its table has the records of each leaf row group after row group. A missing value and bytes that
are no text are faults, and a scan fails exactly when it comes to one of them: in a row that an earlier
condition has ruled out they do no harm.
-/

namespace Pushdown

/-! ## Decoders -/

namespace RecordDecoder

variable {α : Type} {d : RecordDecoder α} {n : Nat}

/-- With the records at hand, what can go wrong is that the claim or the records end early. -/
theorem skip_eq (d : RecordDecoder α) (n : Nat) :
    d.skip n =
      if d.remaining < n then (.error (.truncatedSegment d.segment n d.remaining), d)
      else if (d.records.take n).length ≠ n then
        (.error (.truncatedSegment d.segment n (d.records.take n).length),
          { d with records := d.records.drop n })
      else (.ok (), { d with remaining := d.remaining - n, records := d.records.drop n }) := rfl

theorem next_eq (d : RecordDecoder α) :
    d.next =
      if d.remaining = 0 then (.error (.truncatedSegment d.segment 1 0), d)
      else
        match d.records with
        | [] => (.error (.truncatedSegment d.segment 1 0), d)
        | record :: records =>
          (record.read d.segment, { d with remaining := d.remaining - 1, records }) := by
  obtain ⟨segment, remaining, records⟩ := d
  cases records <;> rfl

theorem skip_of_lt (h : d.remaining < n) :
    d.skip n = (.error (.truncatedSegment d.segment n d.remaining), d) := by
  rw [skip_eq, if_pos h]

/-- With as many records as were claimed, rows that are left can be passed over. -/
theorem skip_of_le (hclaim : d.remaining = d.records.length) (h : n ≤ d.remaining) :
    d.skip n = (.ok (), { d with remaining := d.remaining - n, records := d.records.drop n }) := by
  have htaken : (d.records.take n).length = n := List.length_take_of_le (hclaim ▸ h)
  rw [skip_eq, if_neg (Nat.not_lt.mpr h)]
  simp [htaken]

/-- The decoder has as many records before it as the footer claims, and they read as the cells. -/
structure Ahead (d : RecordDecoder α) (rest : Cells α) : Prop where
  remaining_eq : d.remaining = d.records.length
  rest_eq : rest = d.records.map (Stored.read d.segment)

theorem Ahead.skip {rest : Cells α} (h : d.Ahead rest) (hle : n ≤ rest.length) :
    ∃ d', d.skip n = (.ok (), d') ∧ d'.Ahead (rest.drop n) := by
  obtain ⟨hremaining, rfl⟩ := h
  rw [List.length_map, ← hremaining] at hle
  exact ⟨_, skip_of_le hremaining hle, by simp [hremaining], List.map_drop.symm⟩

theorem Ahead.next {cell : Except Failure α} {rest : Cells α}
    (h : d.Ahead (cell :: rest)) : ∃ d', d.next = (cell, d') ∧ d'.Ahead rest := by
  obtain ⟨segment, remaining, records⟩ := d
  obtain ⟨hremaining, hcells⟩ := h
  cases records with
  | nil => cases hcells
  | cons record records =>
    cases hcells
    dsimp only at hremaining
    obtain rfl := hremaining
    exact ⟨⟨segment, records.length, records⟩, rfl, rfl, rfl⟩

end RecordDecoder

namespace Parquet

open Record

/-! ## Consistent files -/

/-- Every row group follows the schema and has the rows that the footer claims. -/
def File.Consistent (file : File) : Prop :=
  ∀ group ∈ file.rowGroups, ∃ n : Nat, group.claimedRows = n ∧ group.batch.Follows file.schema n

theorem claimedSizes_eq {groups : List RowGroup} (h : ∀ group ∈ groups, 0 ≤ group.claimedRows)
    (segment : Nat) : claimedSizes segment groups = .ok (groups.map (·.claimedRows.toNat)) := by
  induction groups generalizing segment with
  | nil => rfl
  | cons group groups ih =>
    obtain ⟨hgroup, hgroups⟩ := List.forall_mem_cons.mp h
    rw [claimedSizes, if_neg (by omega), ih hgroups]
    rfl

theorem FileTable.ofFile_eq {file : File} (h : file.Consistent) :
    ofFile file = .ok { file, rowGroupSizes := file.rowGroups.map (·.claimedRows.toNat) } := by
  have hclaims : ∀ group ∈ file.rowGroups, 0 ≤ group.claimedRows := by
    intro group hgroup
    obtain ⟨n, hclaim, -⟩ := h group hgroup
    omega
  rw [ofFile, claimedSizes_eq hclaims]
  rfl

/-! ## The array of a leaf -/

/-- The type of column that values of the physical type make, if they can be scanned. -/
def PhysicalType.columnType? : PhysicalType → Option ColumnType
  | .double => some .float64
  | .int32 => some .int32
  | .byteArray => some .utf8
  | .boolean | .int64 | .float | .fixedLenByteArray => none

/-- A leaf that is not repeated has an array of its physical type, with `n` slots. -/
inductive Leaf.Fits (n : Nat) : Leaf → Option LeafArray → Prop
  | repeated (name : String) (type : PhysicalType) : Fits n ⟨name, type, true⟩ none
  | single (name : String) (array : LeafArray) (h : array.length = n) :
      Fits n ⟨name, Parquet.physicalType array.type, false⟩ (some array)

theorem leavesOf_fits {n : Nat} {field : Field} {array : ColumnArray}
    (htype : array.type = field.type) (hfills : array.Fills n) :
    List.Forall₂ (Leaf.Fits n) (leavesOf field) (leafArrays array) := by
  unfold leavesOf
  rw [← htype]
  cases array with
  | leaf array => exact .cons (.single _ _ hfills) .nil
  | list itemName item present => exact .cons (.repeated _ _) .nil
  | struct fields =>
    show List.Forall₂ _ ((fields.map _).map _) (fields.map _)
    rw [List.map_map, List.forall₂_map_left_iff, List.forall₂_map_right_iff, List.forall₂_same]
    exact fun field hfield => .single _ _ (hfills field hfield)

theorem leaves_fit {n : Nat} {schema : List Field} {batch : Batch} (h : batch.Follows schema n) :
    List.Forall₂ (Leaf.Fits n) (schema.flatMap leavesOf) (batch.arrays.flatMap leafArrays) := by
  obtain ⟨arrays⟩ := batch
  obtain ⟨htypes, hfills⟩ := h
  dsimp only at htypes hfills ⊢
  induction arrays generalizing schema with
  | nil =>
    obtain rfl := List.map_eq_nil_iff.mp htypes.symm
    exact .nil
  | cons array arrays ih =>
    obtain ⟨field, schema, rfl, htype, hrest⟩ := List.map_eq_cons_iff.mp htypes.symm
    obtain ⟨harray, harrays⟩ := List.forall_mem_cons.mp hfills
    exact List.rel_append (leavesOf_fits htype.symm harray) (ih hrest.symm harrays)

/-- The array of a leaf that is not repeated. -/
theorem leafArray_of_follows {n column : Nat} {schema : List Field} {batch : Batch} {leaf : Leaf}
    (h : batch.Follows schema n) (hleaf : (schema.flatMap leavesOf)[column]? = some leaf)
    (hsingle : leaf.repeated = false) :
    ∃ array, (batch.arrays.flatMap leafArrays)[column]?.join = some array ∧
      physicalType array.type = leaf.physicalType ∧ array.length = n := by
  have hfits := leaves_fit h
  obtain ⟨hlt, hget⟩ := List.getElem?_eq_some_iff.mp hleaf
  have hlt' : column < (batch.arrays.flatMap leafArrays).length := hfits.length_eq ▸ hlt
  have hfit : leaf.Fits n (batch.arrays.flatMap leafArrays)[column] := hget ▸ hfits.get hlt hlt'
  rw [List.getElem?_eq_getElem hlt']
  generalize (batch.arrays.flatMap leafArrays)[column] = slot at hfit
  cases hfit with
  | repeated => cases hsingle
  | single name array hlength => exact ⟨array, rfl, rfl, hlength⟩

/-! ## Records -/

theorem length_floatRecords {array : LeafArray}
    (h : (physicalType array.type).columnType? = some .float64) :
    (floatRecords array).length = array.length := by
  cases array with
  | float64 values => exact List.length_map _
  | plain type => cases type <;> cases h
  | integer | text | binary | dictionary => cases h

theorem length_integerRecords {array : LeafArray}
    (h : (physicalType array.type).columnType? = some .int32) :
    (integerRecords array).length = array.length := by
  cases array with
  | integer type values => exact List.length_map _
  | plain type => cases type <;> cases h
  | float64 | text | binary | dictionary => cases h

theorem length_textRecords {array : LeafArray}
    (h : (physicalType array.type).columnType? = some .utf8) :
    (textRecords array).length = array.length := by
  cases array with
  | text | binary | dictionary => exact List.length_map _
  | plain type => cases type <;> cases h
  | float64 | integer => cases h

namespace FileTable

variable {t : FileTable}

/-- The table of a consistent file, with the sizes that its footer claims. -/
structure WellFormed (t : FileTable) : Prop where
  consistent : t.file.Consistent
  sizes_eq : t.rowGroupSizes = t.file.rowGroups.map (·.claimedRows.toNat)

theorem wellFormed_of_ofFile {file : File} (h : file.Consistent) (hopen : ofFile file = .ok t) :
    t.WellFormed := by
  rw [ofFile_eq h] at hopen
  cases hopen
  exact ⟨h, rfl⟩

/-- A leaf has a type if it is not repeated and stored as values of that type. -/
theorem columnType_eq_ok {position : Nat} {columnType : ColumnType} :
    t.columnType position = .ok columnType ↔
      ∃ leaf, t.leaves[position]? = some leaf ∧ leaf.repeated = false ∧
        leaf.physicalType.columnType? = some columnType := by
  unfold FileTable.columnType leaf?
  cases hleaf : t.leaves[position]? with
  | none => simp [bind, Except.bind]
  | some leaf =>
    obtain ⟨name, type, repeated⟩ := leaf
    cases repeated with
    | true => simp [bind, Except.bind, throw, throwThe, MonadExceptOf.throw]
    | false => cases type <;> simp [PhysicalType.columnType?, bind, Except.bind, pure, Except.pure,
        throw, throwThe, MonadExceptOf.throw]

theorem columnType_ne_dictionary {position : Nat} : t.columnType position ≠ .ok .dictionary := by
  intro h
  obtain ⟨leaf, -, -, hphysical⟩ := columnType_eq_ok.mp h
  cases hvalue : leaf.physicalType <;> rw [hvalue] at hphysical <;> cases hphysical

/-- The cells of a leaf, one list for each row group. -/
def parts {α : Type} (t : FileTable) (read : LeafArray → List (Stored α)) (column : Nat) :
    List (Cells α) :=
  (List.range t.rowGroupSizes.length).map fun segment =>
    (t.records read column segment).map (Stored.read segment)

/-- There is a record for every row that the footer claims. -/
def Complete {α : Type} (t : FileTable) (read : LeafArray → List (Stored α)) (column : Nat) : Prop :=
  ∀ segment size, t.rowGroupSizes[segment]? = some size →
    (t.records read column segment).length = size

theorem complete_of_columnType {α : Type} (h : t.WellFormed) {read : LeafArray → List (Stored α)}
    {position : Nat} {columnType : ColumnType} (htype : t.columnType position = .ok columnType)
    (hread : ∀ {array : LeafArray}, (physicalType array.type).columnType? = some columnType →
      (read array).length = array.length) : t.Complete read position := by
  intro segment size hsize
  obtain ⟨leaf, hleaf, hsingle, hphysical⟩ := columnType_eq_ok.mp htype
  rw [h.sizes_eq, List.getElem?_map] at hsize
  obtain ⟨group, hgroup, rfl⟩ := Option.map_eq_some_iff.mp hsize
  obtain ⟨n, hclaim, hfollows⟩ := h.consistent group (List.mem_of_getElem? hgroup)
  obtain ⟨array, harray, harrayType, hlength⟩ := leafArray_of_follows hfollows hleaf hsingle
  unfold records
  rw [hgroup]
  dsimp only
  rw [harray, hread (harrayType ▸ hphysical), hlength, hclaim]
  rfl

theorem parts_eq_some {α : Type} {read : LeafArray → List (Stored α)} {column segment : Nat}
    {part : Cells α} (h : (t.parts read column)[segment]? = some part) :
    ∃ size, t.rowGroupSizes[segment]? = some size ∧
      part = (t.records read column segment).map (Stored.read segment) := by
  rw [parts, List.getElem?_map] at h
  obtain ⟨found, hfound, rfl⟩ := Option.map_eq_some_iff.mp h
  obtain ⟨hlt, hsame⟩ := List.getElem?_eq_some_iff.mp hfound
  rw [List.getElem_range] at hsame
  subst hsame
  exact ⟨_, List.getElem?_eq_getElem (by simpa using hlt), rfl⟩

section

variable {ρ α : Type} {opened : Nat → Except Failure ρ} {reader : RecordReader ρ α} {segment size : Nat}

@[simp] theorem segmentsFrom_count : (t.segmentsFrom opened reader).count = t.rowGroupSizes.length := rfl

theorem segmentsFrom_size (h : t.rowGroupSizes[segment]? = some size) :
    (t.segmentsFrom opened reader).size segment = .ok size := by
  simp [segmentsFrom, h]

theorem segmentsFrom_decoder (h : t.rowGroupSizes[segment]? = some size) {records : ρ}
    (hopened : opened segment = .ok records) :
    (t.segmentsFrom opened reader).decoder segment = .ok ⟨segment, size, records⟩ := by
  simp [segmentsFrom, h, hopened, Except.map]

end

theorem segments_decoder {α : Type} {read : LeafArray → List (Stored α)} {column segment size : Nat}
    (h : t.rowGroupSizes[segment]? = some size) :
    (t.segments read column).decoder segment = .ok ⟨segment, size, t.records read column segment⟩ :=
  segmentsFrom_decoder h rfl

@[simp] theorem segments_skip {α : Type} (t : FileTable) (read : LeafArray → List (Stored α)) (column : Nat) :
    (t.segments read column).skip = RecordDecoder.skip := rfl

@[simp] theorem segments_next {α : Type} (t : FileTable) (read : LeafArray → List (Stored α)) (column : Nat) :
    (t.segments read column).next = RecordDecoder.next := rfl

/-- The row groups are segments that hold the records, where the footer claims as many as there are. -/
theorem segments_holds {α : Type} {read : LeafArray → List (Stored α)} {column : Nat}
    (h : t.Complete read column) :
    (t.segments read column).Holds (t.parts read column) RecordDecoder.Ahead where
  count := by simp [segments, parts]
  size {segment part} hpart := by
    obtain ⟨size, hsize, rfl⟩ := parts_eq_some hpart
    rw [List.length_map, h _ _ hsize]
    exact segmentsFrom_size hsize
  decoder {segment part} hpart := by
    obtain ⟨size, hsize, rfl⟩ := parts_eq_some hpart
    exact ⟨_, segments_decoder hsize, (h _ _ hsize).symm, rfl⟩
  skip := RecordDecoder.Ahead.skip
  next := RecordDecoder.Ahead.next

theorem map_length_parts {α : Type} {read : LeafArray → List (Stored α)} {column : Nat}
    (h : t.Complete read column) : (t.parts read column).map List.length = t.rowGroupSizes := by
  rw [parts, List.map_map]
  apply List.ext_getElem (by simp)
  intro segment _ hlt
  simp [h _ _ (List.getElem?_eq_getElem hlt)]

theorem length_flatten_parts {α : Type} {read : LeafArray → List (Stored α)} {column : Nat}
    (h : t.Complete read column) : (t.parts read column).flatten.length = t.rows := by
  rw [List.length_flatten, map_length_parts h]
  rfl

/-! ## The sheet -/

/-- The leaves with their row groups joined. -/
def sheet (t : FileTable) : Sheet where
  rows := t.rows
  content position :=
    match t.columnType position with
    | .ok .float64 => .float64 (t.parts floatRecords position).flatten
    | .ok .int32 => .int32 (t.parts integerRecords position).flatten
    | _ => .utf8 (t.parts textRecords position).flatten

theorem namedType_eq (t : FileTable) (position : Nat) :
    t.toTable.namedType position = t.columnType position := by
  show (if t.leaves.length ≤ position then _ else t.columnType position) = _
  by_cases h : t.leaves.length ≤ position
  · rw [if_pos h, columnType, leaf?, List.getElem?_eq_none h]
    rfl
  · rw [if_neg h]

/-- A leaf with a type holds its records, one for each row. -/
theorem column_of_columnType (h : t.WellFormed) {position : Nat} {columnType : ColumnType}
    (htype : t.columnType position = .ok columnType) :
    ∃ column, t.column position = .ok column ∧ column.Holds (t.sheet.content position) ∧
      (t.sheet.content position).columnType = columnType ∧
      (t.sheet.content position).size = t.rows ∧ (t.sheet.content position).Sound := by
  unfold FileTable.column sheet
  dsimp only
  rw [htype]
  cases columnType with
  | float64 =>
    have hrecords := complete_of_columnType h htype length_floatRecords
    exact ⟨_, rfl, .float64 ⟨_, _, segments_holds hrecords, rfl⟩, rfl, length_flatten_parts hrecords,
      trivial⟩
  | int32 =>
    have hrecords := complete_of_columnType h htype length_integerRecords
    exact ⟨_, rfl, .int32 ⟨_, _, segments_holds hrecords, rfl⟩, rfl, length_flatten_parts hrecords,
      trivial⟩
  | utf8 =>
    have hrecords := complete_of_columnType h htype length_textRecords
    exact ⟨_, rfl, .utf8 ⟨_, _, segments_holds hrecords, rfl⟩, rfl, length_flatten_parts hrecords,
      trivial⟩
  | dictionary => exact absurd htype columnType_ne_dictionary

theorem shows_sheet (h : t.WellFormed) : t.toTable.Shows t.sheet where
  rows_eq := rfl
  holds htype := by
    obtain ⟨column, hcolumn, hholds, -⟩ := column_of_columnType h (t.namedType_eq _ ▸ htype)
    exact ⟨column, hcolumn, hholds⟩
  columnType_eq htype := by
    obtain ⟨-, -, -, htype, -⟩ := column_of_columnType h (t.namedType_eq _ ▸ htype)
    exact htype
  size_eq htype := by
    obtain ⟨-, -, -, -, hsize, -⟩ := column_of_columnType h (t.namedType_eq _ ▸ htype)
    exact hsize
  sound htype := by
    obtain ⟨-, -, -, -, -, hsound⟩ := column_of_columnType h (t.namedType_eq _ ▸ htype)
    exact hsound

end FileTable

end Parquet

end Pushdown
