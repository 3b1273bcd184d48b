-- SUMMARY: The leaf of a field on disk and the field in memory hold the same values.
import Pushdown.Proofs.Agreement
import Pushdown.Proofs.Parquet.Stored

/-!
# Leaves and fields

A file in place numbers its columns by leaves, a loaded table numbers them by fields. A field that is a leaf
itself stands, among the leaves, behind all leaves of the fields before it. The records of this leaf are the
slots that are loaded for the field, so at these two positions the two tables hold the same values.
-/

namespace Pushdown.Parquet

open Record PartialColumn MemoryTable

/-! ## The leaf of a field -/

/-- The number of leaves before those of the field at a position. -/
def leavesBefore (schema : List Field) (position : Nat) : Nat :=
  ((schema.take position).flatMap leavesOf).length

theorem flatMap_eq_of_singleton {α β : Type} {parts : α → List β} {entries : List α} {position : Nat}
    {entry : α} {part : β} (hentry : entries[position]? = some entry) (hpart : parts entry = [part]) :
    entries.flatMap parts =
      (entries.take position).flatMap parts ++ part :: (entries.drop (position + 1)).flatMap parts := by
  obtain ⟨hlt, hget⟩ := List.getElem?_eq_some_iff.mp hentry
  conv_lhs => rw [← List.take_append_drop position entries, List.drop_eq_getElem_cons hlt, hget]
  rw [List.flatMap_append, List.flatMap_cons, hpart]
  rfl

theorem getElem?_flatMap_of_singleton {α β : Type} {parts : α → List β} {entries : List α} {position : Nat}
    {entry : α} {part : β} (hentry : entries[position]? = some entry) (hpart : parts entry = [part]) :
    (entries.flatMap parts)[((entries.take position).flatMap parts).length]? = some part := by
  rw [flatMap_eq_of_singleton hentry hpart, List.getElem?_append_right (Nat.le_refl _), Nat.sub_self]
  rfl

theorem leaf_of_field {schema : List Field} {position : Nat} {field : Field} {type : LeafType}
    (hfield : schema[position]? = some field) (htype : field.type = .leaf type) :
    (schema.flatMap leavesOf)[leavesBefore schema position]? =
      some ⟨field.name, physicalType type, false⟩ :=
  getElem?_flatMap_of_singleton hfield (by rw [leavesOf, htype])

/-- In batches that follow a schema, the leaves before a field are as many as those of the schema. -/
theorem length_leafArrays {schema : List Field} {batch : Batch} {n : Nat} (h : batch.Follows schema n)
    (position : Nat) :
    ((batch.arrays.take position).flatMap leafArrays).length = leavesBefore schema position := by
  have hbefore : Batch.Follows ⟨batch.arrays.take position⟩ (schema.take position) n :=
    ⟨by rw [List.map_take, List.map_take, h.types],
      fun other hother => h.fills other (List.mem_of_mem_take hother)⟩
  exact (leaves_fit hbefore).length_eq.symm

theorem leafArray_of_field {schema : List Field} {batch : Batch} {n position : Nat} {array : LeafArray}
    (h : batch.Follows schema n) (harray : batch.arrays[position]? = some (.leaf array)) :
    (batch.arrays.flatMap leafArrays)[leavesBefore schema position]?.join = some array := by
  rw [← length_leafArrays h, getElem?_flatMap_of_singleton harray rfl]
  rfl

namespace FileTable

variable {t : FileTable} {α : Type}

/-- The records of the leaf are the slots of the field. -/
theorem records_of_field (hfile : t.file.Counted) {read : LeafArray → List (Option α)}
    {readRecords : LeafArray → List (Stored α)} {position : Nat} {field : Field} {type : LeafType}
    (hfield : t.file.schema[position]? = some field) (htype : field.type = .leaf type)
    (hread : ∀ {array : LeafArray}, array.type = type → readRecords array = (read array).map stored)
    {segment : Nat} {group : RowGroup} (hgroup : t.file.rowGroups[segment]? = some group) :
    t.records readRecords (leavesBefore t.file.schema position) segment =
      (group.batch.slots read position).map stored := by
  have hfollows := hfile.follows (List.mem_of_getElem? hgroup)
  obtain ⟨array, harray, harrayType⟩ := Batch.array_of_field hfollows.types hfield
  rw [htype] at harrayType
  cases array with
  | leaf array =>
    have hleaf := leafArray_of_field hfollows harray
    rw [records, hgroup]
    dsimp only
    rw [hleaf, Batch.slots, harray]
    exact hread (DataType.leaf.inj harrayType)
  | list | struct => cases harrayType

/-- Where every slot has a value, the cells of the leaf are these values. -/
theorem flatten_parts_of_slots (hwell : t.WellFormed) {read : LeafArray → List (Option α)}
    {readRecords : LeafArray → List (Stored α)} {column position : Nat}
    (hrecords : ∀ {segment group}, t.file.rowGroups[segment]? = some group →
      t.records readRecords column segment = (group.batch.slots read position).map stored)
    {values : List α}
    (hvalues : (t.file.rowGroups.flatMap fun group => group.batch.slots read position) =
      values.map some) :
    (t.parts readRecords column).flatten = Cells.ofValues values := by
  have hsome : ∀ group ∈ t.file.rowGroups, group.batch.slots read position =
      ((group.batch.slots read position).filterMap id).map some := by
    intro group hgroup
    refine map_some_of_any (List.any_eq_false.mpr ?_)
    intro slot hslot
    have hmem : slot ∈ values.map some := hvalues ▸ List.mem_flatMap.mpr ⟨group, hgroup, hslot⟩
    obtain ⟨value, -, rfl⟩ := List.mem_map.mp hmem
    simp
  have hparts : t.parts readRecords column = t.file.rowGroups.map fun group =>
      Cells.ofValues ((group.batch.slots read position).filterMap id) := by
    apply List.ext_getElem (by simp [parts, hwell.sizes_eq])
    intro segment _ hlt
    have hlt : segment < t.file.rowGroups.length := by simpa using hlt
    rw [List.getElem_map]
    simp only [parts, List.getElem_map, List.getElem_range]
    rw [hrecords (List.getElem?_eq_getElem hlt), hsome _ (List.getElem_mem hlt), List.map_map,
      List.map_map]
    simp [Cells.ofValues, Function.comp_def, stored, Stored.read]
  rw [hparts, ← List.flatMap_def]
  have hflat := congrArg (List.filterMap id) hvalues
  rw [List.filterMap_flatMap] at hflat
  simp only [Cells.ofValues, ← List.map_flatMap]
  rw [hflat]
  simp

/-! ## The same values in both tables -/

variable {settings : LoadSettings} {position : Nat} {field : Field} {columnType : ColumnType}

/-- A field that can be loaded is a leaf of the type that its column has without a dictionary. -/
theorem leafType_of_scannable (h : Scannable settings field.type columnType) :
    ∃ type, field.type = .leaf type ∧ type ≠ .binary ∧
      (physicalType type).columnType? = some columnType.plain := by
  generalize htype : field.type = type at h
  cases h with
  | float64 | int32 | utf8 | encoded | dictionary => exact ⟨_, rfl, nofun, rfl⟩

theorem columnType_of_scannable (hfield : t.file.schema[position]? = some field)
    (h : Scannable settings field.type columnType) :
    t.columnType (leavesBefore t.file.schema position) = .ok columnType.plain := by
  obtain ⟨type, htype, -, hphysical⟩ := leafType_of_scannable h
  exact columnType_eq_ok.mpr ⟨_, leaf_of_field hfield htype, rfl, hphysical⟩

/-- What is loaded from the slots of the row groups is what the leaf of the field holds. -/
theorem content_of_readsAs (hwell : t.WellFormed) (hfile : t.file.Counted)
    (hfield : t.file.schema[position]? = some field) (h : Scannable settings field.type columnType)
    {arrays : List ColumnArray} {content : Content} (hreads : ReadsAs arrays content)
    (hcontent : content.columnType = columnType.plain)
    (hslots : ∀ {β : Type} {read : LeafArray → List (Option β)}, LeafArray.Slotwise read →
      ReadsBack read → arrays.flatMap (ColumnArray.slots read) =
        t.file.rowGroups.flatMap fun group => group.batch.slots read position) :
    t.sheet.content (leavesBefore t.file.schema position) = content := by
  have hcolumn := columnType_of_scannable hfield h
  obtain ⟨type, htype, hbinary, -⟩ := leafType_of_scannable h
  rw [← hcontent] at hcolumn
  unfold sheet
  dsimp only
  rw [hcolumn]
  cases hreads with
  | float64 hvalues =>
    rw [hslots LeafArray.slotwise_floats readsBack_floats] at hvalues
    exact congrArg Content.float64 (flatten_parts_of_slots hwell
      (records_of_field hfile hfield htype fun {array} _ => floatRecords_eq array) hvalues)
  | int32 hvalues =>
    rw [hslots LeafArray.slotwise_integers readsBack_integers] at hvalues
    exact congrArg Content.int32 (flatten_parts_of_slots hwell
      (records_of_field hfile hfield htype fun {array} _ => integerRecords_eq array) hvalues)
  | utf8 hvalues =>
    rw [hslots LeafArray.slotwise_texts readsBack_texts] at hvalues
    exact congrArg Content.utf8 (flatten_parts_of_slots hwell
      (records_of_field hfile hfield htype fun {array} harray => textRecords_eq (harray ▸ hbinary))
      hvalues)

variable {loaded : MemoryTable} {batchSize : Nat}

/-- The leaf of a field and the column loaded for it hold the same values. -/
theorem plain_eq_of_field (hwell : t.WellFormed) (hfile : t.file.Counted)
    (hload : loaded.LoadedFrom settings t.file.schema (t.file.toBatchFile batchSize).batches)
    (haddressable : ∀ column ∈ loaded.columns, Addressable column.data)
    (hfield : t.file.schema[position]? = some field) (h : Scannable settings field.type columnType) :
    t.sheet.content (leavesBefore t.file.schema position) = (loaded.sheet.content position).plain := by
  obtain ⟨loader, hloader, htook⟩ := hload.column hfield
  have htype : loader.toData.columnType? = some columnType :=
    htook.columnType?_eq.trans (scannable_iff.mpr h)
  rw [content_sheet hloader]
  refine content_of_readsAs hwell hfile hfield h
    (htook.readsAs htype (haddressable _ (List.mem_of_getElem? hloader))) ?_ fun hread hback => ?_
  · rw [Content.columnType_plain, ColumnChunks.columnType_content htype]
  · rw [slots_arraysAt, slots_toBatchFile hfile hread hback]

/-- A table in place has the rows of its row groups. -/
theorem rows_eq_of_counted (hwell : t.WellFormed) (hfile : t.file.Counted) :
    t.rows = (t.file.rowGroups.map fun group => group.batch.rows).sum := by
  rw [rows, hwell.sizes_eq]
  congr 1
  apply List.map_congr_left
  intro group hgroup
  rw [hfile.claimed_eq hgroup, Int.toNat_natCast]

theorem rows_eq_of_loaded (hwell : t.WellFormed) (hfile : t.file.Counted)
    (hload : loaded.LoadedFrom settings t.file.schema (t.file.toBatchFile batchSize).batches) :
    t.rows = loaded.rows := by
  rw [rows_eq_of_counted hwell hfile, hload.rows_eq, rows_toBatchFile hfile]

/-- Both tables agree where no other leaf stands at the position of a field. -/
theorem sameColumns_of_loaded (hwell : t.WellFormed) (hfile : t.file.Counted)
    (hload : loaded.LoadedFrom settings t.file.schema (t.file.toBatchFile batchSize).batches)
    (haddressable : ∀ column ∈ loaded.columns, Addressable column.data)
    (h : ∀ {position columnType loadedType}, t.columnType position = .ok columnType →
      loaded.toTable.namedType position = .ok loadedType →
        leavesBefore t.file.schema position = position) :
    t.toTable.SameColumns loaded.toTable t.sheet loaded.sheet where
  shows_sheet := shows_sheet hwell
  shows_other := MemoryTable.shows_sheet (hload.wellFormed haddressable)
  rows_eq := rows_eq_of_loaded hwell hfile hload
  sameColumn {position columnType loadedType} htype hloaded := by
    obtain ⟨field, hfield, hscannable⟩ := hload.scannable_of_namedType hloaded
    have hposition := h (namedType_eq t position ▸ htype) hloaded
    have hsame := plain_eq_of_field hwell hfile hload haddressable hfield hscannable
    rw [hposition] at hsame
    rw [Sheet.SameColumn, hsame, Content.plain_plain]

end FileTable

end Pushdown.Parquet
