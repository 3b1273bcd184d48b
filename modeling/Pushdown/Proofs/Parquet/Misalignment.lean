-- SUMMARY: A batch on which a file and the table loaded from it tell different columns under one number.
import Pushdown.Proofs.Parquet.Alignment

/-!
# Telling columns apart

The marked batch of a schema has one row. The field at one position holds ones, every other field holds
zeros. A leaf that does not belong to the marked field therefore reads differently from it, whatever the
types of the two are.
-/

namespace Pushdown.Parquet

open Record PartialColumn MemoryTable

/-! ## Marked arrays -/

def mark (marked : Bool) : String := if marked then "1" else "0"

/-- An array of one slot, which tells whether it is marked where its values can be scanned. -/
def markedLeaf (marked : Bool) : LeafType → LeafArray
  | .float64 => .float64 [some ⟨if marked then 1 else 0⟩]
  | .integer type => .integer type [some (if marked then 1 else 0)]
  | .text layout => .text layout [some (mark marked)]
  | .binary => .binary [some (mark marked).toUTF8]
  | .dictionary key value => .dictionary key value [some 0] [some (mark marked)]
  | .plain type => .plain type [true]

def markedArray (marked : Bool) : DataType → ColumnArray
  | .leaf type => .leaf (markedLeaf marked type)
  | .list itemName item => .list itemName item [true]
  | .struct fields => .struct (fields.map fun (name, type) => (name, markedLeaf marked type))

/-- One row in which the field at the position is marked. -/
def markedBatch (schema : List Field) (position : Nat) : Batch :=
  ⟨schema.zipIdx.map fun (field, place) => markedArray (place = position) field.type⟩

/-- The content of a marked column. -/
def markedContent (marked : Bool) : ColumnType → Content
  | .float64 => .float64 (.ofValues [⟨if marked then 1 else 0⟩])
  | .int32 => .int32 (.ofValues [if marked then 1 else 0])
  | .utf8 | .dictionary => .utf8 (.ofValues [mark marked])

theorem type_markedLeaf (marked : Bool) (type : LeafType) : (markedLeaf marked type).type = type := by
  cases type <;> rfl

theorem length_markedLeaf (marked : Bool) (type : LeafType) : (markedLeaf marked type).length = 1 := by
  cases type <;> rfl

theorem type_markedArray (marked : Bool) (type : DataType) : (markedArray marked type).type = type := by
  cases type with
  | leaf type => exact congrArg DataType.leaf (type_markedLeaf marked type)
  | list => rfl
  | struct fields => simp [markedArray, ColumnArray.type, type_markedLeaf, Function.comp_def]

theorem fills_markedArray (marked : Bool) (type : DataType) : (markedArray marked type).Fills 1 := by
  cases type with
  | leaf type => exact length_markedLeaf marked type
  | list => rfl
  | struct fields =>
    intro field hfield
    obtain ⟨⟨name, type⟩, -, rfl⟩ := List.mem_map.mp hfield
    exact length_markedLeaf marked type

theorem complete_markedLeaf (marked : Bool) (type : LeafType) : Complete (.leaf (markedLeaf marked type)) := by
  cases type with
  | dictionary key value => exact ⟨rfl, rfl, by simp⟩
  | float64 | integer | text | binary | plain => rfl

theorem writtenArray_markedArray (field : Field) (marked : Bool) (type : DataType) :
    writtenArray field (markedArray marked type) = markedArray marked type := by
  unfold writtenArray
  split
  · rfl
  · cases type with
    | leaf type => cases type <;> rfl
    | list | struct => rfl

theorem follows_markedBatch (schema : List Field) (position : Nat) :
    (markedBatch schema position).Follows schema 1 where
  types := List.ext_getElem (by simp [markedBatch]) fun place _ _ => by
    simp [markedBatch, type_markedArray]
  fills array harray := by
    obtain ⟨⟨field, place⟩, -, rfl⟩ := List.mem_map.mp harray
    exact fills_markedArray _ field.type

theorem writtenBatch_markedBatch (schema : List Field) (position : Nat) :
    writtenBatch schema (markedBatch schema position) = markedBatch schema position :=
  congrArg Batch.mk (List.ext_getElem (by simp [markedBatch]) fun place _ _ => by
    simp [markedBatch, writtenArray_markedArray])

/-- The array of the field at a place. -/
theorem array_markedBatch {schema : List Field} {place : Nat} {field : Field}
    (hfield : schema[place]? = some field) (position : Nat) :
    (markedBatch schema position).arrays[place]? = some (markedArray (place = position) field.type) := by
  simp [markedBatch, hfield]

/-! ## Leaves of the marked batch -/

/-- The leaf of the marked field is marked. -/
theorem leafArray_marked {schema : List Field} {position : Nat} {field : Field} {type : LeafType}
    (hfield : schema[position]? = some field) (htype : field.type = .leaf type) :
    ((markedBatch schema position).arrays.flatMap leafArrays)[leavesBefore schema position]?.join =
      some (markedLeaf true type) := by
  refine leafArray_of_field (follows_markedBatch schema position) ?_
  rw [array_markedBatch hfield, htype]
  simp [markedArray]

theorem unmarked_of_mem_leafArrays {type : DataType} {array : LeafArray}
    (h : some array ∈ leafArrays (markedArray false type)) : ∃ type, array = markedLeaf false type := by
  cases type with
  | leaf type =>
    obtain rfl := Option.some.inj (List.mem_singleton.mp h)
    exact ⟨type, rfl⟩
  | list => cases List.mem_singleton.mp h
  | struct fields =>
    obtain ⟨⟨name, leaf⟩, hleaf, hsome⟩ := List.mem_map.mp h
    obtain ⟨⟨name', type⟩, -, hfield⟩ := List.mem_map.mp hleaf
    cases hfield
    exact ⟨type, (Option.some.inj hsome).symm⟩

theorem getElem?_split_ne {α : Type} {before after : List α} {middle entry : α} {place : Nat}
    (hplace : place ≠ before.length) (h : (before ++ middle :: after)[place]? = some entry) :
    entry ∈ before ∨ entry ∈ after := by
  rcases Nat.lt_or_ge place before.length with hlt | hge
  · rw [List.getElem?_append_left hlt] at h
    exact .inl (List.mem_of_getElem? h)
  · obtain ⟨offset, rfl⟩ := Nat.exists_eq_add_of_lt (Nat.lt_of_le_of_ne hge hplace.symm)
    rw [List.getElem?_append_right (by omega), show before.length + offset + 1 - before.length = offset + 1
      by omega, List.getElem?_cons_succ] at h
    exact .inr (List.mem_of_getElem? h)

/-- Every other leaf is not. -/
theorem leafArray_unmarked {schema : List Field} {position column : Nat} {field : Field} {type : LeafType}
    (hfield : schema[position]? = some field) (htype : field.type = .leaf type)
    (hcolumn : column ≠ leavesBefore schema position) {array : LeafArray}
    (harray : ((markedBatch schema position).arrays.flatMap leafArrays)[column]?.join = some array) :
    ∃ type, array = markedLeaf false type := by
  have hfollows := follows_markedBatch schema position
  have hmarked := array_markedBatch hfield position
  rw [htype] at hmarked
  have hother : ∀ {place}, place ≠ position → ∀ {other},
      (markedBatch schema position).arrays[place]? = some other → some array ∈ leafArrays other →
        ∃ type, array = markedLeaf false type := by
    intro place hplace other hget hmem
    have hlt : place < schema.length := by
      obtain ⟨hlt, -⟩ := List.getElem?_eq_some_iff.mp hget
      simpa [markedBatch] using hlt
    rw [array_markedBatch (List.getElem?_eq_getElem hlt), decide_eq_false hplace] at hget
    cases hget
    exact unmarked_of_mem_leafArrays hmem
  rw [Option.join_eq_some_iff, flatMap_eq_of_singleton hmarked rfl] at harray
  rw [← length_leafArrays hfollows] at hcolumn
  -- the leaf stands before or behind that of the marked field, so it comes from another array
  rcases getElem?_split_ne hcolumn harray with h | h
  · obtain ⟨other, hother', hmem⟩ := List.mem_flatMap.mp h
    obtain ⟨place, hplace, rfl⟩ := List.mem_take_iff_getElem.mp hother'
    exact hother (by omega) (List.getElem?_eq_getElem (by omega)) hmem
  · obtain ⟨other, hother', hmem⟩ := List.mem_flatMap.mp h
    obtain ⟨place, hplace⟩ := List.mem_iff_getElem?.mp hother'
    rw [List.getElem?_drop] at hplace
    exact hother (by omega) hplace hmem

/-! ## The two answers -/

/-- The file with the marked batch as its only row group. -/
def markedFile (schema : List Field) (position : Nat) : File :=
  ⟨schema, [.ofBatch (markedBatch schema position)]⟩

theorem fromUTF8?_mark (marked : Bool) : String.fromUTF8? (mark marked).toUTF8 = some (mark marked) :=
  dif_pos (mark marked).isValidUTF8

namespace FileTable

variable {t : FileTable} {schema : List Field} {position column : Nat} {columnType : ColumnType}

/-- The table is the marked file in place. -/
structure Marked (t : FileTable) (schema : List Field) (position : Nat) : Prop where
  wellFormed : t.WellFormed
  file_eq : t.file = markedFile schema position
  sizes_eq : t.rowGroupSizes = [1]

theorem Marked.flatten_parts {α : Type} {read : LeafArray → List (Stored α)} {array : LeafArray} {value : α}
    (h : t.Marked schema position)
    (harray : ((markedBatch schema position).arrays.flatMap leafArrays)[column]?.join = some array)
    (hread : read array = [.present value]) :
    (t.parts read column).flatten = Cells.ofValues [value] := by
  have hrecords : t.records read column 0 = [.present value] := by
    rw [records, h.file_eq]
    simp only [markedFile, List.getElem?_cons_zero, RowGroup.ofBatch]
    rw [harray]
    exact hread
  simp [parts, h.sizes_eq, hrecords, Stored.read, Cells.ofValues]

/-- A leaf that can be scanned reads as marked or unmarked. -/
theorem Marked.content_eq (h : t.Marked schema position) {marked : Bool} {type : LeafType}
    (harray : ((markedBatch schema position).arrays.flatMap leafArrays)[column]?.join =
      some (markedLeaf marked type))
    (htype : t.columnType column = .ok columnType) :
    t.sheet.content column = markedContent marked columnType := by
  have hphysical : (physicalType type).columnType? = some columnType := by
    obtain ⟨leaf, hleaf, hsingle, hphysical⟩ := columnType_eq_ok.mp htype
    rw [leaves, h.file_eq] at hleaf
    obtain ⟨array, harray', harrayType, -⟩ :=
      leafArray_of_follows (follows_markedBatch schema position) hleaf hsingle
    obtain rfl := Option.some.inj (harray.symm.trans harray')
    rwa [← harrayType, type_markedLeaf] at hphysical
  unfold sheet
  dsimp only
  rw [htype]
  cases type with
  | float64 =>
    cases hphysical
    exact congrArg Content.float64 (h.flatten_parts harray rfl)
  | integer type =>
    cases hphysical
    refine congrArg Content.int32 (h.flatten_parts harray ?_)
    cases marked <;> rfl
  | text layout =>
    cases hphysical
    exact congrArg Content.utf8 (h.flatten_parts harray rfl)
  | binary =>
    cases hphysical
    refine congrArg Content.utf8 (h.flatten_parts harray ?_)
    show [storedBytes (some (mark marked).toUTF8)] = _
    rw [storedBytes, fromUTF8?_mark]
  | dictionary key value =>
    cases hphysical
    exact congrArg Content.utf8 (h.flatten_parts harray rfl)
  | plain type => cases type <;> cases hphysical

end FileTable

/-- A marked and an unmarked column have different values, whatever their types are. -/
theorem valuesAt_markedContent_ne (columnType other : ColumnType) :
    (markedContent false columnType).valuesAt .strings [0] ≠
      (markedContent true other).valuesAt .strings [0] := by
  cases columnType <;> cases other <;> decide

theorem fault?_markedContent (marked : Bool) (columnType : ColumnType) :
    (markedContent marked columnType).fault? 0 = none := by
  cases columnType <;> rfl

/-- A scan of one column in a table of one row. -/
theorem scan_single {δ : Type → Type} {table : Table δ} {sheet : Sheet} (h : table.Shows sheet)
    (hrows : sheet.rows = 1) {column : Nat} {columnType : ColumnType}
    (htype : table.namedType column = .ok columnType) (hfault : (sheet.content column).fault? 0 = none) :
    ∃ answer, table.scan ⟨[column], []⟩ .strings = .ok answer ∧
      answer.columns = [⟨column, (sheet.content column).valuesAt .strings [0]⟩] := by
  have hcheck : table.check ⟨[column], []⟩ = .ok [] := by
    refine Table.check_eq_ok.mpr ⟨.nil, ?_⟩
    intro other hother
    obtain rfl := List.mem_singleton.mp hother
    exact ⟨columnType, htype⟩
  have hsurvivors : sheet.survivors [] = [0] := by simp [hrows]
  have hnone : sheet.firstFault? ⟨[column], []⟩ [] = none := by
    simp [Sheet.firstFault?, Sheet.met, Sheet.projected, hsurvivors, Sheet.fault?, hfault]
  refine ⟨_, (Table.scan_eq h hcheck .strings).trans (by rw [hnone]; rfl), ?_⟩
  simp [Sheet.answer, hsurvivors]

variable {schema : List Field} {position : Nat} {field : Field} {settings : LoadSettings}
  {loaded : MemoryTable} {columnType : ColumnType}

theorem rows_markedBatch (hfield : schema[position]? = some field)
    (hleaf : ∀ field ∈ schema, field.type.HasLeaf) : (markedBatch schema position).rows = 1 :=
  (follows_markedBatch schema position).rows_eq (List.ne_nil_of_mem (List.mem_of_getElem? hfield)) hleaf

theorem ofBatches_markedBatch (hfield : schema[position]? = some field)
    (hleaf : ∀ field ∈ schema, field.type.HasLeaf) :
    File.ofBatches schema [markedBatch schema position] = markedFile schema position := by
  show File.mk schema (([markedBatch schema position].filter _).map _) = _
  rw [List.filter_cons_of_pos (by simp [rows_markedBatch hfield hleaf])]
  exact congrArg (fun batch => File.mk schema [.ofBatch batch]) (writtenBatch_markedBatch schema position)

theorem counted_markedFile (hfield : schema[position]? = some field)
    (hleaf : ∀ field ∈ schema, field.type.HasLeaf) : (markedFile schema position).Counted := by
  rw [← ofBatches_markedBatch hfield hleaf]
  apply counted_ofBatches
  intro batch hbatch
  obtain rfl := List.mem_singleton.mp hbatch
  rw [rows_markedBatch hfield hleaf]
  exact follows_markedBatch schema position

/-- A single row makes no dictionary too large for its keys. -/
theorem addressable_marked {batchSize : Nat}
    (hload : loaded.LoadedFrom settings schema ((markedFile schema position).toBatchFile batchSize).batches) :
    ∀ column ∈ loaded.columns, Addressable column.data := by
  intro column hcolumn
  obtain ⟨other, hother⟩ := List.mem_iff_getElem?.mp hcolumn
  have hload : loaded.LoadedFrom settings (markedFile schema position).schema _ := hload
  refine addressable_of_loaded hload hother ?_
  have hslots := Batch.length_slots_le LeafArray.slotwise_texts (follows_markedBatch schema position) other
  calc _ ≤ _ := List.toFinset_card_le _
    _ ≤ _ := List.length_filterMap_le _ _
    _ ≤ 1 := by simpa [markedFile, RowGroup.ofBatch] using hslots
    _ ≤ UInt32.size := by decide

theorem exists_ofParquet_marked (hfield : schema[position]? = some field)
    (hleaf : ∀ field ∈ schema, field.type.HasLeaf) (settings : LoadSettings) :
    ∃ loaded, MemoryTable.ofParquet (markedFile schema position) settings = .ok loaded := by
  refine exists_ofParquet (counted_markedFile hfield hleaf) hleaf ?_
  intro group hgroup place other array columnType hother harray hscannable
  obtain rfl := List.mem_singleton.mp hgroup
  obtain ⟨type, htype, -⟩ := FileTable.leafType_of_scannable hscannable
  obtain rfl := Option.some.inj (harray.symm.trans (array_markedBatch hother position))
  rw [htype]
  exact complete_markedLeaf _ type

theorem exists_disk_marked (hfield : schema[position]? = some field)
    (hleaf : ∀ field ∈ schema, field.type.HasLeaf) :
    ∃ disk, FileTable.ofFile (markedFile schema position) = .ok disk ∧ disk.Marked schema position := by
  have hconsistent := (counted_markedFile hfield hleaf).consistent
  have hopen := FileTable.ofFile_eq hconsistent
  refine ⟨_, hopen, FileTable.wellFormed_of_ofFile hconsistent hopen, rfl, ?_⟩
  simp [markedFile, RowGroup.ofBatch, rows_markedBatch hfield hleaf]

variable {disk : FileTable} {batchSize : Nat}

/-- On disk the column at the position is another leaf, which is not marked. -/
theorem disk_content_marked (hdisk : disk.Marked schema position) (hfield : schema[position]? = some field)
    (hload : isLoadable field.type = true) (hmoved : leavesBefore schema position ≠ position)
    (htype : disk.columnType position = .ok columnType) :
    disk.sheet.content position = markedContent false columnType := by
  obtain ⟨leaf, hleaf, hsingle, -⟩ := FileTable.columnType_eq_ok.mp htype
  obtain ⟨_, hscannable⟩ := (isLoadable_iff {}).mp hload
  obtain ⟨type, hfieldType, -⟩ := FileTable.leafType_of_scannable hscannable
  rw [FileTable.leaves, hdisk.file_eq] at hleaf
  obtain ⟨array, harray, -⟩ := leafArray_of_follows (follows_markedBatch schema position) hleaf hsingle
  obtain ⟨other, rfl⟩ := leafArray_unmarked hfield hfieldType hmoved.symm harray
  exact hdisk.content_eq harray htype

theorem disk_scan_marked (hdisk : disk.Marked schema position) (hfield : schema[position]? = some field)
    {leaf : Leaf} (hnumber : (schema.flatMap leavesOf)[position]? = some leaf)
    (hscannable : leaf.isScannable = true) (hload : isLoadable field.type = true)
    (hmoved : leavesBefore schema position ≠ position) :
    ∃ columnType answer, disk.toTable.scan ⟨[position], []⟩ .strings = .ok answer ∧
      answer.columns = [⟨position, (markedContent false columnType).valuesAt .strings [0]⟩] := by
  rw [Leaf.isScannable, Bool.and_eq_true, Bool.not_eq_true', Option.isSome_iff_exists] at hscannable
  obtain ⟨hsingle, columnType, hphysical⟩ := hscannable
  have htype : disk.columnType position = .ok columnType :=
    FileTable.columnType_eq_ok.mpr ⟨leaf, by rwa [FileTable.leaves, hdisk.file_eq], hsingle, hphysical⟩
  have hcontent := disk_content_marked hdisk hfield hload hmoved htype
  have hrows : disk.sheet.rows = 1 := congrArg List.sum hdisk.sizes_eq
  obtain ⟨answer, hscan, hcolumns⟩ := scan_single (FileTable.shows_sheet hdisk.wellFormed) hrows
    ((FileTable.namedType_eq disk position).trans htype) (hcontent ▸ fault?_markedContent false columnType)
  exact ⟨columnType, answer, hscan, hcontent ▸ hcolumns⟩

/-- In memory it is the field, which is marked. -/
theorem loaded_content_marked (hdisk : disk.Marked schema position)
    (hcounted : (markedFile schema position).Counted)
    (hload : loaded.LoadedFrom settings schema ((markedFile schema position).toBatchFile batchSize).batches)
    (hfield : schema[position]? = some field) (hscannable : Scannable settings field.type columnType) :
    (loaded.sheet.content position).plain = markedContent true columnType.plain := by
  obtain ⟨file, sizes⟩ := disk
  obtain rfl : file = markedFile schema position := hdisk.file_eq
  obtain ⟨type, hfieldType, -⟩ := FileTable.leafType_of_scannable hscannable
  have htype := FileTable.columnType_of_scannable (t := ⟨markedFile schema position, sizes⟩) hfield hscannable
  rw [← FileTable.plain_eq_of_field hdisk.wellFormed hcounted hload (addressable_marked hload) hfield
    hscannable]
  exact hdisk.content_eq (leafArray_marked hfield hfieldType) htype

theorem loaded_scan_marked (hdisk : disk.Marked schema position)
    (hcounted : (markedFile schema position).Counted)
    (hload : loaded.LoadedFrom settings schema ((markedFile schema position).toBatchFile batchSize).batches)
    (hfield : schema[position]? = some field) (hloadable : isLoadable field.type = true) :
    ∃ columnType answer, loaded.toTable.scan ⟨[position], []⟩ .strings = .ok answer ∧
      answer.columns = [⟨position, (markedContent true columnType).valuesAt .strings [0]⟩] := by
  obtain ⟨columnType, hscannable⟩ := (isLoadable_iff settings).mp hloadable
  obtain ⟨loader, hloader, htook⟩ := hload.column hfield
  have htype := MemoryTable.namedType_eq_ok.mpr
    ⟨_, hloader, htook.columnType?_eq.trans (scannable_iff.mpr hscannable)⟩
  have hcontent := loaded_content_marked hdisk hcounted hload hfield hscannable
  have hrows : loaded.sheet.rows = 1 := by
    obtain ⟨file, sizes⟩ := disk
    obtain rfl : file = markedFile schema position := hdisk.file_eq
    have hsame := FileTable.rows_eq_of_loaded hdisk.wellFormed hcounted hload
    exact hsame.symm.trans (congrArg List.sum hdisk.sizes_eq)
  have hfault : (loaded.sheet.content position).fault? 0 = none := by
    rw [← Content.fault?_plain, hcontent]
    exact fault?_markedContent true _
  obtain ⟨answer, hscan, hcolumns⟩ :=
    scan_single (MemoryTable.shows_sheet (hload.wellFormed (addressable_marked hload))) hrows htype hfault
  refine ⟨columnType.plain, answer, hscan, ?_⟩
  rw [hcolumns, ← Content.valuesAt_plain, hcontent]

/-- Where a leaf and a field of the same number are different columns, the two tables answer a query
    for this number differently. -/
theorem exists_disagreement (hleaf : ∀ field ∈ schema, field.type.HasLeaf) {leaf : Leaf}
    (hnumber : (schema.flatMap leavesOf)[position]? = some leaf) (hscannable : leaf.isScannable = true)
    (hfield : schema[position]? = some field) (hloadable : isLoadable field.type = true)
    (hmoved : leavesBefore schema position ≠ position) (settings : LoadSettings) :
    ∃ disk loaded diskAnswer loadedAnswer,
      FileTable.ofFile (markedFile schema position) = .ok disk ∧
      MemoryTable.ofParquet (markedFile schema position) settings = .ok loaded ∧
      (∀ column ∈ loaded.columns, Addressable column.data) ∧
      disk.toTable.scan ⟨[position], []⟩ .strings = .ok diskAnswer ∧
      loaded.toTable.scan ⟨[position], []⟩ .strings = .ok loadedAnswer ∧ diskAnswer ≠ loadedAnswer := by
  obtain ⟨disk, hopen, hdisk⟩ := exists_disk_marked hfield hleaf
  obtain ⟨loaded, hloaded⟩ := exists_ofParquet_marked hfield hleaf settings
  have hload := loadedFrom_of_ofBatches hloaded
  obtain ⟨_, diskAnswer, hdiskScan, hdiskColumns⟩ :=
    disk_scan_marked hdisk hfield hnumber hscannable hloadable hmoved
  obtain ⟨_, loadedAnswer, hloadedScan, hloadedColumns⟩ :=
    loaded_scan_marked hdisk (counted_markedFile hfield hleaf) hload hfield hloadable
  refine ⟨disk, loaded, diskAnswer, loadedAnswer, hopen, hloaded, addressable_marked hload, hdiskScan,
    hloadedScan, ?_⟩
  intro hsame
  rw [hsame, hloadedColumns] at hdiskColumns
  simp only [List.cons.injEq, Projection.mk.injEq, true_and, and_true] at hdiskColumns
  exact valuesAt_markedContent_ne _ _ hdiskColumns.symm

/-! ## The exact condition -/

/-- The two tables agree on every file and query exactly if the schema is aligned. A structure without
    fields has no leaf, and no such column can be written. -/
theorem answersAgree_iff_aligned {schema : List Field} (hleaf : ∀ field ∈ schema, field.type.HasLeaf)
    (settings : LoadSettings) : AnswersAgree schema settings ↔ Aligned schema := by
  refine ⟨?_, Aligned.answersAgree⟩
  intro hagree position leaf field hnumber hscannable hfield hload
  by_contra hmoved
  obtain ⟨disk, loaded, diskAnswer, loadedAnswer, hdisk, hloaded, haddressable, hdiskScan, hloadedScan,
    hne⟩ := exists_disagreement hleaf hnumber hscannable hfield hload hmoved settings
  rw [← ofBatches_markedBatch hfield hleaf] at hdisk hloaded
  refine hne (hagree ?_ hdisk hloaded haddressable hdiskScan hloadedScan)
  intro batch hbatch
  obtain rfl := List.mem_singleton.mp hbatch
  rw [rows_markedBatch hfield hleaf]
  exact follows_markedBatch schema position

/-- A list of leaves is a single leaf and shifts no number, a structure of two leaves shifts all behind it. -/
theorem answersAgree_behind_list_not_struct :
    let text : Field := ⟨"c", .leaf (.text .utf8), false⟩
    let listed : List Field := [⟨"l", .list "item" (.integer .int32), false⟩, text]
    let structured : List Field := [⟨"s", .struct [("a", .integer .int32), ("b", .text .utf8)], false⟩, text]
    (∀ field ∈ listed, field.type.HasLeaf) ∧ (∀ field ∈ structured, field.type.HasLeaf) ∧
      AnswersAgree listed {} ∧ ¬ AnswersAgree structured {} := by
  intro text listed structured
  have hlisted : ∀ field ∈ listed, field.type.HasLeaf := by simp [listed, text, DataType.HasLeaf]
  have hstructured : ∀ field ∈ structured, field.type.HasLeaf := by simp [structured, text, DataType.HasLeaf]
  refine ⟨hlisted, hstructured, (answersAgree_iff_aligned hlisted {}).mpr ?_,
    fun hagree => absurd ((answersAgree_iff_aligned hstructured {}).mp hagree) ?_⟩
  · intro position leaf field hnumber hscannable hfield _
    match position with
    | 0 =>
      cases hnumber
      cases hscannable
    | 1 => rfl
    | _ + 2 => cases hfield
  · intro haligned
    cases haligned 1 ⟨"b", .byteArray, false⟩ text rfl rfl rfl rfl

/-- Behind that structure, the number of the text column means the second of its fields on disk. -/
theorem struct_shifts_column_numbers :
    let schema : List Field :=
      [⟨"s", .struct [("a", .integer .int32), ("b", .text .utf8)], false⟩, ⟨"c", .leaf (.text .utf8), false⟩]
    let batch : Batch :=
      ⟨[.struct [("a", .integer .int32 [some 1]), ("b", .text .utf8 [some "inner"])],
        .leaf (.text .utf8 [some "outer"])]⟩
    let answer (text : String) : Answer := ⟨[⟨1, .utf8 [text]⟩], .unbounded, [], 1⟩
    let disk : FileTable := ⟨File.ofBatches schema [batch], [1]⟩
    let loaded : MemoryTable :=
      ⟨[⟨"s", .unsupported (DataType.struct [("a", .integer .int32), ("b", .text .utf8)]).name 1⟩,
        ⟨"c", .utf8 [["outer"]]⟩], 1⟩
    batch.Follows schema batch.rows ∧ FileTable.ofFile (File.ofBatches schema [batch]) = .ok disk ∧
      MemoryTable.ofParquet (File.ofBatches schema [batch]) {} = .ok loaded ∧
      disk.toTable.scan ⟨[1], []⟩ .strings = .ok (answer "inner") ∧
      loaded.toTable.scan ⟨[1], []⟩ .strings = .ok (answer "outer") ∧ answer "inner" ≠ answer "outer" := by
  intro schema batch answer disk loaded
  refine ⟨⟨rfl, ?_⟩, rfl, ?_, rfl, rfl, by decide⟩
  · intro array harray
    rcases List.mem_pair.mp harray with rfl | rfl
    · simp [ColumnArray.Fills, batch, Batch.rows, ColumnArray.length, LeafArray.length]
    · rfl
  · have hread : ((File.ofBatches schema [batch]).toBatchFile 65536).batches = [batch] := by
      show batch.slices 0 0 1 ++ [] = _
      rw [Batch.slices, Batch.slices]
      rfl
    show MemoryTable.ofBatches schema ((File.ofBatches schema [batch]).toBatchFile 65536).batches {} = _
    rw [hread]
    rfl

end Pushdown.Parquet
