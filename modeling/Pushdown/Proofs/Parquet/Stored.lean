-- SUMMARY: The batches that a file is read back as hold what its row groups hold.
import Pushdown.Parquet.Loading
import Pushdown.Proofs.Memory.Batches
import Pushdown.Proofs.Parquet.Table
import Pushdown.Proofs.Slices

/-!
# Reading files back

A dictionary is made anew for every row group, but the texts of the rows are those that were written. The
row groups are then cut at the batch size. So whatever that size is, the slots of a column in all batches are
those in all row groups.
-/

namespace Pushdown.Parquet

open Record PartialColumn

/-! ## Records and slots -/

theorem floatRecords_eq (array : LeafArray) : floatRecords array = array.floats.map stored := by
  cases array <;> rfl

theorem integerRecords_eq (array : LeafArray) : integerRecords array = array.integers.map stored := by
  cases array with
  | integer => simp [integerRecords, LeafArray.integers]
  | float64 | text | binary | dictionary | plain => rfl

theorem textRecords_eq {array : LeafArray} (h : array.type ≠ .binary) :
    textRecords array = array.texts.map stored := by
  cases array with
  | binary => exact absurd rfl h
  | dictionary => simp [textRecords, LeafArray.texts]
  | float64 | integer | text | plain => rfl

/-! ## Dictionaries made anew -/

/-- The new keys stand for the texts that the rows had. -/
theorem texts_encodeTexts (key : KeyType) (value : TextType) (rows : List (Option String)) :
    (encodeTexts key value rows).texts = rows := by
  unfold encodeTexts LeafArray.texts
  dsimp only
  rw [List.map_map]
  refine (List.map_congr_left ?_).trans rows.map_id
  intro row hrow
  cases row with
  | none => rfl
  | some text =>
    have hmem : text ∈ (rows.filterMap id).eraseDups :=
      List.mem_eraseDups.mpr (List.mem_filterMap.mpr ⟨some text, hrow, rfl⟩)
    generalize (rows.filterMap id).eraseDups = texts at hmem ⊢
    obtain ⟨position, hposition⟩ := Option.isSome_iff_exists.mp (List.isSome_idxOf?.mpr hmem)
    obtain ⟨hlt, hget, -⟩ := List.idxOf?_eq_some_iff.mp hposition
    simp [hposition, textOf?, hlt, hget]

/-- A reading finds in an array that is read back what it finds in the written one. -/
def ReadsBack {α : Type} (read : LeafArray → List α) : Prop :=
  ∀ key value keys texts, read (encodeTexts key value (keys.map (textOf? texts))) =
    read (.dictionary key value keys texts)

theorem readsBack_floats : ReadsBack LeafArray.floats := fun _ _ _ _ => rfl

theorem readsBack_integers : ReadsBack LeafArray.integers := fun _ _ _ _ => rfl

theorem readsBack_texts : ReadsBack LeafArray.texts := fun _ _ _ _ => texts_encodeTexts ..

variable {α : Type} {read : LeafArray → List α}

theorem slots_storedArray (hread : ReadsBack read) (array : ColumnArray) :
    (storedArray array).slots read = array.slots read := by
  unfold storedArray
  split
  · exact hread ..
  · rfl

theorem type_storedArray (array : ColumnArray) : (storedArray array).type = array.type := by
  unfold storedArray
  split <;> rfl

theorem length_storedArray (array : ColumnArray) : (storedArray array).length = array.length := by
  unfold storedArray
  split
  · simp [encodeTexts, ColumnArray.length, LeafArray.length]
  · rfl

theorem fills_storedArray {array : ColumnArray} {n : Nat} (h : array.Fills n) :
    (storedArray array).Fills n := by
  unfold storedArray
  split
  · simpa [encodeTexts, ColumnArray.Fills, LeafArray.length] using h
  · exact h

/-- The keys of a new dictionary are positions in it. -/
theorem complete_encodeTexts (key : KeyType) (value : TextType) {rows : List (Option String)}
    (h : rows.any Option.isNone = false) : Complete (.leaf (encodeTexts key value rows)) := by
  have hfound : ∀ row ∈ rows, ∃ position, row.bind (rows.filterMap id).eraseDups.idxOf? = some position ∧
      position < (rows.filterMap id).eraseDups.length := by
    intro row hrow
    cases row with
    | none => exact absurd rfl (List.any_eq_false.mp h none hrow)
    | some text =>
      have hmem : text ∈ (rows.filterMap id).eraseDups :=
        List.mem_eraseDups.mpr (List.mem_filterMap.mpr ⟨some text, hrow, rfl⟩)
      obtain ⟨position, hposition⟩ := Option.isSome_iff_exists.mp (List.isSome_idxOf?.mpr hmem)
      obtain ⟨hlt, -, -⟩ := List.idxOf?_eq_some_iff.mp hposition
      exact ⟨position, hposition, hlt⟩
  refine ⟨?_, ?_, ?_⟩
  · apply List.any_eq_false.mpr
    intro key hkey
    obtain ⟨row, hrow, rfl⟩ := List.mem_map.mp hkey
    obtain ⟨position, hposition, -⟩ := hfound row hrow
    rw [hposition]
    simp
  · simp
  · intro key hkey
    obtain ⟨row, hrow, hkey⟩ := List.mem_map.mp hkey
    obtain ⟨position, hposition, hlt⟩ := hfound row hrow
    rw [hposition] at hkey
    cases hkey
    rw [List.length_map]
    exact ⟨Int.natCast_nonneg _, hlt⟩

theorem complete_storedArray {array : ColumnArray} (h : Complete array) : Complete (storedArray array) := by
  unfold storedArray
  split
  · rename_i key value keys texts
    obtain ⟨hkeys, htexts, hpositions⟩ := h
    refine complete_encodeTexts key value (List.any_eq_false.mpr ?_)
    intro row hrow
    obtain ⟨found, hfound, rfl⟩ := List.mem_map.mp hrow
    cases found with
    | none => exact absurd rfl (List.any_eq_false.mp hkeys none hfound)
    | some found =>
      obtain ⟨-, hlt⟩ := hpositions found hfound
      have htext := List.any_eq_false.mp htexts _ (List.getElem_mem hlt)
      cases hget : texts[found.toNat] with
      | none => simp [hget] at htext
      | some text => simp [textOf?, hlt, hget]
  · exact h

/-- The batch as it is read back. -/
def storedBatch (batch : Batch) : Batch := ⟨batch.arrays.map storedArray⟩

theorem slots_storedBatch (hread : ReadsBack read) (position : Nat) (batch : Batch) :
    (storedBatch batch).slots read position = batch.slots read position := by
  unfold Batch.slots storedBatch
  rw [List.getElem?_map]
  cases batch.arrays[position]? with
  | none => rfl
  | some array => exact slots_storedArray hread array

theorem rows_storedBatch (batch : Batch) : (storedBatch batch).rows = batch.rows := by
  obtain ⟨arrays⟩ := batch
  cases arrays with
  | nil => rfl
  | cons array arrays => exact length_storedArray array

theorem follows_storedBatch {batch : Batch} {schema : List Field} {n : Nat} (h : batch.Follows schema n) :
    (storedBatch batch).Follows schema n where
  types := by
    rw [← h.types, storedBatch, List.map_map]
    exact List.map_congr_left fun array _ => type_storedArray array
  fills array harray := by
    obtain ⟨whole, hwhole, rfl⟩ := List.mem_map.mp harray
    exact fills_storedArray (h.fills whole hwhole)

/-! ## Row groups as batches -/

/-- Every row group follows the schema, and the footer claims the rows of its batch. -/
structure File.Counted (file : File) : Prop where
  claimed_eq : ∀ {group}, group ∈ file.rowGroups → group.claimedRows = group.batch.rows
  follows : ∀ {group}, group ∈ file.rowGroups → group.batch.Follows file.schema group.batch.rows

variable {file : File}

theorem File.Counted.consistent (h : file.Counted) : file.Consistent :=
  fun group hgroup => ⟨group.batch.rows, h.claimed_eq hgroup, h.follows hgroup⟩

theorem File.Counted.claimedRows_eq (h : file.Counted) :
    file.claimedRows = ((file.rowGroups.map fun group => group.batch.rows).sum : Nat) := by
  rw [File.claimedRows, List.map_congr_left fun group hgroup => h.claimed_eq hgroup]
  induction file.rowGroups with
  | nil => rfl
  | cons group groups ih => simp [ih]

/-- Nothing is read at a time only where there is nothing to read. -/
theorem File.Counted.rows_eq_zero (h : file.Counted) {batchSize : Nat} (hsize : file.readSize batchSize = 0)
    {group : RowGroup} (hgroup : group ∈ file.rowGroups) : group.batch.rows = 0 := by
  have hsum : (file.rowGroups.map fun group => group.batch.rows).sum = 0 := by
    rw [File.readSize, h.claimedRows_eq, if_neg (by omega), Int.toNat_natCast] at hsize
    omega
  exact List.sum_eq_zero_iff.mp hsum _ (List.mem_map_of_mem hgroup)

/-- The slots of a column in the batches are those in the row groups. -/
theorem slots_toBatchFile (h : file.Counted) (hread : LeafArray.Slotwise read) (hback : ReadsBack read)
    (position batchSize : Nat) :
    (file.toBatchFile batchSize).batches.flatMap (Batch.slots read position) =
      file.rowGroups.flatMap fun group => group.batch.slots read position := by
  unfold File.toBatchFile
  dsimp only
  by_cases hsize : file.readSize batchSize = 0
  · rw [if_pos hsize, List.flatMap_nil, eq_comm, List.flatMap_eq_nil_iff]
    intro group hgroup
    have hlength := Batch.length_slots_le hread (h.follows hgroup) position
    rw [h.rows_eq_zero hsize hgroup] at hlength
    exact List.eq_nil_of_length_eq_zero (Nat.le_zero.mp hlength)
  · rw [if_neg hsize, List.flatMap_assoc]
    apply List.flatMap_congr
    intro group hgroup
    show ((storedBatch group.batch).split _).flatMap _ = _
    have hlength := Batch.length_slots_le hread (h.follows hgroup) position
    rw [Batch.slots_split hread, slots_storedBatch hback]
    rwa [slots_storedBatch hback, rows_storedBatch]

theorem rows_toBatchFile (h : file.Counted) (batchSize : Nat) :
    ((file.toBatchFile batchSize).batches.map Batch.rows).sum =
      (file.rowGroups.map fun group => group.batch.rows).sum := by
  unfold File.toBatchFile
  dsimp only
  by_cases hsize : file.readSize batchSize = 0
  · rw [if_pos hsize, eq_comm]
    apply List.sum_eq_zero_iff.mpr
    intro rows hrows
    obtain ⟨group, hgroup, rfl⟩ := List.mem_map.mp hrows
    exact h.rows_eq_zero hsize hgroup
  · rw [if_neg hsize, List.map_flatMap, List.flatMap_def, List.sum_flatten, List.map_map]
    congr 1
    apply List.map_congr_left
    intro group _
    show (((storedBatch group.batch).split _).map Batch.rows).sum = _
    rw [Batch.sum_rows_split, rows_storedBatch]

/-- Every batch is a slice of a row group, read back. -/
theorem exists_slice_of_mem {batchSize : Nat} {piece : Batch}
    (h : piece ∈ (file.toBatchFile batchSize).batches) :
    ∃ group ∈ file.rowGroups, ∃ start n, piece = (storedBatch group.batch).slice start n := by
  unfold File.toBatchFile at h
  dsimp only at h
  by_cases hsize : file.readSize batchSize = 0
  · rw [if_pos hsize] at h
    cases h
  · rw [if_neg hsize] at h
    obtain ⟨group, hgroup, hpiece⟩ := List.mem_flatMap.mp h
    exact ⟨group, hgroup, Batch.exists_slice_of_mem hpiece⟩

/-- A file is loaded if no value is missing in the columns that can be scanned. -/
theorem exists_ofParquet (h : file.Counted) (hleaf : ∀ field ∈ file.schema, field.type.HasLeaf)
    {settings : LoadSettings}
    (hcomplete : ∀ group ∈ file.rowGroups, ∀ {position : Nat} {field : Field} {array : ColumnArray}
      {columnType : ColumnType}, file.schema[position]? = some field →
        group.batch.arrays[position]? = some array → Scannable settings field.type columnType →
          Complete array) :
    ∃ loaded, MemoryTable.ofParquet file settings = .ok loaded := by
  apply MemoryTable.exists_ofBatches
  intro piece hpiece
  obtain ⟨group, hgroup, start, n, rfl⟩ := exists_slice_of_mem hpiece
  refine ⟨Batch.Follows.conforms ?_ hleaf, fun {position field array columnType} hfield harray hscannable => ?_⟩
  · rw [Batch.rows_slice, rows_storedBatch]
    exact (follows_storedBatch (h.follows hgroup)).slice start n
  · simp only [Batch.slice, storedBatch, List.getElem?_map, Option.map_map] at harray
    obtain ⟨whole, hwhole, rfl⟩ := Option.map_eq_some_iff.mp harray
    exact (complete_storedArray (hcomplete group hgroup hfield hwhole hscannable)).slice start n

/-! ## The dictionaries of loaded columns -/

/-- A slice of an array that is read back brings no texts but those in the slots that were written. -/
theorem mem_slots_of_vocabulary {array : ColumnArray} {start n : Nat} {text : String}
    (h : text ∈ vocabulary ((storedArray array).slice start n)) :
    some text ∈ array.slots LeafArray.texts := by
  cases array with
  | leaf array =>
    cases array with
    | text layout values =>
      obtain ⟨slot, hslot, rfl⟩ := List.mem_filterMap.mp h
      exact List.mem_of_mem_drop (List.mem_of_mem_take hslot)
    | dictionary key value keys texts =>
      obtain ⟨slot, hslot, rfl⟩ := List.mem_filterMap.mp h
      obtain ⟨found, hfound, hslot⟩ := List.mem_map.mp hslot
      obtain ⟨row, hrow, hsome⟩ := List.mem_filterMap.mp (List.mem_eraseDups.mp hfound)
      have hsame : row = some text := hsome.trans hslot
      exact hsame ▸ hrow
    | float64 | integer | binary | plain => cases h
  | list | struct => cases h

/-- The dictionary of a loaded column has no texts but those of its rows. So it is small enough for its
    keys if the rows have no more different texts than there are keys. -/
theorem addressable_of_loaded {loaded : MemoryTable} {settings : LoadSettings} {batchSize : Nat}
    (hload : loaded.LoadedFrom settings file.schema (file.toBatchFile batchSize).batches) {position : Nat}
    {column : MemoryColumn} (hcolumn : loaded.columns[position]? = some column)
    (h : ((file.rowGroups.flatMap fun group =>
      group.batch.slots LeafArray.texts position).filterMap id).toFinset.card ≤ UInt32.size) :
    Addressable column.data := by
  obtain ⟨hlt, -⟩ := List.getElem?_eq_some_iff.mp hcolumn
  obtain ⟨loader, hloader, htook⟩ := hload.column (List.getElem?_eq_getElem (hload.length_eq ▸ hlt))
  obtain rfl := Option.some.inj (hcolumn.symm.trans hloader)
  refine htook.addressable (le_trans (Finset.card_le_card fun text htext => ?_) h)
  rw [List.mem_toFinset] at htext ⊢
  obtain ⟨array, harray, htext⟩ := List.mem_flatMap.mp htext
  obtain ⟨piece, hpiece, harray⟩ := List.mem_filterMap.mp harray
  obtain ⟨group, hgroup, start, n, rfl⟩ := exists_slice_of_mem hpiece
  simp only [Batch.slice, storedBatch, List.getElem?_map, Option.map_map] at harray
  obtain ⟨whole, hwhole, rfl⟩ := Option.map_eq_some_iff.mp harray
  refine List.mem_filterMap.mpr ⟨some text, List.mem_flatMap.mpr ⟨group, hgroup, ?_⟩, rfl⟩
  rw [Batch.slots, hwhole]
  exact mem_slots_of_vocabulary htext

end Pushdown.Parquet
