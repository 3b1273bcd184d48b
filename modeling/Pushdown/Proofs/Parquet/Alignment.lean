-- SUMMARY: When a column number means the same column in a file and in the table loaded from it.
import Pushdown.Proofs.Parquet.Numbering

/-!
# Column numbers in a file and in memory

The loaded table keeps a place for every field, whether it can be scanned or not, so that its columns have the
numbers of the schema. The table in place counts leaves, and a structure has several. So behind a structure a
number may mean one column on disk and another in memory, and a scan of both gives two answers without a sign
that anything is wrong.

This cannot happen in a schema that is `Aligned`: wherever a leaf that can be scanned and a field that can be
loaded have the same number, the leaf is that of the field. In every other schema it does happen. For any such
schema `markedBatch` is a batch of one row on which the two tables tell different columns under one number.

The schemas are those of leaves, lists of leaves and structures of leaves. Types that are nested deeper have more
leaves and shift the numbers further, but are not spoken of.
-/

namespace Pushdown.Parquet

open Record PartialColumn MemoryTable

def Leaf.isScannable (leaf : Leaf) : Bool := !leaf.repeated && leaf.physicalType.columnType?.isSome

/-- Whether columns of the type are loaded as columns that can be scanned. -/
def isLoadable : DataType → Bool
  | .leaf .float64 => true
  | .leaf (.integer .int32) => true
  | .leaf (.text .utf8) => true
  | .leaf (.text .largeUtf8) => true
  | .leaf (.dictionary .int32 .utf8) => true
  | _ => false

/-- A number that means a leaf to scan and a field to load means the leaf of that field. -/
def Aligned (schema : List Field) : Prop :=
  ∀ (position : Nat) (leaf : Leaf) (field : Field), (schema.flatMap leavesOf)[position]? = some leaf →
    leaf.isScannable = true → schema[position]? = some field → isLoadable field.type = true →
      leavesBefore schema position = position

/-- If a file with the schema and the table loaded from it both answer a query, they give the same answer,
    as long as the loaded dictionaries are small enough for their keys. -/
def AnswersAgree (schema : List Field) (settings : LoadSettings) : Prop :=
  ∀ {batches : List Batch} {query : Query} {disk : FileTable} {loaded : MemoryTable}
    {diskAnswer loadedAnswer : Answer},
    (∀ batch ∈ batches, batch.Follows schema batch.rows) →
    FileTable.ofFile (File.ofBatches schema batches) = .ok disk →
    MemoryTable.ofParquet (File.ofBatches schema batches) settings = .ok loaded →
    (∀ column ∈ loaded.columns, Addressable column.data) →
    disk.toTable.scan query .strings = .ok diskAnswer →
    loaded.toTable.scan query .strings = .ok loadedAnswer → diskAnswer = loadedAnswer

theorem isLoadable_iff {type : DataType} (settings : LoadSettings) :
    isLoadable type = true ↔ ∃ columnType, Scannable settings type columnType := by
  constructor
  · intro h
    unfold isLoadable at h
    split at h
    · exact ⟨_, .float64⟩
    · exact ⟨_, .int32⟩
    · exact exists_scannable_text settings (by decide)
    · exact exists_scannable_text settings (by decide)
    · exact ⟨_, .dictionary⟩
    · cases h
  · rintro ⟨columnType, h⟩
    cases h with
    | float64 | int32 | dictionary => rfl
    | @utf8 layout hlayout | @encoded layout hlayout =>
      cases layout with
      | utf8 | largeUtf8 => rfl
      | utf8View => exact absurd rfl hlayout

/-! ## Files written from batches -/

theorem type_writtenArray (field : Field) (array : ColumnArray) :
    (writtenArray field array).type = array.type := by
  unfold writtenArray fillTexts
  split
  · rfl
  · split <;> rfl

theorem length_writtenArray (field : Field) (array : ColumnArray) :
    (writtenArray field array).length = array.length := by
  unfold writtenArray fillTexts
  split
  · rfl
  · split <;> rfl

theorem fills_writtenArray (field : Field) {array : ColumnArray} {n : Nat} (h : array.Fills n) :
    (writtenArray field array).Fills n := by
  unfold writtenArray fillTexts
  split
  · exact h
  · split <;> exact h

/-- What is written of a batch. -/
def writtenBatch (schema : List Field) (batch : Batch) : Batch :=
  ⟨List.zipWith writtenArray schema batch.arrays⟩

theorem follows_writtenBatch {schema : List Field} {batch : Batch} {n : Nat} (h : batch.Follows schema n) :
    (writtenBatch schema batch).Follows schema n := by
  obtain ⟨arrays⟩ := batch
  obtain ⟨htypes, hfills⟩ := h
  dsimp only at htypes hfills
  induction arrays generalizing schema with
  | nil =>
    obtain rfl := List.map_eq_nil_iff.mp htypes.symm
    exact ⟨rfl, hfills⟩
  | cons array arrays ih =>
    obtain ⟨field, schema, rfl, htype, hrest⟩ := List.map_eq_cons_iff.mp htypes.symm
    obtain ⟨harray, harrays⟩ := List.forall_mem_cons.mp hfills
    obtain ⟨htypes', hfills'⟩ := ih hrest.symm harrays
    refine ⟨?_, List.forall_mem_cons.mpr ⟨fills_writtenArray field harray, hfills'⟩⟩
    exact congrArg₂ _ ((type_writtenArray field array).trans htype.symm) htypes'

theorem rows_writtenBatch {schema : List Field} {batch : Batch} {n : Nat} (h : batch.Follows schema n) :
    (writtenBatch schema batch).rows = batch.rows := by
  obtain ⟨arrays⟩ := batch
  obtain ⟨htypes, -⟩ := h
  cases arrays with
  | nil => simp [writtenBatch]
  | cons array arrays =>
    obtain ⟨field, schema, rfl, -, -⟩ := List.map_eq_cons_iff.mp htypes.symm
    exact length_writtenArray field array

theorem counted_ofBatches {schema : List Field} {batches : List Batch}
    (h : ∀ batch ∈ batches, batch.Follows schema batch.rows) :
    (File.ofBatches schema batches).Counted where
  claimed_eq {group} hgroup := by
    obtain ⟨batch, -, rfl⟩ := List.mem_map.mp hgroup
    rfl
  follows {group} hgroup := by
    obtain ⟨batch, hbatch, rfl⟩ := List.mem_map.mp hgroup
    have hfollows := h batch (List.mem_filter.mp hbatch).1
    show (writtenBatch schema batch).Follows schema (writtenBatch schema batch).rows
    rw [rows_writtenBatch hfollows]
    exact follows_writtenBatch hfollows

/-! ## Aligned schemas -/

variable {schema : List Field} {batches : List Batch} {settings : LoadSettings} {query : Query}
  {disk : FileTable} {loaded : MemoryTable}

/-- Under an aligned schema no number means two columns. -/
theorem Aligned.sameColumns (h : Aligned schema)
    (hbatches : ∀ batch ∈ batches, batch.Follows schema batch.rows)
    (hdisk : FileTable.ofFile (File.ofBatches schema batches) = .ok disk)
    (hloaded : MemoryTable.ofParquet (File.ofBatches schema batches) settings = .ok loaded)
    (haddressable : ∀ column ∈ loaded.columns, Addressable column.data) :
    disk.toTable.SameColumns loaded.toTable disk.sheet loaded.sheet := by
  have hcounted := counted_ofBatches hbatches
  rw [FileTable.ofFile_eq hcounted.consistent] at hdisk
  cases hdisk
  have hload := loadedFrom_of_ofBatches hloaded
  refine FileTable.sameColumns_of_loaded ⟨hcounted.consistent, rfl⟩ hcounted hload haddressable ?_
  intro position columnType loadedType htype hloadedType
  obtain ⟨leaf, hleaf, hsingle, hphysical⟩ := FileTable.columnType_eq_ok.mp htype
  obtain ⟨field, hfield, hscannable⟩ := hload.scannable_of_namedType hloadedType
  exact h position leaf field hleaf (by simp [Leaf.isScannable, hsingle, hphysical]) hfield
    ((isLoadable_iff settings).mpr ⟨_, hscannable⟩)

theorem Aligned.answersAgree (h : Aligned schema) : AnswersAgree schema settings :=
  fun hbatches hdisk hloaded haddressable hdiskScan hloadedScan =>
    (h.sameColumns hbatches hdisk hloaded haddressable).answer_eq hdiskScan hloadedScan

end Pushdown.Parquet
