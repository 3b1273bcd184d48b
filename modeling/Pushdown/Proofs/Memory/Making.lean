-- SUMMARY: A scan of a table in memory never fails once the query was checked, however the table was made.
import Pushdown.Parquet.Loading
import Pushdown.Proofs.Memory.Batches
import Pushdown.Proofs.Memory.Building
import Pushdown.Proofs.Serving

/-!
# Tables in memory that can be made

There are three ways to a table in memory: from columns, row by row, and from record batches. Each of them
sees to it that the columns have the same number of rows, and that the keys of dictionary columns are
positions of the dictionary; none of them promises more of a dictionary. This is enough for a scan: every
row that it asks for is there, and every key that it resolves.
-/

namespace Pushdown

/-! ## What is checked -/

/-- The columns have the rows of the table, and their keys are positions of the dictionaries. -/
structure MemoryTable.Checked (t : MemoryTable) : Prop where
  rows_eq : ∀ {column}, column ∈ t.columns → column.rows = t.rows
  keyed : ∀ {column}, column ∈ t.columns → column.data.Keyed

namespace ColumnChunks

theorem servesCells_ofChunks {α : Type} {permitted : Failure → Prop} (chunks : List (List α)) :
    (Segments.ofChunks chunks).ServesCells permitted (.ofValues chunks.flatten) where
  serves := ⟨_, _, (Segments.ofChunks_holds chunks).serves, List.map_flatten.symm⟩
  permitted_of_mem := by simp [Cells.ofValues]

theorem serves_content {permitted : Failure → Prop} {data : ColumnChunks} {column : Column ChunkDecoder}
    (hkeyed : data.Keyed) (h : data.source = .ok column) : column.Serves permitted data.content := by
  cases data with
  | unsupported => cases h
  | float64 chunks =>
    cases h
    exact .float64 (servesCells_ofChunks chunks)
  | int32 chunks =>
    cases h
    exact .int32 (servesCells_ofChunks chunks)
  | utf8 chunks =>
    cases h
    exact .utf8 (servesCells_ofChunks chunks)
  | dictionary chunks texts =>
    cases h
    exact .dictionary (servesCells_ofChunks chunks) hkeyed

end ColumnChunks

namespace MemoryTable

variable {t : MemoryTable}

/-- A well-formed table passes the checks. -/
theorem WellFormed.checked (h : t.WellFormed) : t.Checked where
  rows_eq := h.rows_eq
  keyed {column} hcolumn := by
    have hsound := h.sound hcolumn
    obtain ⟨name, data⟩ := column
    cases data with
    | float64 | int32 | utf8 | unsupported => trivial
    | dictionary => exact hsound.2

/-- The store of a table in memory does not fail. -/
theorem Checked.serves_sheet (h : t.Checked) : t.toTable.Serves (fun _ => False) t.sheet where
  rows_eq := rfl
  column {position columnType} htype := by
    obtain ⟨column, source, hcolumn, -, hsource, hfound⟩ := exists_source htype
    refine ⟨source, hfound, ?_⟩
    rw [content_sheet hcolumn]
    exact ColumnChunks.serves_content (h.keyed (List.mem_of_getElem? hcolumn)) hsource
  columnType_eq {position columnType} htype := by
    obtain ⟨column, hcolumn, htype⟩ := namedType_eq_ok.mp htype
    rw [content_sheet hcolumn, ColumnChunks.columnType_content htype]
  size_eq {position columnType} htype := by
    obtain ⟨column, hcolumn, htype⟩ := namedType_eq_ok.mp htype
    rw [content_sheet hcolumn, ColumnChunks.size_content htype]
    exact h.rows_eq (List.mem_of_getElem? hcolumn)

/-- A checked query is answered. -/
theorem Checked.exists_answer (h : t.Checked) {query : Query} {predicates : List Predicate}
    (hcheck : t.toTable.check query = .ok predicates) (form : DictionaryForm) :
    ∃ answer, t.toTable.scan query form = .ok answer ∧ t.sheet.Answers query predicates form answer :=
  (Table.scan_ends h.serves_sheet hcheck form).exists_ok

end MemoryTable

/-! ## Loaded columns -/

theorem PartialColumn.Keeps.keyed {arrays : List Record.ColumnArray} {loader : PartialColumn}
    (h : loader.Keeps arrays) : loader.toData.Keyed := by
  cases loader with
  | float64 | int32 | utf8 | unsupported => trivial
  | dictionary chunks interner =>
    obtain ⟨-, -, hchunks⟩ := h
    obtain ⟨texts, -, hkeys⟩ := exists_flatMap_slots hchunks
    exact Dictionary.toNat_lt_of_map_keyOf? hkeys

theorem MemoryTable.LoadedFrom.keyed {t : MemoryTable} {settings : LoadSettings}
    {schema : List Record.Field} {batches : List Record.Batch} (h : t.LoadedFrom settings schema batches)
    {column : MemoryColumn} (hcolumn : column ∈ t.columns) : column.data.Keyed := by
  obtain ⟨position, field, loader, -, rfl, htook⟩ := h.exists_took hcolumn
  exact htook.keeps.keyed

/-! ## Ways to a table -/

/-- The columns that can be made. -/
inductive MemoryColumn.Made : MemoryColumn → Prop
  | float64 (name : String) (chunks : List (List Binary64)) : Made ⟨name, .float64 chunks⟩
  | int32 (name : String) (chunks : List (List Int32)) : Made ⟨name, .int32 chunks⟩
  | utf8 (name : String) (chunks : List (List String)) : Made ⟨name, .utf8 chunks⟩
  | dictionary {name : String} {chunks : List (List UInt32)} {texts : Dictionary} {column : MemoryColumn}
      (h : ofDictionary name chunks texts = .ok column) : Made column
  | unsupported (name typeName : String) (rows : Nat) : Made ⟨name, .unsupported typeName rows⟩

theorem MemoryColumn.Made.keyed {column : MemoryColumn} (h : column.Made) : column.data.Keyed := by
  cases h with
  | float64 | int32 | utf8 | unsupported => trivial
  | dictionary h =>
    obtain ⟨rfl, hkeys⟩ := ofDictionary_eq_ok.mp h
    exact hkeys

/-- The tables that can be made: of columns, with a builder, or by loading a file or its batches. -/
inductive MemoryTable.Made : MemoryTable → Prop
  | ofColumns {columns : List MemoryColumn} {t : MemoryTable} (hcolumns : ∀ column ∈ columns, column.Made)
      (h : ofColumns columns = .ok t) : Made t
  | finish {b : TableBuilder} (h : b.Reached) : Made b.finish
  | ofBatches {schema : List Record.Field} {batches : List Record.Batch} {settings : LoadSettings}
      {t : MemoryTable} (h : ofBatches schema batches settings = .ok t) : Made t
  | ofBatchFile {file : Record.BatchFile} {settings : LoadSettings} {t : MemoryTable}
      (h : ofBatchFile file settings = .ok t) : Made t
  | ofParquet {file : Parquet.File} {settings : LoadSettings} {t : MemoryTable}
      (h : ofParquet file settings = .ok t) : Made t

theorem MemoryTable.checked_of_ofBatches {schema : List Record.Field} {batches : List Record.Batch}
    {settings : LoadSettings} {t : MemoryTable} (h : ofBatches schema batches settings = .ok t) :
    t.Checked where
  rows_eq hcolumn := (loadedFrom_of_ofBatches h).column_rows_eq hcolumn
  keyed hcolumn := (loadedFrom_of_ofBatches h).keyed hcolumn

/-- Whichever way a table was made, its columns were checked. -/
theorem MemoryTable.Made.checked {t : MemoryTable} (h : t.Made) : t.Checked := by
  cases h with
  | ofColumns hcolumns h =>
    obtain rfl := columns_of_ofColumns h
    exact ⟨rows_of_ofColumns h, fun {column} hcolumn => (hcolumns column hcolumn).keyed⟩
  | finish h =>
    obtain ⟨rows, hfilled⟩ := h.filled
    exact ⟨fun hcolumn => (hfilled.finish hcolumn).1, fun hcolumn => (hfilled.finish hcolumn).2⟩
  | ofBatches h | ofBatchFile h | ofParquet h => exact checked_of_ofBatches h

end Pushdown
