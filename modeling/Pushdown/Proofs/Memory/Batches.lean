-- SUMMARY: The columns of a loaded table are the columns of its batches put together.
import Pushdown.Proofs.Memory.Loading

/-!
# Loading batches

The columns of a table take in the arrays of one batch after the other, each its own. That the columns have
taken in some batches is preserved by taking in one more, which gives the columns of a loaded table by
induction. If the batches are of the schema and no value is missing in a column that can be scanned, the
table is loaded. Of a column that cannot be scanned, of whatever type, only the name of the type and the number of
rows are kept.
-/

namespace Pushdown

open Record

namespace MemoryTable

open PartialColumn

variable {settings : LoadSettings} {schema : List Field} {batches : List Batch}
  {columns columns' : List (Field × PartialColumn)}

/-- The arrays of the column at a position. -/
def arraysAt (position : Nat) (batches : List Batch) : List ColumnArray :=
  batches.filterMap fun batch => batch.arrays[position]?

theorem arraysAt_concat {position : Nat} {batch : Batch} {array : ColumnArray}
    (h : batch.arrays[position]? = some array) :
    arraysAt position (batches ++ [batch]) = arraysAt position batches ++ [array] := by
  simp [arraysAt, h]

theorem slots_arraysAt {α : Type} (read : LeafArray → List α) (position : Nat) (batches : List Batch) :
    (arraysAt position batches).flatMap (ColumnArray.slots read) =
      batches.flatMap (Batch.slots read position) := by
  induction batches with
  | nil => rfl
  | cons batch batches ih =>
    simp only [arraysAt] at ih ⊢
    rw [List.filterMap_cons, List.flatMap_cons, Batch.slots]
    cases batch.arrays[position]? with
    | none => exact ih
    | some array =>
      exact congrArg (array.slots read ++ ·) ih

/-- The columns have taken in the batches. -/
structure Loaded (settings : LoadSettings) (schema : List Field) (batches : List Batch)
    (columns : List (Field × PartialColumn)) : Prop where
  length_eq : columns.length = schema.length
  arity : ∀ batch ∈ batches, batch.arrays.length = schema.length
  column : ∀ {position : Nat} {field : Field}, schema[position]? = some field →
    ∃ loader : PartialColumn, columns[position]? = some (field, loader) ∧
      loader.Took settings field.type (arraysAt position batches)

theorem loaded_nil (settings : LoadSettings) (schema : List Field) :
    Loaded settings schema [] (schema.map fun field => (field, .ofType settings field.type)) where
  length_eq := List.length_map _
  arity := by simp
  column {position field} hfield := ⟨_, by simp [hfield], took_ofType settings field.type⟩

theorem Loaded.took_of_column (h : Loaded settings schema batches columns) {position : Nat}
    {field : Field} {loader : PartialColumn} (hcolumn : columns[position]? = some (field, loader)) :
    schema[position]? = some field ∧ loader.Took settings field.type (arraysAt position batches) := by
  obtain ⟨hlt, -⟩ := List.getElem?_eq_some_iff.mp hcolumn
  have hfield := List.getElem?_eq_getElem (h.length_eq ▸ hlt)
  obtain ⟨loader', hloader', htook⟩ := h.column hfield
  rw [hcolumn] at hloader'
  cases hloader'
  exact ⟨hfield, htook⟩

theorem pushArrays_eq_ok {batch : Nat} {arrays : List ColumnArray}
    (h : pushArrays batch columns arrays = .ok columns') (hlength : arrays.length = columns.length) :
    columns'.length = columns.length ∧
      ∀ {position : Nat} {field : Field} {loader : PartialColumn} {array : ColumnArray},
        columns[position]? = some (field, loader) → arrays[position]? = some array →
          ∃ loader', columns'[position]? = some (field, loader') ∧ Pushed array loader loader' := by
  induction columns generalizing arrays columns' with
  | nil =>
    cases h
    exact ⟨rfl, by simp⟩
  | cons column columns ih =>
    obtain ⟨field, loader⟩ := column
    obtain ⟨array, arrays, rfl⟩ := List.exists_cons_of_length_eq_add_one hlength
    obtain ⟨loader', hpush, h⟩ := bind_eq_ok.mp h
    obtain ⟨columns', hrest, h⟩ := bind_eq_ok.mp h
    cases h
    obtain ⟨hlength', hcolumns⟩ := ih hrest (Nat.succ.inj hlength)
    refine ⟨congrArg (· + 1) hlength', ?_⟩
    intro position field₁ loader₁ array₁ hcolumn harray
    cases position with
    | zero =>
      cases hcolumn
      cases harray
      exact ⟨loader', rfl, pushed_of_push hpush⟩
    | succ position => exact hcolumns hcolumn harray

theorem Loaded.push (h : Loaded settings schema batches columns) {batch : Batch} {position : Nat}
    (hpush : pushBatch columns batch position = .ok columns') :
    Loaded settings schema (batches ++ [batch]) columns' := by
  unfold pushBatch at hpush
  by_cases hlength : batch.arrays.length = columns.length
  · rw [if_neg (not_not.mpr hlength)] at hpush
    obtain ⟨hlength', hcolumns⟩ := pushArrays_eq_ok hpush hlength
    have harity : ∀ other ∈ batches ++ [batch], other.arrays.length = schema.length :=
      List.forall_mem_append.mpr ⟨h.arity, by simpa using hlength.trans h.length_eq⟩
    refine ⟨hlength'.trans h.length_eq, harity, fun {position field} hfield => ?_⟩
    obtain ⟨loader, hloader, htook⟩ := h.column hfield
    obtain ⟨hlt, -⟩ := List.getElem?_eq_some_iff.mp hloader
    have harray : batch.arrays[position]? = some batch.arrays[position] :=
      List.getElem?_eq_getElem (hlength ▸ hlt)
    obtain ⟨loader', hloader', hpushed⟩ := hcolumns hloader harray
    refine ⟨loader', hloader', ?_⟩
    rw [arraysAt_concat harray]
    exact htook.push hpushed
  · rw [if_pos hlength] at hpush
    cases hpush

theorem Loaded.pushAll (h : Loaded settings schema batches columns) {more : List Batch} {start : Nat}
    (hpush : pushBatches columns (more.zipIdx start) = .ok columns') :
    Loaded settings schema (batches ++ more) columns' := by
  induction more generalizing batches columns start with
  | nil =>
    cases hpush
    rwa [List.append_nil]
  | cons batch more ih =>
    obtain ⟨between, hfirst, hrest⟩ := bind_eq_ok.mp hpush
    have hall := ih (h.push hfirst) hrest
    rwa [List.append_assoc] at hall

theorem columns_of_ofColumns {columns : List MemoryColumn} {t : MemoryTable}
    (h : ofColumns columns = .ok t) : t.columns = columns := by
  unfold ofColumns at h
  dsimp only at h
  split at h
  · cases h
  · cases h
    rfl

/-- The columns of a loaded table are those of the batches put together. -/
structure LoadedFrom (t : MemoryTable) (settings : LoadSettings) (schema : List Field)
    (batches : List Batch) : Prop where
  length_eq : t.columns.length = schema.length
  rows_eq : t.rows = (batches.map Batch.rows).sum
  column_rows_eq : ∀ {column}, column ∈ t.columns → column.rows = t.rows
  column : ∀ {position : Nat} {field : Field}, schema[position]? = some field →
    ∃ loader : PartialColumn, t.columns[position]? = some ⟨field.name, loader.toData⟩ ∧
      loader.Took settings field.type (arraysAt position batches)

/-- The first arrays of batches have the rows of the batches. -/
theorem lengths_arraysAt_zero (h : ∀ batch ∈ batches, batch.arrays ≠ []) :
    (arraysAt 0 batches).map ColumnArray.length = batches.map Batch.rows := by
  induction batches with
  | nil => rfl
  | cons batch batches ih =>
    obtain ⟨hbatch, hbatches⟩ := List.forall_mem_cons.mp h
    obtain ⟨array, arrays, harrays⟩ := List.exists_cons_of_ne_nil hbatch
    have hrest := ih hbatches
    simp only [arraysAt] at hrest ⊢
    rw [List.filterMap_cons, List.map_cons, Batch.rows, harrays, List.getElem?_cons_zero, List.map_cons,
      hrest]
    rfl

/-- Without columns there are no rows, in the table as in the batches. -/
theorem rows_of_loaded {t : MemoryTable} (h : Loaded settings schema batches columns)
    (ht : ofColumns (columns.map fun (field, loader) => ⟨field.name, loader.toData⟩) = .ok t) :
    t.rows = (batches.map Batch.rows).sum := by
  cases schema with
  | nil =>
    obtain rfl := List.eq_nil_of_length_eq_zero h.length_eq
    cases ht
    refine (List.sum_eq_zero_iff.mpr ?_).symm
    intro rows hrows
    obtain ⟨batch, hbatch, rfl⟩ := List.mem_map.mp hrows
    rw [Batch.rows, List.eq_nil_of_length_eq_zero (h.arity batch hbatch)]
    rfl
  | cons field schema =>
    have hfield : (field :: schema)[0]? = some field := rfl
    obtain ⟨loader, hloader, htook⟩ := h.column hfield
    have hmem : (⟨field.name, loader.toData⟩ : MemoryColumn) ∈ t.columns := by
      rw [columns_of_ofColumns ht]
      exact List.mem_map.mpr ⟨_, List.mem_of_getElem? hloader, rfl⟩
    have hnonempty : ∀ batch ∈ batches, batch.arrays ≠ [] := by
      intro batch hbatch hnil
      have hlength := h.arity batch hbatch
      rw [hnil] at hlength
      cases hlength
    rw [← rows_of_ofColumns ht hmem, ← lengths_arraysAt_zero hnonempty]
    exact htook.rows_eq

theorem loadedFrom_of_ofBatches {t : MemoryTable} (h : ofBatches schema batches settings = .ok t) :
    t.LoadedFrom settings schema batches := by
  obtain ⟨columns, hcolumns, h⟩ := bind_eq_ok.mp h
  have hloaded := (loaded_nil settings schema).pushAll hcolumns
  have hsame := columns_of_ofColumns h
  refine ⟨?_, rows_of_loaded hloaded h, rows_of_ofColumns h, fun {position field} hfield => ?_⟩
  · rw [hsame, List.length_map, hloaded.length_eq]
  · obtain ⟨loader, hloader, htook⟩ := hloaded.column hfield
    exact ⟨loader, by simp [hsame, hloader], htook⟩

variable {t : MemoryTable}

/-- Every column of a loaded table is that of a field, and has taken in its arrays. -/
theorem LoadedFrom.exists_took (h : t.LoadedFrom settings schema batches) {column : MemoryColumn}
    (hcolumn : column ∈ t.columns) :
    ∃ (position : Nat) (field : Field) (loader : PartialColumn), schema[position]? = some field ∧
      column = ⟨field.name, loader.toData⟩ ∧ loader.Took settings field.type (arraysAt position batches) := by
  obtain ⟨position, hposition⟩ := List.mem_iff_getElem?.mp hcolumn
  obtain ⟨hlt, -⟩ := List.getElem?_eq_some_iff.mp hposition
  have hfield := List.getElem?_eq_getElem (h.length_eq ▸ hlt)
  obtain ⟨loader, hloader, htook⟩ := h.column hfield
  exact ⟨position, _, loader, hfield, Option.some.inj (hposition.symm.trans hloader), htook⟩

/-- A loaded table is well formed as long as its dictionaries are small enough for their keys. -/
theorem LoadedFrom.wellFormed (h : t.LoadedFrom settings schema batches)
    (haddressable : ∀ column ∈ t.columns, Addressable column.data) : t.WellFormed where
  rows_eq := h.column_rows_eq
  sound {column} hcolumn := by
    obtain ⟨position, field, loader, -, rfl, htook⟩ := h.exists_took hcolumn
    exact htook.sound (haddressable _ hcolumn)

/-- The columns of a loaded table that can be scanned are fields that can be loaded. -/
theorem LoadedFrom.scannable_of_namedType (h : t.LoadedFrom settings schema batches) {position : Nat}
    {columnType : ColumnType} (htype : t.toTable.namedType position = .ok columnType) :
    ∃ field, schema[position]? = some field ∧ Scannable settings field.type columnType := by
  obtain ⟨column, hcolumn, htype⟩ := namedType_eq_ok.mp htype
  obtain ⟨hlt, -⟩ := List.getElem?_eq_some_iff.mp hcolumn
  have hfield := List.getElem?_eq_getElem (h.length_eq ▸ hlt)
  obtain ⟨loader, hloader, htook⟩ := h.column hfield
  obtain rfl := Option.some.inj (hcolumn.symm.trans hloader)
  exact ⟨_, hfield, scannable_iff.mp (htook.columnType?_eq ▸ htype)⟩

/-! ## Batches that can be loaded -/

/-- The batch is one of the schema, and no value is missing in a column that can be scanned. -/
structure Loadable (settings : LoadSettings) (schema : List Field) (batch : Batch) : Prop where
  conforms : batch.Conforms schema
  complete : ∀ {position : Nat} {field : Field} {array : ColumnArray} {columnType : ColumnType},
    schema[position]? = some field → batch.arrays[position]? = some array →
      Scannable settings field.type columnType → Complete array

/-- The arrays of a batch are loaded, or one of them is refused for something permitted. -/
theorem pushArrays_ends {permitted : Failure → Prop} {batch : Nat} {arrays : List ColumnArray}
    (h : ∀ {position : Nat} {field : Field} {loader : PartialColumn} {array : ColumnArray},
      columns[position]? = some (field, loader) → arrays[position]? = some array →
        Ends permitted (fun _ => True) (loader.push field array batch)) :
    Ends permitted (fun _ => True) (pushArrays batch columns arrays) := by
  induction columns generalizing arrays with
  | nil => exact .ok trivial
  | cons column columns ih =>
    obtain ⟨field, loader⟩ := column
    cases arrays with
    | nil => exact .ok trivial
    | cons array arrays =>
      have hcolumn : ((field, loader) :: columns)[0]? = some (field, loader) := rfl
      have hothers : ∀ {position : Nat} {field : Field} {loader : PartialColumn} {array : ColumnArray},
          columns[position]? = some (field, loader) → arrays[position]? = some array →
            Ends permitted (fun _ => True) (loader.push field array batch) :=
        fun {position _ _ _} hcolumn harray => @h (position + 1) _ _ _ hcolumn harray
      exact (h hcolumn List.getElem?_cons_zero).bind fun loader' _ => (ih hothers).bind fun _ _ => .ok trivial

/-- A batch of the schema is taken in, or one of its arrays is refused for something permitted. -/
theorem Loaded.pushBatch_ends (h : Loaded settings schema batches columns) {batch : Batch}
    (hbatch : batch.Conforms schema) {permitted : Failure → Prop} {position : Nat}
    (hpush : ∀ {place : Nat} {field : Field} {loader : PartialColumn} {array : ColumnArray},
      schema[place]? = some field → batch.arrays[place]? = some array → array.type = field.type →
        loader.toData.columnType? = (PartialColumn.ofType settings field.type).toData.columnType? →
          Ends permitted (fun _ => True) (loader.push field array position)) :
    Ends permitted (Loaded settings schema (batches ++ [batch])) (pushBatch columns batch position) := by
  have hlength : batch.arrays.length = columns.length := by
    rw [h.length_eq, ← List.length_map (f := ColumnArray.type), hbatch.types, List.length_map]
  have harrays : Ends permitted (fun _ => True) (pushArrays position columns batch.arrays) := by
    apply pushArrays_ends
    intro place field loader array hcolumn harray
    obtain ⟨hfield, htook⟩ := h.took_of_column hcolumn
    obtain ⟨_, harray', htype⟩ := Batch.array_of_field hbatch.types hfield
    obtain rfl := Option.some.inj (harray.symm.trans harray')
    exact hpush hfield harray htype htook.columnType?_eq
  have heq : pushBatch columns batch position = pushArrays position columns batch.arrays := by
    rw [pushBatch, if_neg (not_not.mpr hlength)]
  cases houtcome : pushArrays position columns batch.arrays with
  | ok columns' => exact heq.trans houtcome ▸ .ok (h.push (heq.trans houtcome))
  | error e =>
    rw [houtcome] at harrays
    exact heq.trans houtcome ▸ .error harrays.of_error

theorem Loaded.exists_push (h : Loaded settings schema batches columns) {batch : Batch}
    (hbatch : Loadable settings schema batch) (position : Nat) :
    ∃ columns', pushBatch columns batch position = .ok columns' := by
  have hends : Ends (fun _ => False) (Loaded settings schema (batches ++ [batch]))
      (pushBatch columns batch position) := by
    refine h.pushBatch_ends hbatch.conforms fun {_ field loader array} hfield harray htype hcolumn => ?_
    have hcomplete : loader.toData.columnType?.isSome → Complete array := by
      intro hsome
      obtain ⟨columnType, hcolumnType⟩ := Option.isSome_iff_exists.mp hsome
      exact hbatch.complete hfield harray (scannable_iff.mp (hcolumn ▸ hcolumnType))
    obtain ⟨loader', hpush⟩ := PartialColumn.exists_push hcolumn htype hcomplete position
    exact hpush ▸ .ok trivial
  obtain ⟨columns', hcolumns, -⟩ := hends.exists_ok
  exact ⟨columns', hcolumns⟩

theorem Loaded.exists_pushAll (h : Loaded settings schema batches columns) {more : List Batch}
    (hmore : ∀ batch ∈ more, Loadable settings schema batch) (start : Nat) :
    ∃ columns', pushBatches columns (more.zipIdx start) = .ok columns' := by
  induction more generalizing batches columns start with
  | nil => exact ⟨columns, rfl⟩
  | cons batch more ih =>
    obtain ⟨hbatch, hrest⟩ := List.forall_mem_cons.mp hmore
    obtain ⟨between, hfirst⟩ := h.exists_push hbatch start
    obtain ⟨columns', hall⟩ := ih (h.push hfirst) hrest (start + 1)
    exact ⟨columns', bind_eq_ok.mpr ⟨between, hfirst, hall⟩⟩

/-- In batches of a schema each array has the rows of its batch. -/
theorem lengths_arraysAt (h : ∀ batch ∈ batches, batch.Conforms schema) {position : Nat} {field : Field}
    (hfield : schema[position]? = some field) :
    (arraysAt position batches).map ColumnArray.length = batches.map Batch.rows := by
  induction batches with
  | nil => rfl
  | cons batch batches ih =>
    obtain ⟨hbatch, hbatches⟩ := List.forall_mem_cons.mp h
    obtain ⟨array, harray, -⟩ := Batch.array_of_field hbatch.types hfield
    have hlength : array.length = batch.rows := hbatch.length_eq array (List.mem_of_getElem? harray)
    have hrest := ih hbatches
    simp only [arraysAt] at hrest ⊢
    rw [List.filterMap_cons, harray, List.map_cons, List.map_cons, hlength, hrest]

theorem exists_ofBatches (h : ∀ batch ∈ batches, Loadable settings schema batch) :
    ∃ t, ofBatches schema batches settings = .ok t := by
  obtain ⟨columns, hcolumns⟩ := (loaded_nil settings schema).exists_pushAll h 0
  have hloaded := (loaded_nil settings schema).pushAll hcolumns
  have hrows : ∀ column ∈ columns.map fun (field, loader) => (⟨field.name, loader.toData⟩ : MemoryColumn),
      column.rows = (batches.map Batch.rows).sum := by
    intro column hcolumn
    obtain ⟨⟨field, loader⟩, hmem, rfl⟩ := List.mem_map.mp hcolumn
    obtain ⟨position, hposition⟩ := List.mem_iff_getElem?.mp hmem
    obtain ⟨hfield, htook⟩ := hloaded.took_of_column hposition
    show loader.toData.chunkSizes.sum = _
    rw [htook.rows_eq, List.nil_append,
      lengths_arraysAt (fun batch hbatch => (h batch hbatch).conforms) hfield]
  obtain ⟨t, ht⟩ := exists_ofColumns hrows
  exact ⟨t, bind_eq_ok.mpr ⟨columns, hcolumns, ht⟩⟩

/-! ## Chunk by chunk -/

/-- The column is that of the field, and each of its chunks holds what the slots of one batch hold. In a
    dictionary column no text is repeated, and the keys stand for the texts of the slots. A column that
    cannot be scanned keeps its place and counts its rows. -/
inductive HoldsBatches (settings : LoadSettings) (field : Field) (position : Nat) (batches : List Batch) :
    MemoryColumn → Prop
  | float64 {chunks : List (List Binary64)} (htype : Scannable settings field.type .float64)
      (h : List.Forall₂ (fun batch chunk => batch.slots LeafArray.floats position = chunk.map some)
        batches chunks) :
      HoldsBatches settings field position batches ⟨field.name, .float64 chunks⟩
  | int32 {chunks : List (List Int32)} (htype : Scannable settings field.type .int32)
      (h : List.Forall₂ (fun batch chunk => batch.slots LeafArray.integers position = chunk.map some)
        batches chunks) :
      HoldsBatches settings field position batches ⟨field.name, .int32 chunks⟩
  | utf8 {chunks : List (List String)} (htype : Scannable settings field.type .utf8)
      (h : List.Forall₂ (fun batch chunk => batch.slots LeafArray.texts position = chunk.map some)
        batches chunks) :
      HoldsBatches settings field position batches ⟨field.name, .utf8 chunks⟩
  | dictionary {chunks : List (List UInt32)} {d : Dictionary}
      (htype : Scannable settings field.type .dictionary) (hdistinct : d.values.Nodup)
      (h : List.Forall₂ (fun batch keys => ∃ texts : List String,
        batch.slots LeafArray.texts position = texts.map some ∧ keys.map d.textOf = texts.map .ok)
        batches chunks) :
      HoldsBatches settings field position batches ⟨field.name, .dictionary chunks d⟩
  | placeholder (htype : ∀ columnType, ¬ Scannable settings field.type columnType) :
      HoldsBatches settings field position batches
        ⟨field.name, .unsupported field.type.name (batches.map Batch.rows).sum⟩

/-- What holds of arrays and chunks in turn holds of the batches that the arrays are from. -/
theorem forall₂_of_arraysAt {α : Type} {R : ColumnArray → α → Prop} {R' : Batch → α → Prop} {position : Nat}
    {chunks : List α} (hsome : ∀ batch ∈ batches, ∃ array, batch.arrays[position]? = some array)
    (himp : ∀ {batch : Batch} {array : ColumnArray} {chunk : α}, batch.arrays[position]? = some array →
      R array chunk → R' batch chunk)
    (h : List.Forall₂ R (arraysAt position batches) chunks) : List.Forall₂ R' batches chunks := by
  induction batches generalizing chunks with
  | nil =>
    cases h
    exact .nil
  | cons batch batches ih =>
    obtain ⟨⟨array, harray⟩, hrest⟩ := List.forall_mem_cons.mp hsome
    rw [arraysAt, List.filterMap_cons, harray] at h
    cases h with
    | cons hchunk hchunks => exact .cons (himp harray hchunk) (ih hrest hchunks)

theorem slots_of_stores {α : Type} {read : LeafArray → List (Option α)} {position : Nat} {batch : Batch}
    {array : ColumnArray} {chunk : List α} (harray : batch.arrays[position]? = some array)
    (h : Stores read array chunk) : batch.slots read position = chunk.map some := by
  rw [Batch.slots, harray]
  exact h

theorem holdsBatches_of_took (hbatches : ∀ batch ∈ batches, batch.Conforms schema) {position : Nat}
    {field : Field} (hfield : schema[position]? = some field) {loader : PartialColumn}
    (htook : loader.Took settings field.type (arraysAt position batches))
    (haddressable : Addressable loader.toData) :
    HoldsBatches settings field position batches ⟨field.name, loader.toData⟩ := by
  have hsome : ∀ batch ∈ batches, ∃ array, batch.arrays[position]? = some array := by
    intro batch hbatch
    obtain ⟨array, harray, -⟩ := Batch.array_of_field (hbatches batch hbatch).types hfield
    exact ⟨array, harray⟩
  have htype : ∀ {columnType}, loader.toData.columnType? = some columnType →
      Scannable settings field.type columnType := fun hcolumn =>
    scannable_iff.mp (htook.columnType?_eq.symm.trans hcolumn)
  have hkeeps := htook.keeps
  cases loader with
  | float64 chunks => exact .float64 (htype rfl) (forall₂_of_arraysAt hsome slots_of_stores hkeeps)
  | int32 chunks => exact .int32 (htype rfl) (forall₂_of_arraysAt hsome slots_of_stores hkeeps)
  | utf8 chunks => exact .utf8 (htype rfl) (forall₂_of_arraysAt hsome slots_of_stores hkeeps)
  | dictionary chunks interner =>
    obtain ⟨hinterner, -, hchunks⟩ := hkeeps
    refine .dictionary (htype rfl) hinterner.distinct (forall₂_of_arraysAt hsome ?_ hchunks)
    rintro batch array keys harray ⟨texts, hslots, hkeys⟩
    exact ⟨texts, slots_of_stores harray hslots, Dictionary.map_textOf haddressable hkeys⟩
  | unsupported typeName rows =>
    have hrows : rows = (batches.map Batch.rows).sum := by
      rw [← lengths_arraysAt hbatches hfield, ← htook.rows_eq]
      rfl
    obtain rfl := htook.typeName_eq rfl
    rw [hrows]
    refine .placeholder fun columnType hscannable => ?_
    have hnone := htook.columnType?_eq.trans (scannable_iff.mpr hscannable)
    cases hnone

/-- Batches in which no value is missing are loaded. Every column takes the place of its field, and has one
    chunk for each batch, with its values in their order: as many as the batch has rows. Where texts are given
    keys, the keys stand for the texts as long as there are enough of them. -/
theorem loads_chunk_by_chunk (settings : LoadSettings) (schema : List Field) (batches : List Batch)
    (h : ∀ batch ∈ batches, Loadable settings schema batch) :
    ∃ t, ofBatches schema batches settings = .ok t ∧ t.rows = (batches.map Batch.rows).sum ∧
      t.columns.length = schema.length ∧
      ∀ {position : Nat} {field : Field}, schema[position]? = some field →
        ∃ column, t.columns[position]? = some column ∧
          (column.columnType?.isSome → column.chunkSizes = batches.map Batch.rows) ∧
          ((Scannable settings field.type .dictionary →
              ((arraysAt position batches).flatMap vocabulary).toFinset.card ≤ UInt32.size) →
            HoldsBatches settings field position batches column) := by
  have hconforms : ∀ batch ∈ batches, batch.Conforms schema := fun batch hbatch => (h batch hbatch).conforms
  obtain ⟨t, ht⟩ := exists_ofBatches h
  have hloaded := loadedFrom_of_ofBatches ht
  refine ⟨t, ht, hloaded.rows_eq, hloaded.length_eq, fun {position field} hfield => ?_⟩
  obtain ⟨loader, hloader, htook⟩ := hloaded.column hfield
  refine ⟨_, hloader, fun hsome => ?_, fun htexts =>
    holdsBatches_of_took hconforms hfield htook (htook.addressable_of_scannable htexts)⟩
  rw [← lengths_arraysAt hconforms hfield]
  exact htook.chunkSizes_eq hsome

/-- Two batches whose dictionaries differ in their order, repeat a text and list one that no key stands for,
    and a batch without rows between them. -/
theorem loads_differing_dictionaries :
    let schema : List Field :=
      [⟨"flag", .leaf (.plain .boolean), false⟩, ⟨"d", .leaf (.dictionary .int32 .utf8), false⟩]
    let batch (flags : List Bool) (keys : List (Option Int)) (texts : List (Option String)) : Batch :=
      ⟨[.leaf (.plain .boolean flags), .leaf (.dictionary .int32 .utf8 keys texts)]⟩
    let batches : List Batch :=
      [batch [true, true] [some 1, some 0] [some "b", some "a"], batch [] [] [some "z"],
        batch [true, false] [some 1, some 2] [some "c", some "a", some "a"]]
    (∀ batch ∈ batches, Loadable {} schema batch) ∧
      ∃ t first last d, ofBatches schema batches {} = .ok t ∧
        t.columns = [⟨"flag", .unsupported "Boolean" 4⟩, ⟨"d", .dictionary [first, [], last] d⟩] ∧
        d.values.Nodup ∧ first.map d.textOf = [.ok "a", .ok "b"] ∧
        last.map d.textOf = [.ok "a", .ok "a"] := by
  intro schema batch batches
  have hloadable : ∀ batch ∈ batches, Loadable {} schema batch := by
    have htypes : ∀ batch ∈ batches, batch.arrays.map ColumnArray.type = schema.map Field.type := by
      simp [batches, batch, schema, ColumnArray.type, LeafArray.type]
    have hlengths : ∀ batch ∈ batches, ∀ array ∈ batch.arrays, array.length = batch.rows := by
      simp [batches, batch, Batch.rows, ColumnArray.length, LeafArray.length]
    have hcomplete : ∀ batch ∈ batches, ∀ array, batch.arrays[1]? = some array → Complete array := by
      simp [batches, batch, Complete]
    intro batch hbatch
    refine ⟨⟨htypes batch hbatch, hlengths batch hbatch⟩, fun {position field array columnType} => ?_⟩
    intro hfield harray htype
    rcases position with _ | _ | position
    · cases hfield
      cases htype
    · exact hcomplete batch hbatch array harray
    · cases hfield
  have hfew : ((arraysAt 1 batches).flatMap vocabulary).toFinset.card ≤ UInt32.size :=
    (List.toFinset_card_le _).trans (by decide)
  refine ⟨hloadable, ?_⟩
  obtain ⟨t, ht, -, hlength, hcolumns⟩ := loads_chunk_by_chunk {} schema batches hloadable
  obtain ⟨flag, d, hpair⟩ := List.length_eq_two.mp hlength
  have hflag : schema[0]? = some ⟨"flag", .leaf (.plain .boolean), false⟩ := rfl
  have hd : schema[1]? = some ⟨"d", .leaf (.dictionary .int32 .utf8), false⟩ := rfl
  obtain ⟨_, hfirst, -, hholdsFlag⟩ := hcolumns hflag
  obtain ⟨_, hsecond, -, hholds⟩ := hcolumns hd
  have hnotDictionary : ¬ Scannable {} (.leaf (.plain .boolean)) .dictionary := by
    intro htype
    cases htype
  have hheldFlag := hholdsFlag fun htype => absurd htype hnotDictionary
  have hheld := hholds fun _ => hfew
  rw [hpair] at hfirst hsecond
  cases hfirst
  cases hsecond
  cases hheldFlag with
  | placeholder =>
    cases hheld with
    | @dictionary chunks d _ hdistinct hchunks =>
      obtain ⟨first, _, ⟨firstTexts, hslots, hfirst⟩, hrest, rfl⟩ := List.forall₂_cons_left_iff.mp hchunks
      obtain ⟨between, _, ⟨noTexts, hnone, hbetween⟩, hend, rfl⟩ := List.forall₂_cons_left_iff.mp hrest
      obtain ⟨last, _, ⟨lastTexts, hlastSlots, hlast⟩, hnil, rfl⟩ := List.forall₂_cons_left_iff.mp hend
      obtain rfl := List.forall₂_nil_left_iff.mp hnil
      have hinjective := List.map_injective_iff.mpr (Option.some_injective String)
      have hfirstTexts : ["a", "b"] = firstTexts := hinjective hslots
      have hnoTexts : [] = noTexts := hinjective hnone
      have hlastTexts : ["a", "a"] = lastTexts := hinjective hlastSlots
      subst hfirstTexts hnoTexts hlastTexts
      obtain rfl := List.map_eq_nil_iff.mp hbetween
      exact ⟨t, first, last, d, ht, hpair, hdistinct, hfirst, hlast⟩
    | float64 htype | int32 htype | utf8 htype => cases htype
    | placeholder htype => exact absurd .dictionary (htype _)
  | float64 htype | int32 htype | utf8 htype | dictionary htype => cases htype

end MemoryTable

end Pushdown
