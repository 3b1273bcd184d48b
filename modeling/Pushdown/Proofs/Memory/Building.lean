-- SUMMARY: A table that was built row by row has the rows that were accepted, and no trace of the others.
import Pushdown.Memory.Builder
import Pushdown.Proofs.Interner
import Pushdown.Proofs.Memory.Table

/-!
# Building row by row

A builder has taken in some rows when each of its column buffers has taken in the cells of its column, chunk
after chunk and, in a dictionary column, text after text. Appending a row that fits the schema adds it to
these rows, any other is rejected and changes nothing, and cutting a chunk keeps them. So a run of such calls
leads to a builder that has taken in the rows that fit, in their order, and the table that is made of it has
these rows, however they were cut into chunks.
-/

namespace Pushdown

/-! ## One column -/

namespace ChunkBuffer

variable {α : Type}

/-- The values taken in, in their order. -/
def values (b : ChunkBuffer α) : List α := b.closed.toList.flatten ++ b.current.toList

@[simp] theorem values_push (b : ChunkBuffer α) (value : α) : (b.push value).values = b.values ++ [value] := by
  simp [values, push]

@[simp] theorem values_cut (b : ChunkBuffer α) : b.cut.values = b.values := by
  unfold cut
  split
  · rfl
  · simp [values]

/-- The chunks have the values that were taken in. -/
@[simp] theorem flatten_toChunks (b : ChunkBuffer α) : b.toChunks.flatten = b.values := by
  unfold toChunks cut values
  by_cases hempty : b.current.isEmpty = true
  · rw [if_pos hempty, Array.isEmpty_iff.mp hempty]
    simp
  · rw [if_neg hempty]
    simp

end ChunkBuffer

/-- The text of a cell that has one. -/
def Cell.text? : Cell → Option String
  | .utf8 text => some text
  | .float64 _ | .int32 _ => none

theorem Cell.filterMap_text? (texts : List String) : (texts.map Cell.utf8).filterMap Cell.text? = texts := by
  rw [List.filterMap_map]
  exact List.filterMap_some

namespace ColumnChunks

/-- The keys of a dictionary column are positions of its dictionary. -/
def Keyed : ColumnChunks → Prop
  | .dictionary chunks texts => ∀ key ∈ chunks.flatten, key.toNat < texts.size
  | _ => True

/-- The cell of each row, in a dictionary column the text that its key stands for. -/
def cells : ColumnChunks → List (Option Cell)
  | .float64 chunks => chunks.flatten.map fun value => some (.float64 value)
  | .int32 chunks => chunks.flatten.map fun value => some (.int32 value)
  | .utf8 chunks => chunks.flatten.map fun text => some (.utf8 text)
  | .dictionary chunks texts => chunks.flatten.map fun key => (texts.textOf key).toOption.map .utf8
  | .unsupported _ rows => List.replicate rows none

end ColumnChunks

namespace ColumnBuffer

variable {b : ColumnBuffer} {columnType : ColumnType} {cells : List Cell}

/-- The buffer is one for columns of the type, and has taken in the cells. -/
inductive Filled (cells : List Cell) : ColumnType → ColumnBuffer → Prop
  | float64 {chunks : ChunkBuffer Binary64} (h : chunks.values.map Cell.float64 = cells) :
      Filled cells .float64 (.float64 chunks)
  | int32 {chunks : ChunkBuffer Int32} (h : chunks.values.map Cell.int32 = cells) :
      Filled cells .int32 (.int32 chunks)
  | utf8 {chunks : ChunkBuffer String} (h : chunks.values.map Cell.utf8 = cells) :
      Filled cells .utf8 (.utf8 chunks)
  | dictionary {keys : ChunkBuffer UInt32} {interner : Interner} {texts : List String}
      (h : texts.map Cell.utf8 = cells) (hinterned : Interner.empty.Interned texts keys.values interner) :
      Filled cells .dictionary (.dictionary keys interner)

theorem filled_new (columnType : ColumnType) : (new columnType).Filled [] columnType := by
  cases columnType with
  | float64 => exact .float64 rfl
  | int32 => exact .int32 rfl
  | utf8 => exact .utf8 rfl
  | dictionary => exact .dictionary rfl Interner.sound_empty.interned_nil

theorem Filled.push (h : b.Filled cells columnType) {cell : Cell} (hfits : cell.fits columnType = true) :
    (b.push cell).Filled (cells ++ [cell]) columnType := by
  cases h with
  | float64 h =>
    cases cell with
    | float64 value => exact .float64 (by simp [h])
    | int32 | utf8 => cases hfits
  | int32 h =>
    cases cell with
    | int32 value => exact .int32 (by simp [h])
    | float64 | utf8 => cases hfits
  | utf8 h =>
    cases cell with
    | utf8 value => exact .utf8 (by simp [h])
    | float64 | int32 => cases hfits
  | @dictionary keys interner texts h hinterned =>
    cases cell with
    | utf8 text =>
      have hmore := hinterned.append (hinterned.sound.intern text)
      rw [← ChunkBuffer.values_push] at hmore
      exact .dictionary (by simp [h]) hmore
    | float64 | int32 => cases hfits

theorem Filled.cut (h : b.Filled cells columnType) : b.cut.Filled cells columnType := by
  cases h with
  | float64 h => exact .float64 (by rwa [ChunkBuffer.values_cut])
  | int32 h => exact .int32 (by rwa [ChunkBuffer.values_cut])
  | utf8 h => exact .utf8 (by rwa [ChunkBuffer.values_cut])
  | dictionary h hinterned => exact .dictionary h (by rwa [ChunkBuffer.values_cut])

/-! ## The column of a buffer -/

theorem Filled.columnType?_eq (h : b.Filled cells columnType) : b.toData.columnType? = some columnType := by
  cases h <;> rfl

theorem Filled.sum_chunkSizes (h : b.Filled cells columnType) : b.toData.chunkSizes.sum = cells.length := by
  cases h with
  | float64 h | int32 h | utf8 h =>
    rw [← h, List.length_map, toData, ColumnChunks.chunkSizes, ← List.length_flatten,
      ChunkBuffer.flatten_toChunks]
  | dictionary h hinterned =>
    have hkeys := congrArg List.length hinterned.keys_eq
    rw [List.length_map, List.length_map] at hkeys
    rw [← h, List.length_map, hkeys, toData, ColumnChunks.chunkSizes, ← List.length_flatten,
      ChunkBuffer.flatten_toChunks]

theorem Filled.keyed (h : b.Filled cells columnType) : b.toData.Keyed := by
  cases h with
  | float64 | int32 | utf8 => trivial
  | dictionary h hinterned =>
    have hkeys := Dictionary.toNat_lt_of_map_keyOf? hinterned.keys_eq
    rwa [← ChunkBuffer.flatten_toChunks] at hkeys

/-- The dictionary lists the texts of the cells, each where it first came in. -/
theorem Filled.texts_eq (h : b.Filled cells .dictionary) : ∃ chunks texts,
    b.toData = .dictionary chunks texts ∧ texts.values = (cells.filterMap Cell.text?).eraseDups := by
  cases h with
  | @dictionary keys interner texts h hinterned =>
    refine ⟨_, _, rfl, ?_⟩
    rw [← h, Cell.filterMap_text?, ← List.nil_append texts]
    exact hinterned.values_eq rfl

/-- The column gives the cells back. In a dictionary column there must be a key for every text. -/
theorem Filled.cells_eq (h : b.Filled cells columnType)
    (htexts : columnType = .dictionary → (cells.filterMap Cell.text?).eraseDups.length ≤ UInt32.size) :
    b.toData.cells = cells.map some := by
  cases h with
  | float64 h | int32 h | utf8 h =>
    rw [← h, List.map_map, toData, ColumnChunks.cells, ChunkBuffer.flatten_toChunks]
    rfl
  | @dictionary keys interner texts h hinterned =>
    have hsize : interner.toDictionary.size ≤ UInt32.size := by
      obtain ⟨_, _, hdata, hvalues⟩ := (Filled.dictionary h hinterned).texts_eq
      cases hdata
      rw [Dictionary.size, hvalues]
      exact htexts rfl
    have hfound := Dictionary.map_textOf hsize hinterned.keys_eq
    calc (keys.toChunks.flatten.map fun key => (interner.toDictionary.textOf key).toOption.map Cell.utf8)
        = (keys.values.map interner.toDictionary.textOf).map fun found => found.toOption.map Cell.utf8 := by
          rw [ChunkBuffer.flatten_toChunks, List.map_map]
          rfl
      _ = texts.map fun text => some (Cell.utf8 text) := by
          rw [hfound, List.map_map]
          rfl
      _ = cells.map some := by
          rw [← h, List.map_map]
          rfl

end ColumnBuffer

/-! ## Rows -/

/-- The row has one cell for each column, and each cell fits its column. -/
def RowFits (schema : List ColumnHeader) (row : List Cell) : Prop :=
  List.Forall₂ (fun header cell => Cell.fits cell header.columnType = true) schema row

instance (schema : List ColumnHeader) (row : List Cell) : Decidable (RowFits schema row) :=
  inferInstanceAs (Decidable (List.Forall₂ _ schema row))

/-- The cells at a position of rows. -/
def cellsAt (position : Nat) (rows : List (List Cell)) : List Cell := rows.filterMap (·[position]?)

theorem RowFits.exists_cell {schema : List ColumnHeader} {row : List Cell} (h : RowFits schema row)
    {position : Nat} {header : ColumnHeader} (hheader : schema[position]? = some header) :
    ∃ cell, row[position]? = some cell ∧ cell.fits header.columnType = true := by
  obtain ⟨hlt, rfl⟩ := List.getElem?_eq_some_iff.mp hheader
  exact ⟨_, List.getElem?_eq_getElem (h.length_eq ▸ hlt), h.get hlt (h.length_eq ▸ hlt)⟩

/-- Every row that fits has a cell in every column. -/
theorem map_some_cellsAt {schema : List ColumnHeader} {rows : List (List Cell)}
    (h : ∀ row ∈ rows, RowFits schema row) {position : Nat} {header : ColumnHeader}
    (hheader : schema[position]? = some header) :
    (cellsAt position rows).map some = rows.map (·[position]?) := by
  induction rows with
  | nil => rfl
  | cons row rows ih =>
    obtain ⟨hrow, hrows⟩ := List.forall_mem_cons.mp h
    obtain ⟨cell, hcell, -⟩ := hrow.exists_cell hheader
    rw [List.map_cons, ← ih hrows, cellsAt, List.filterMap_cons, hcell]
    rfl

namespace TableBuilder

variable {b : TableBuilder} {rows : List (List Cell)}

/-- A row is rejected if it does not fit, and only then. -/
theorem rejection?_eq_none {schema : List ColumnHeader} {row : List Cell} :
    rejection? schema row = none ↔ RowFits schema row := by
  unfold rejection?
  by_cases hlength : row.length = schema.length
  · rw [if_neg (not_not.mpr hlength), Option.map_eq_none_iff, List.find?_eq_none, RowFits,
      List.forall₂_iff_zip]
    constructor
    · refine fun h => ⟨hlength.symm, fun {header cell} hmem => ?_⟩
      obtain ⟨position, hposition⟩ := List.mem_iff_getElem?.mp hmem
      have hfits := h ((header, cell), position) (List.mem_zipIdx_iff_getElem?.mpr hposition)
      simpa using hfits
    · rintro ⟨-, h⟩ ⟨⟨header, cell⟩, position⟩ hentry
      simpa using h (List.fst_mem_of_mem_zipIdx hentry)
  · rw [if_pos hlength]
    simp only [reduceCtorEq, false_iff]
    exact fun h => hlength h.length_eq.symm

theorem append_of_fits {row : List Cell} (h : RowFits b.schema row) : b.append row = (.ok (), b.write row) := by
  rw [append, rejection?_eq_none.mpr h]

theorem append_of_not_fits {row : List Cell} (h : ¬ RowFits b.schema row) :
    ∃ e, b.append row = (.error e, b) := by
  rw [← rejection?_eq_none] at h
  obtain ⟨e, he⟩ := Option.ne_none_iff_exists'.mp h
  exact ⟨e, by rw [append, he]⟩

theorem append_eq_ok {row : List Cell} : (b.append row).1 = .ok () ↔ RowFits b.schema row := by
  by_cases hrow : RowFits b.schema row
  · rw [append_of_fits hrow]
    exact iff_of_true rfl hrow
  · obtain ⟨e, happend⟩ := append_of_not_fits hrow
    rw [happend]
    exact iff_of_false nofun hrow

/-! ## Rows taken in -/

/-- Every column has taken in its cells of the rows. -/
structure Filled (rows : List (List Cell)) (b : TableBuilder) : Prop where
  rows_eq : b.rows = rows.length
  fits : ∀ row ∈ rows, RowFits b.schema row
  length_eq : b.columns.length = b.schema.length
  column : ∀ {position : Nat} {header : ColumnHeader}, b.schema[position]? = some header →
    ∃ buffer, b.columns[position]? = some buffer ∧
      buffer.Filled (cellsAt position rows) header.columnType

theorem filled_new (schema : List ColumnHeader) (chunkRows : Nat) : (new schema chunkRows).Filled [] where
  rows_eq := rfl
  fits := by simp
  length_eq := List.length_map _
  column {position header} hheader := by
    have hheader : schema[position]? = some header := hheader
    exact ⟨_, by simp [new, hheader], ColumnBuffer.filled_new header.columnType⟩

@[simp] theorem schema_cut (b : TableBuilder) : b.cut.schema = b.schema := by
  unfold TableBuilder.cut
  split <;> rfl

theorem Filled.cut (h : b.Filled rows) : b.cut.Filled rows := by
  unfold TableBuilder.cut
  split
  · exact h
  · refine ⟨h.rows_eq, h.fits, (List.length_map _).trans h.length_eq, fun {position header} hheader => ?_⟩
    obtain ⟨buffer, hbuffer, hfilled⟩ := h.column hheader
    exact ⟨buffer.cut, by simp [hbuffer], hfilled.cut⟩

/-- Writing a row adds its cells to the columns, whether a chunk is full then or not. -/
theorem Filled.write (h : b.Filled rows) {row : List Cell} (hrow : RowFits b.schema row) :
    (b.write row).Filled (rows ++ [row]) := by
  have hwritten : Filled (rows ++ [row])
      { b with columns := List.zipWith .push b.columns row, rows := b.rows + 1, fill := b.fill + 1 } := by
    refine ⟨?_, ?_, ?_, fun {position header} hheader => ?_⟩
    · simp [h.rows_eq]
    · exact List.forall_mem_append.mpr ⟨h.fits, List.forall_mem_singleton.mpr hrow⟩
    · simp [h.length_eq, ← hrow.length_eq]
    · obtain ⟨buffer, hbuffer, hfilled⟩ := h.column hheader
      obtain ⟨cell, hcell, hfits⟩ := hrow.exists_cell hheader
      have hcells : cellsAt position (rows ++ [row]) = cellsAt position rows ++ [cell] := by
        simp [cellsAt, hcell]
      refine ⟨buffer.push cell, List.getElem?_zipWith_eq_some.mpr ⟨_, _, hbuffer, hcell, rfl⟩, ?_⟩
      rw [hcells]
      exact hfilled.push hfits
  unfold TableBuilder.write
  dsimp only
  split
  · exact hwritten.cut
  · exact hwritten

/-! ## Runs of calls -/

/-- A call on a builder. -/
inductive Step
  | append (row : List Cell)
  | cut
deriving DecidableEq, Repr

/-- Whether the call is not rejected. -/
def Step.isAccepted (schema : List ColumnHeader) : Step → Bool
  | .append row => decide (RowFits schema row)
  | .cut => true

/-- The row that the call adds to the table. -/
def Step.row? (schema : List ColumnHeader) : Step → Option (List Cell)
  | .append row => if RowFits schema row then some row else none
  | .cut => none

def step (b : TableBuilder) : Step → TableBuilder
  | .append row => (b.append row).2
  | .cut => b.cut

/-- Make one call after the other, going on after rows that are rejected. -/
def run (b : TableBuilder) (steps : List Step) : TableBuilder := steps.foldl step b

theorem step_append_of_not_fits {row : List Cell} (h : ¬ RowFits b.schema row) :
    b.step (.append row) = b := by
  obtain ⟨e, happend⟩ := append_of_not_fits h
  exact congrArg Prod.snd happend

theorem step_of_not_accepted {call : Step} (h : call.isAccepted b.schema = false) : b.step call = b := by
  cases call with
  | append row => exact step_append_of_not_fits (of_decide_eq_false h)
  | cut => cases h

@[simp] theorem schema_step (b : TableBuilder) (call : Step) : (b.step call).schema = b.schema := by
  cases call with
  | append row =>
    by_cases hrow : RowFits b.schema row
    · rw [step, append_of_fits hrow, write]
      dsimp only
      split
      · exact schema_cut _
      · rfl
    · rw [step_append_of_not_fits hrow]
  | cut => exact schema_cut b

theorem Filled.step (h : b.Filled rows) (call : Step) :
    (b.step call).Filled (rows ++ (call.row? b.schema).toList) := by
  cases call with
  | append row =>
    by_cases hrow : RowFits b.schema row
    · rw [TableBuilder.step, append_of_fits hrow, Step.row?, if_pos hrow]
      exact h.write hrow
    · rw [step_append_of_not_fits hrow, Step.row?, if_neg hrow]
      simpa using h
  | cut => simpa [TableBuilder.step, Step.row?] using h.cut

@[simp] theorem schema_run (b : TableBuilder) (steps : List Step) : (b.run steps).schema = b.schema := by
  induction steps generalizing b with
  | nil => rfl
  | cons call steps ih => exact (ih (b.step call)).trans (schema_step b call)

/-- A run takes in the rows that fit, in their order. -/
theorem Filled.run (h : b.Filled rows) (steps : List Step) :
    (b.run steps).Filled (rows ++ steps.filterMap (Step.row? b.schema)) := by
  induction steps generalizing b rows with
  | nil => simpa [TableBuilder.run] using h
  | cons call steps ih =>
    have hrest := ih (h.step call)
    rw [schema_step, List.append_assoc] at hrest
    have hrows : (call :: steps).filterMap (Step.row? b.schema) =
        (call.row? b.schema).toList ++ steps.filterMap (Step.row? b.schema) := by
      rw [List.filterMap_cons]
      cases call.row? b.schema <;> rfl
    rw [hrows]
    exact hrest

/-- Calls that are rejected may as well not be made. -/
theorem run_filter_isAccepted (b : TableBuilder) (steps : List Step) :
    b.run (steps.filter (Step.isAccepted b.schema)) = b.run steps := by
  induction steps generalizing b with
  | nil => rfl
  | cons call steps ih =>
    have hrest := ih (b.step call)
    rw [schema_step] at hrest
    cases haccepted : call.isAccepted b.schema with
    | true =>
      rw [List.filter_cons_of_pos haccepted]
      exact hrest
    | false =>
      rw [List.filter_cons_of_neg (by simp [haccepted])]
      rw [step_of_not_accepted haccepted] at hrest
      exact hrest.trans (congrArg (·.run steps) (step_of_not_accepted haccepted).symm)

/-- The builders that appending rows and cutting chunks lead to. A row that is rejected may be among those
    appended. -/
inductive Reached : TableBuilder → Prop
  | new (schema : List ColumnHeader) (chunkRows : Nat) : Reached (new schema chunkRows)
  | append {b : TableBuilder} (h : Reached b) (row : List Cell) : Reached (b.append row).2
  | cut {b : TableBuilder} (h : Reached b) : Reached b.cut

theorem Reached.filled (h : b.Reached) : ∃ rows, b.Filled rows := by
  induction h with
  | new schema chunkRows => exact ⟨[], filled_new schema chunkRows⟩
  | append _ row ih =>
    obtain ⟨rows, hfilled⟩ := ih
    exact ⟨_, hfilled.step (.append row)⟩
  | cut _ ih =>
    obtain ⟨rows, hfilled⟩ := ih
    exact ⟨rows, hfilled.cut⟩

/-! ## The table -/

/-- A column of the finished table is made of a buffer that has taken in its cells. -/
theorem Filled.column_finish (h : b.Filled rows) {position : Nat} {header : ColumnHeader}
    (hheader : b.schema[position]? = some header) :
    ∃ buffer : ColumnBuffer, b.finish.columns[position]? = some ⟨header.name, buffer.toData⟩ ∧
      buffer.Filled (cellsAt position rows) header.columnType := by
  rw [← schema_cut] at hheader
  obtain ⟨buffer, hbuffer, hfilled⟩ := h.cut.column hheader
  exact ⟨buffer, List.getElem?_zipWith_eq_some.mpr ⟨_, _, hheader, hbuffer, rfl⟩, hfilled⟩

theorem Filled.rows_finish (h : b.Filled rows) : b.finish.rows = rows.length := h.cut.rows_eq

theorem Filled.length_finish (h : b.Filled rows) : b.finish.columns.length = b.schema.length := by
  have hlength := h.cut.length_eq
  rw [schema_cut] at hlength
  simp [TableBuilder.finish, hlength]

theorem Filled.length_cellsAt (h : b.Filled rows) {position : Nat} {header : ColumnHeader}
    (hheader : b.schema[position]? = some header) : (cellsAt position rows).length = rows.length := by
  have hcells := congrArg List.length (map_some_cellsAt h.fits hheader)
  rwa [List.length_map, List.length_map] at hcells

/-- The columns of the table that a builder makes have its rows, and keys of their dictionaries. -/
theorem Filled.finish (h : b.Filled rows) {column : MemoryColumn} (hcolumn : column ∈ b.finish.columns) :
    column.rows = b.finish.rows ∧ column.data.Keyed := by
  obtain ⟨position, hposition⟩ := List.mem_iff_getElem?.mp hcolumn
  obtain ⟨hlt, -⟩ := List.getElem?_eq_some_iff.mp hposition
  have hheader := List.getElem?_eq_getElem (h.length_finish ▸ hlt)
  obtain ⟨buffer, hbuffer, hfilled⟩ := h.column_finish hheader
  obtain rfl := Option.some.inj (hposition.symm.trans hbuffer)
  refine ⟨?_, hfilled.keyed⟩
  rw [h.rows_finish, ← h.length_cellsAt hheader]
  exact hfilled.sum_chunkSizes

end TableBuilder

/-! ## The rows of the table -/

/-- The column has the cells of the rows at the position, in their order. In a dictionary column these are
    the texts that the keys stand for, and the dictionary lists each text where it first came in. -/
structure MemoryColumn.HasCells (column : MemoryColumn) (header : ColumnHeader) (position : Nat)
    (rows : List (List Cell)) : Prop where
  name_eq : column.name = header.name
  columnType?_eq : column.columnType? = some header.columnType
  rows_eq : column.rows = rows.length
  texts_eq : header.columnType = .dictionary → ∃ texts, column.dictionary? = some texts ∧
    texts.values = ((cellsAt position rows).filterMap Cell.text?).eraseDups
  cells_eq : (header.columnType = .dictionary →
      ((cellsAt position rows).filterMap Cell.text?).eraseDups.length ≤ UInt32.size) →
    column.data.cells = rows.map (·[position]?)

/-- The table has the columns of the schema, and in them the rows. -/
structure MemoryTable.HasRows (t : MemoryTable) (schema : List ColumnHeader) (rows : List (List Cell)) :
    Prop where
  rows_eq : t.rows = rows.length
  length_eq : t.columns.length = schema.length
  column : ∀ {position : Nat} {header : ColumnHeader}, schema[position]? = some header →
    ∃ column, t.columns[position]? = some column ∧ column.HasCells header position rows

namespace TableBuilder

variable {b : TableBuilder} {rows : List (List Cell)}

theorem Filled.hasRows (h : b.Filled rows) : b.finish.HasRows b.schema rows where
  rows_eq := h.rows_finish
  length_eq := h.length_finish
  column {position header} hheader := by
    obtain ⟨buffer, hbuffer, hfilled⟩ := h.column_finish hheader
    refine ⟨_, hbuffer, ?_⟩
    constructor
    case name_eq => rfl
    case columnType?_eq => exact hfilled.columnType?_eq
    case rows_eq => exact hfilled.sum_chunkSizes.trans (h.length_cellsAt hheader)
    case texts_eq =>
      intro htype
      rw [htype] at hfilled
      obtain ⟨chunks, texts, hdata, htexts⟩ := hfilled.texts_eq
      exact ⟨texts, by rw [MemoryColumn.dictionary?, hdata], htexts⟩
    case cells_eq =>
      intro htexts
      rw [← map_some_cellsAt h.fits hheader]
      exact hfilled.cells_eq htexts

/-- The finished table has the rows that a run of calls got accepted. -/
theorem hasRows_run (schema : List ColumnHeader) (chunkRows : Nat) (steps : List Step) :
    ((new schema chunkRows).run steps).finish.HasRows schema (steps.filterMap (Step.row? schema)) := by
  have hrows := ((filled_new schema chunkRows).run steps).hasRows
  rwa [schema_run] at hrows

/-- After any run of calls a row is accepted if it fits the schema, and only then, and a row that is rejected
    leaves the builder as it is. The finished table is that of the run without the rejected calls, and it
    has the rows that were accepted. -/
theorem finish_run (schema : List ColumnHeader) (chunkRows : Nat) (steps : List Step) :
    (∀ row, (((new schema chunkRows).run steps).append row).1 = .ok () ↔ RowFits schema row) ∧
      (∀ row, ¬ RowFits schema row →
        (((new schema chunkRows).run steps).append row).2 = (new schema chunkRows).run steps) ∧
      ((new schema chunkRows).run (steps.filter (Step.isAccepted schema))).finish =
        ((new schema chunkRows).run steps).finish ∧
      ((new schema chunkRows).run steps).finish.HasRows schema (steps.filterMap (Step.row? schema)) := by
  have hschema : ((new schema chunkRows).run steps).schema = schema := schema_run _ _
  refine ⟨fun row => ?_, fun row hrow => ?_, ?_, hasRows_run schema chunkRows steps⟩
  · rw [append_eq_ok, hschema]
  · rw [← hschema] at hrow
    exact step_append_of_not_fits hrow
  · exact congrArg finish (run_filter_isAccepted (new schema chunkRows) steps)

/-- The text of a rejected row gets no key, and the rows around a cut stay in their order. -/
theorem finish_run_past_rejected_rows :
    let schema : List ColumnHeader := [⟨"d", .dictionary⟩, ⟨"n", .int32⟩]
    let steps : List Step :=
      [.append [.utf8 "b", .int32 1], .append [.utf8 "x", .utf8 "y"], .append [.utf8 "a", .int32 2], .cut,
        .append [.utf8 "z"], .append [.utf8 "b", .int32 3]]
    let b := (new schema 2).run steps
    ¬ RowFits schema [.utf8 "z"] ∧ (b.append [.utf8 "z"]).2 = b ∧ b.finish.rows = 3 ∧
      ∃ column texts, b.finish.columns[0]? = some column ∧ column.dictionary? = some texts ∧
        texts.values = ["b", "a"] ∧
        column.data.cells = [some (.utf8 "b"), some (.utf8 "a"), some (.utf8 "b")] := by
  intro schema steps b
  have hmisfit : ¬ RowFits schema [.utf8 "z"] := by decide
  obtain ⟨-, hrejected, -, hrows⟩ := finish_run schema 2 steps
  have hheader : schema[0]? = some ⟨"d", .dictionary⟩ := rfl
  obtain ⟨column, hcolumn, hcells⟩ := hrows.column hheader
  obtain ⟨texts, htexts, hvalues⟩ := hcells.texts_eq rfl
  refine ⟨hmisfit, hrejected _ hmisfit, ?_, column, texts, hcolumn, htexts, ?_, ?_⟩
  · exact hrows.rows_eq.trans (by decide)
  · exact hvalues.trans (by decide)
  · exact (hcells.cells_eq fun _ => by decide).trans (by decide)

end TableBuilder

end Pushdown
