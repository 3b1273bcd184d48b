-- SUMMARY: A table in memory shows the sheet of its columns with their chunks joined.
import Pushdown.Memory.Table
import Pushdown.Proofs.Scan

/-!
# Scanning tables in memory

The sheet of a table in memory has the values of each column chunk after chunk. Nothing in it is
missing, so no scan of a checked query fails: whatever the chunks are, it gives the answer read off the
sheet.
-/

namespace Pushdown

/-! ## Chunks -/

namespace ChunkDecoder

variable {α : Type} {d : ChunkDecoder α} {n : Nat}

theorem skip_of_le (h : n ≤ d.rest.length) : d.skip n = (.ok (), { d with rest := d.rest.drop n }) := by
  rw [skip, if_neg (by simp [h])]

theorem skip_of_lt (h : d.rest.length < n) :
    d.skip n = (.error (.truncatedSegment d.segment n d.rest.length), d) := by
  rw [skip, if_pos (by simp [h])]

/-- The decoder has the cells before it. -/
def Ahead (d : ChunkDecoder α) (rest : Cells α) : Prop := rest = .ofValues d.rest

end ChunkDecoder

theorem Segments.ofChunks_holds {α : Type} (chunks : List (List α)) :
    (Segments.ofChunks chunks).Holds (chunks.map Cells.ofValues) ChunkDecoder.Ahead where
  count := by simp [ofChunks]
  size {segment part} hpart := by
    obtain ⟨chunk, hchunk, rfl⟩ := by simpa using hpart
    simp [ofChunks, hchunk]
  decoder {segment part} hpart := by
    obtain ⟨chunk, hchunk, rfl⟩ := by simpa using hpart
    exact ⟨⟨segment, chunk⟩, by simp [ofChunks, hchunk], rfl⟩
  skip {d rest n} hahead hle := by
    obtain rfl := hahead
    rw [Cells.length_ofValues] at hle
    exact ⟨_, ChunkDecoder.skip_of_le hle, (List.map_drop ..).symm⟩
  next {d cell rest} hahead := by
    obtain ⟨segment, values⟩ := d
    cases values with
    | nil => cases hahead
    | cons value values =>
      cases hahead
      exact ⟨⟨segment, values⟩, rfl, rfl⟩

theorem Segments.ofChunks_holdsCells {α : Type} (chunks : List (List α)) :
    (Segments.ofChunks chunks).HoldsCells (.ofValues chunks.flatten) :=
  ⟨_, _, ofChunks_holds chunks, List.map_flatten.symm⟩

/-! ## Columns -/

namespace ColumnChunks

/-- The column with its chunks joined. One that cannot be scanned has no content. -/
def content : ColumnChunks → Content
  | .float64 chunks => .float64 (.ofValues chunks.flatten)
  | .int32 chunks => .int32 (.ofValues chunks.flatten)
  | .utf8 chunks => .utf8 (.ofValues chunks.flatten)
  | .dictionary chunks texts => .dictionary chunks.flatten texts
  | .unsupported .. => .utf8 []

/-- The texts that the rows can have. -/
def texts : ColumnChunks → List String
  | .utf8 chunks => chunks.flatten
  | .dictionary _ texts => texts.values
  | .float64 _ | .int32 _ | .unsupported .. => []

theorem holds_content {data : ColumnChunks} {column : Column ChunkDecoder}
    (h : data.source = .ok column) : column.Holds data.content := by
  cases data with
  | unsupported => cases h
  | float64 chunks =>
    cases h
    exact .float64 (Segments.ofChunks_holdsCells chunks)
  | int32 chunks =>
    cases h
    exact .int32 (Segments.ofChunks_holdsCells chunks)
  | utf8 chunks =>
    cases h
    exact .utf8 (Segments.ofChunks_holdsCells chunks)
  | dictionary chunks texts =>
    cases h
    exact .dictionary (Segments.ofChunks_holdsCells chunks)

theorem size_content {data : ColumnChunks} {columnType : ColumnType}
    (h : data.columnType? = some columnType) : data.content.size = data.chunkSizes.sum := by
  cases data with
  | unsupported => cases h
  | float64 | int32 | utf8 | dictionary => simp [content, Content.size, chunkSizes, List.length_flatten]

theorem source_of_columnType? {data : ColumnChunks} {columnType : ColumnType}
    (h : data.columnType? = some columnType) :
    ∃ column, data.source = .ok column ∧ column.columnType = columnType := by
  cases data <;> cases h <;> exact ⟨_, rfl, rfl⟩

theorem columnType_content {data : ColumnChunks} {columnType : ColumnType}
    (h : data.columnType? = some columnType) : data.content.columnType = columnType := by
  cases data <;> cases h <;> rfl

/-- Every row of a column in memory has a value. -/
theorem fault?_content {data : ColumnChunks} (hsound : data.content.Sound) {row : Nat}
    (h : row < data.content.size) : data.content.fault? row = none := by
  cases data with
  | float64 | int32 | utf8 => exact Cells.fault?_ofValues (by simpa [content, Content.size] using h)
  | dictionary chunks texts => exact Cells.fault?_textOf hsound.2 h
  | unsupported => cases h

end ColumnChunks

/-- A dictionary column is made if every key is a position of the dictionary. -/
theorem MemoryColumn.ofDictionary_eq_ok {name : String} {chunks : List (List UInt32)} {texts : Dictionary}
    {column : MemoryColumn} :
    ofDictionary name chunks texts = .ok column ↔
      column = ⟨name, .dictionary chunks texts⟩ ∧ ∀ key ∈ chunks.flatten, key.toNat < texts.size := by
  unfold ofDictionary
  cases hkey : chunks.flatten.find? fun key => texts.size ≤ key.toNat with
  | some key =>
    have hlarge : texts.size ≤ key.toNat := by simpa using List.find?_some hkey
    simp only [reduceCtorEq, false_iff]
    exact fun hall => Nat.not_lt.mpr hlarge (hall.2 key (List.mem_of_find?_eq_some hkey))
  | none =>
    have hall : ∀ key ∈ chunks.flatten, key.toNat < texts.size := by
      intro key hmem
      simpa using List.find?_eq_none.mp hkey key hmem
    simp only [Except.ok.injEq, eq_comm (b := column), and_iff_left hall]

/-! ## Tables -/

namespace MemoryTable

/-- What the making of columns and tables checks, and that dictionaries are sound. -/
structure WellFormed (t : MemoryTable) : Prop where
  rows_eq : ∀ {column}, column ∈ t.columns → column.rows = t.rows
  sound : ∀ {column}, column ∈ t.columns → column.data.content.Sound

theorem rows_of_ofColumns {columns : List MemoryColumn} {t : MemoryTable}
    (h : ofColumns columns = .ok t) : ∀ {column}, column ∈ t.columns → column.rows = t.rows := by
  unfold ofColumns at h
  dsimp only at h
  cases hmisfit : misfit? ((columns.head?.map MemoryColumn.rows).getD 0) columns with
  | some found =>
    rw [hmisfit] at h
    cases h
  | none =>
    rw [hmisfit] at h
    cases h
    intro column hcolumn
    obtain ⟨position, hposition⟩ := List.mem_iff_getElem?.mp hcolumn
    have hnot := List.find?_eq_none.mp hmisfit (column, position)
      (List.mem_zipIdx_iff_getElem?.mpr hposition)
    simpa using hnot

/-- Columns with the same number of rows make a table. -/
theorem exists_ofColumns {columns : List MemoryColumn} {rows : Nat}
    (h : ∀ column ∈ columns, column.rows = rows) : ∃ t, ofColumns columns = .ok t := by
  have hhead : ∀ column ∈ columns, column.rows = (columns.head?.map MemoryColumn.rows).getD 0 := by
    intro column hcolumn
    cases columns with
    | nil => cases hcolumn
    | cons first columns => exact (h column hcolumn).trans (h first List.mem_cons_self).symm
  have hmisfit : misfit? ((columns.head?.map MemoryColumn.rows).getD 0) columns = none := by
    apply List.find?_eq_none.mpr
    intro entry hentry
    simpa using hhead entry.1 (List.fst_mem_of_mem_zipIdx hentry)
  unfold ofColumns
  dsimp only
  rw [hmisfit]
  exact ⟨_, rfl⟩

/-- The columns with their chunks joined. -/
def sheet (t : MemoryTable) : Sheet where
  rows := t.rows
  content position :=
    match t.columns[position]? with
    | some column => column.data.content
    | none => .utf8 []

variable {t : MemoryTable}

theorem content_sheet {position : Nat} {column : MemoryColumn}
    (h : t.columns[position]? = some column) : t.sheet.content position = column.data.content := by
  simp [sheet, h]

/-- A column has a type if it is there and can be scanned. -/
theorem namedType_eq (t : MemoryTable) (position : Nat) :
    t.toTable.namedType position =
      match t.columns[position]? with
      | none => .error (.unknownColumn position t.columns.length)
      | some column =>
        match column.data.source with
        | .ok source => .ok source.columnType
        | .error typeName => .error (.unsupportedType position typeName) := by
  show (if t.columns.length ≤ position then _ else t.columnType position) = _
  rcases Nat.lt_or_ge position t.columns.length with h | h
  · rw [if_neg (Nat.not_le.mpr h), columnType, column?, List.getElem?_eq_getElem h]
    show (match t.columns[position].data.source with
        | .ok source => pure source.columnType
        | .error typeName => throw (Failure.unsupportedType position typeName)) =
      match t.columns[position].data.source with
        | .ok source => Except.ok source.columnType
        | .error typeName => Except.error (Failure.unsupportedType position typeName)
    cases t.columns[position].data.source <;> rfl
  · rw [if_pos h, List.getElem?_eq_none h]
    rfl

theorem namedType_of_none {position : Nat} (h : t.columns[position]? = none) :
    t.toTable.namedType position = .error (.unknownColumn position t.columns.length) := by
  rw [namedType_eq, h]

/-- A column that cannot be scanned has no type but the name that stands in its place. -/
theorem namedType_of_unscannable {position : Nat} {column : MemoryColumn}
    (hcolumn : t.columns[position]? = some column) (h : column.data.columnType? = none) :
    ∃ typeName, t.toTable.namedType position = .error (.unsupportedType position typeName) := by
  obtain ⟨name, data⟩ := column
  cases data with
  | unsupported typeName rows => exact ⟨typeName, by rw [namedType_eq, hcolumn]; rfl⟩
  | float64 | int32 | utf8 | dictionary => cases h

theorem namedType_eq_ok {position : Nat} {columnType : ColumnType} :
    t.toTable.namedType position = .ok columnType ↔
      ∃ column, t.columns[position]? = some column ∧ column.data.columnType? = some columnType := by
  rw [namedType_eq]
  cases t.columns[position]? with
  | none => simp
  | some column =>
    obtain ⟨name, data⟩ := column
    cases data <;> simp [ColumnChunks.source, ColumnChunks.columnType?, Column.columnType]

/-- The column behind a type. -/
theorem exists_source {position : Nat} {columnType : ColumnType}
    (h : t.toTable.namedType position = .ok columnType) :
    ∃ column source, t.columns[position]? = some column ∧ column.data.columnType? = some columnType ∧
      column.data.source = .ok source ∧ t.toTable.column position = .ok source := by
  obtain ⟨column, hcolumn, htype⟩ := namedType_eq_ok.mp h
  obtain ⟨source, hsource, -⟩ := ColumnChunks.source_of_columnType? htype
  refine ⟨column, source, hcolumn, htype, hsource, ?_⟩
  show t.source position = _
  rw [MemoryTable.source, column?, hcolumn]
  show (match column.data.source with
    | .ok source => pure source
    | .error typeName => throw (Failure.unsupportedType position typeName)) = _
  rw [hsource]
  rfl

theorem shows_sheet (h : t.WellFormed) : t.toTable.Shows t.sheet where
  rows_eq := rfl
  holds {position columnType} htype := by
    obtain ⟨column, source, hcolumn, -, hsource, hfound⟩ := exists_source htype
    refine ⟨source, hfound, ?_⟩
    rw [content_sheet hcolumn]
    exact ColumnChunks.holds_content hsource
  columnType_eq {position columnType} htype := by
    obtain ⟨column, hcolumn, htype⟩ := namedType_eq_ok.mp htype
    rw [content_sheet hcolumn, ColumnChunks.columnType_content htype]
  size_eq {position columnType} htype := by
    obtain ⟨column, hcolumn, htype⟩ := namedType_eq_ok.mp htype
    rw [content_sheet hcolumn, ColumnChunks.size_content htype]
    exact h.rows_eq (List.mem_of_getElem? hcolumn)
  sound {position columnType} htype := by
    obtain ⟨column, hcolumn, -⟩ := namedType_eq_ok.mp htype
    rw [content_sheet hcolumn]
    exact h.sound (List.mem_of_getElem? hcolumn)

/-- Whatever the chunks of its columns are, a table answers a checked query from the joined columns. -/
theorem scan_eq_answer (h : t.WellFormed) {query : Query} {predicates : List Predicate}
    (hcheck : t.toTable.check query = .ok predicates) (form : DictionaryForm) :
    t.toTable.scan query form = .ok (t.sheet.answer query predicates form) := by
  have hnone : t.sheet.firstFault? query predicates = none := by
    apply List.findSome?_eq_none_iff.mpr
    intro place hplace
    obtain ⟨columnType, htype⟩ := Table.namedType_of_mem_met hcheck hplace
    have hrow := (Sheet.place_of_mem_met hplace).1
    rw [← (shows_sheet h).size_eq htype] at hrow
    obtain ⟨column, hcolumn, -⟩ := namedType_eq_ok.mp htype
    rw [content_sheet hcolumn] at hrow
    rw [Sheet.fault?, content_sheet hcolumn]
    exact ColumnChunks.fault?_content (h.sound (List.mem_of_getElem? hcolumn)) hrow
  rw [Table.scan_eq (shows_sheet h) hcheck, hnone]
  rfl

/-- Two columns cut differently, one of them with an empty chunk and a dictionary. -/
theorem scan_of_uneven_chunks :
    let t : MemoryTable :=
      { columns := [⟨"key", .dictionary [[0, 1], [], [0]] ⟨["a", "b"]⟩⟩, ⟨"n", .int32 [[7], [8, 9]]⟩]
        rows := 3 }
    let query : Query := ⟨[1, 0, 1], [⟨0, .equal, "a"⟩]⟩
    t.WellFormed ∧ t.toTable.check query = .ok [⟨0, .equal, .utf8 "a"⟩] ∧
      t.toTable.scan query .strings = .ok
        { columns := [⟨1, .int32 [7, 9]⟩, ⟨0, .utf8 ["a", "a"]⟩, ⟨1, .int32 [7, 9]⟩]
          candidates := .bounded [0, 2]
          narrowings := [⟨⟨0, .equal, "a"⟩, 2, false⟩]
          rows := 2 } := by
  intro t query
  have hformed : t.WellFormed := by
    have hmade : ofColumns t.columns = .ok t := rfl
    refine ⟨rows_of_ofColumns hmade, fun {column} hcolumn => ?_⟩
    rcases List.mem_pair.mp hcolumn with rfl | rfl
    · exact ⟨⟨by decide, by simp [Dictionary.size, UInt32.size]⟩, by simp [Dictionary.size]⟩
    · trivial
  have hcheck : t.toTable.check query = .ok [⟨0, .equal, .utf8 "a"⟩] := rfl
  refine ⟨hformed, hcheck, (scan_eq_answer hformed hcheck .strings).trans ?_⟩
  decide

end MemoryTable

end Pushdown
