-- SUMMARY: Whether texts are given keys on loading makes no difference to the answers.
import Pushdown.Proofs.Agreement
import Pushdown.Proofs.Memory.Batches

/-!
# Texts plain or through a dictionary

The settings decide whether a text column is loaded plainly or through a dictionary, and nothing else of a
loaded table depends on them. What stands in the way of loading is a missing value in a column that can be
scanned, and the same columns can be scanned under all settings. The tables hold the same values, so that they
answer a query alike as long as texts are handed out as texts.

A type that cannot be scanned plays one part only, whichever it is: its column counts its rows. That the types are
not nested deeper than a list or a structure is no restriction here.
-/

namespace Pushdown

open Record PartialColumn

/-! ## Columns under two settings -/

section

variable {settings other : LoadSettings} {type : DataType} {columnType otherType : ColumnType}

theorem PartialColumn.Scannable.exists_other (h : Scannable settings type columnType) (other : LoadSettings) :
    ∃ otherType, Scannable other type otherType := by
  cases h with
  | float64 => exact ⟨_, .float64⟩
  | int32 => exact ⟨_, .int32⟩
  | utf8 hlayout | encoded hlayout => exact exists_scannable_text other hlayout
  | dictionary => exact ⟨_, .dictionary⟩

/-- The type of a column is the same under all settings, up to the dictionary. -/
theorem PartialColumn.Scannable.plain_eq (h : Scannable settings type columnType)
    (hother : Scannable other type otherType) : columnType.plain = otherType.plain := by
  cases h <;> cases hother <;> rfl

/-- Arrays read as one content of a type at most. -/
theorem PartialColumn.ReadsAs.unique {arrays : List ColumnArray} {content otherContent : Content}
    (h : ReadsAs arrays content) (hother : ReadsAs arrays otherContent)
    (htype : content.columnType = otherContent.columnType) : content = otherContent := by
  cases h with
  | float64 h =>
    cases hother with
    | float64 hother =>
      obtain rfl := List.map_injective_iff.mpr (Option.some_injective _) (h.symm.trans hother)
      rfl
    | int32 | utf8 => cases htype
  | int32 h =>
    cases hother with
    | int32 hother =>
      obtain rfl := List.map_injective_iff.mpr (Option.some_injective _) (h.symm.trans hother)
      rfl
    | float64 | utf8 => cases htype
  | utf8 h =>
    cases hother with
    | utf8 hother =>
      obtain rfl := List.map_injective_iff.mpr (Option.some_injective _) (h.symm.trans hother)
      rfl
    | float64 | int32 => cases htype

end

namespace MemoryTable

variable {settings other : LoadSettings} {schema : List Field} {batches : List Batch}
  {t otherTable : MemoryTable}

/-! ## What is loaded -/

/-- A batch that can be loaded can be loaded under any settings. -/
theorem Loadable.of_settings {batch : Batch} (h : Loadable settings schema batch) (other : LoadSettings) :
    Loadable other schema batch where
  conforms := h.conforms
  complete {position field array columnType} hfield harray htype := by
    obtain ⟨_, hscannable⟩ := htype.exists_other settings
    exact h.complete hfield harray hscannable

/-- Batches of a schema are loaded if no value is missing in a column that can be scanned, and only then. -/
theorem exists_ofBatches_iff (hbatches : ∀ batch ∈ batches, batch.Conforms schema) :
    (∃ t, ofBatches schema batches settings = .ok t) ↔
      ∀ batch ∈ batches, Loadable settings schema batch := by
  refine ⟨?_, exists_ofBatches⟩
  rintro ⟨t, ht⟩ batch hbatch
  refine ⟨hbatches batch hbatch, fun {position field array columnType} hfield harray hscannable => ?_⟩
  obtain ⟨loader, -, htook⟩ := (loadedFrom_of_ofBatches ht).column hfield
  exact htook.complete_of_scannable hscannable array (List.mem_filterMap.mpr ⟨batch, hbatch, harray⟩)

/-! ## What is answered -/

/-- A column that has a type under both settings holds the same values. -/
theorem LoadedFrom.sameColumns (h : t.LoadedFrom settings schema batches)
    (hother : otherTable.LoadedFrom other schema batches)
    (haddressable : ∀ column ∈ t.columns, Addressable column.data)
    (hotherAddressable : ∀ column ∈ otherTable.columns, Addressable column.data) :
    t.toTable.SameColumns otherTable.toTable t.sheet otherTable.sheet where
  shows_sheet := shows_sheet (h.wellFormed haddressable)
  shows_other := shows_sheet (hother.wellFormed hotherAddressable)
  rows_eq := h.rows_eq.trans hother.rows_eq.symm
  sameColumn {position columnType otherType} htype hotherType := by
    obtain ⟨field, hfield, hscannable⟩ := h.scannable_of_namedType htype
    obtain ⟨_, hfield', hotherScannable⟩ := hother.scannable_of_namedType hotherType
    obtain rfl := Option.some.inj (hfield.symm.trans hfield')
    obtain ⟨loader, hloader, htook⟩ := h.column hfield
    obtain ⟨otherLoader, hotherLoader, hotherTook⟩ := hother.column hfield
    have hdata := htook.columnType?_eq.trans (scannable_iff.mpr hscannable)
    have hotherData := hotherTook.columnType?_eq.trans (scannable_iff.mpr hotherScannable)
    have hreads := htook.readsAs hdata (haddressable _ (List.mem_of_getElem? hloader))
    have hotherReads := hotherTook.readsAs hotherData (hotherAddressable _ (List.mem_of_getElem? hotherLoader))
    rw [Sheet.SameColumn, content_sheet hloader, content_sheet hotherLoader]
    apply hreads.unique hotherReads
    rw [Content.columnType_plain, Content.columnType_plain, ColumnChunks.columnType_content hdata,
      ColumnChunks.columnType_content hotherData, hscannable.plain_eq hotherScannable]

/-- A number means a type under both settings, or the same trouble. -/
theorem LoadedFrom.types_alike (h : t.LoadedFrom settings schema batches)
    (hother : otherTable.LoadedFrom other schema batches) (position : Nat) :
    Alike (fun columnType otherType => columnType.plain = otherType.plain) (t.toTable.namedType position)
      (otherTable.toTable.namedType position) := by
  cases hfield : schema[position]? with
  | none =>
    have hlength := List.getElem?_eq_none_iff.mp hfield
    rw [namedType_of_none (List.getElem?_eq_none (h.length_eq.trans_le hlength)),
      namedType_of_none (List.getElem?_eq_none (hother.length_eq.trans_le hlength))]
    exact .error rfl
  | some field =>
    obtain ⟨loader, hloader, htook⟩ := h.column hfield
    obtain ⟨otherLoader, hotherLoader, hotherTook⟩ := hother.column hfield
    cases hdata : loader.toData.columnType? with
    | some columnType =>
      have hscannable := scannable_iff.mp (htook.columnType?_eq.symm.trans hdata)
      obtain ⟨otherType, hotherScannable⟩ := hscannable.exists_other other
      have hotherData := hotherTook.columnType?_eq.trans (scannable_iff.mpr hotherScannable)
      rw [namedType_eq_ok.mpr ⟨_, hloader, hdata⟩, namedType_eq_ok.mpr ⟨_, hotherLoader, hotherData⟩]
      exact .ok (hscannable.plain_eq hotherScannable)
    | none =>
      have hotherData : otherLoader.toData.columnType? = none := by
        by_contra hsome
        obtain ⟨otherType, hotherType⟩ := Option.ne_none_iff_exists'.mp hsome
        have hotherScannable := scannable_iff.mp (hotherTook.columnType?_eq.symm.trans hotherType)
        obtain ⟨columnType, hscannable⟩ := hotherScannable.exists_other settings
        have hsome := htook.columnType?_eq.trans (scannable_iff.mpr hscannable)
        rw [hdata] at hsome
        cases hsome
      obtain ⟨typeName, htype⟩ := namedType_of_unscannable hloader hdata
      obtain ⟨otherName, hotherType⟩ := namedType_of_unscannable hotherLoader hotherData
      rw [htype, hotherType]
      exact .error rfl

/-- The dictionaries of a loaded table are small enough for their keys if the batches bring no more different
    texts to a column than there are keys. -/
theorem LoadedFrom.addressable (h : t.LoadedFrom settings schema batches)
    (htexts : ∀ position, ((arraysAt position batches).flatMap vocabulary).toFinset.card ≤ UInt32.size) :
    ∀ column ∈ t.columns, Addressable column.data := by
  intro column hcolumn
  obtain ⟨position, field, loader, -, rfl, htook⟩ := h.exists_took hcolumn
  exact htook.addressable (htexts position)

/-- Under any two settings batches of a schema are loaded both times or neither time, and where they are
    loaded, the tables give the same answer to a query, or fail on it with the same cause. A column must not
    have more different texts than there are keys. -/
theorem loads_and_scans_alike (schema : List Field) (batches : List Batch)
    (hbatches : ∀ batch ∈ batches, batch.Conforms schema)
    (htexts : ∀ position, ((arraysAt position batches).flatMap vocabulary).toFinset.card ≤ UInt32.size)
    (settings other : LoadSettings) :
    ((∃ t, ofBatches schema batches settings = .ok t) ↔ ∃ t, ofBatches schema batches other = .ok t) ∧
      ∀ {t otherTable : MemoryTable}, ofBatches schema batches settings = .ok t →
        ofBatches schema batches other = .ok otherTable →
          ∀ query, Alike (· = ·) (t.toTable.scan query .strings) (otherTable.toTable.scan query .strings) := by
  refine ⟨?_, fun {t otherTable} ht hother query => ?_⟩
  · rw [exists_ofBatches_iff hbatches, exists_ofBatches_iff hbatches]
    exact ⟨fun h batch hbatch => (h batch hbatch).of_settings other,
      fun h batch hbatch => (h batch hbatch).of_settings settings⟩
  · have hload := loadedFrom_of_ofBatches ht
    have hotherLoad := loadedFrom_of_ofBatches hother
    have hsame := hload.sameColumns hotherLoad (hload.addressable htexts) (hotherLoad.addressable htexts)
    exact hsame.scan_alike (hload.types_alike hotherLoad) query

/-- Texts that come in two batches, one of them again in the second, and a condition on them. -/
theorem loads_and_scans_repeated_text_alike :
    let schema : List Field :=
      [⟨"s", .leaf (.text .utf8), false⟩, ⟨"n", .leaf (.integer .int32), false⟩]
    let batch (texts : List (Option String)) (numbers : List (Option Int)) : Batch :=
      ⟨[.leaf (.text .utf8 texts), .leaf (.integer .int32 numbers)]⟩
    let batches : List Batch :=
      [batch [some "b", some "a"] [some 1, some 2], batch [some "a", some "c"] [some 3, some 4]]
    let query : Query := ⟨[0, 1], [⟨0, .equal, "a"⟩]⟩
    let answer : Answer := ⟨[⟨0, .utf8 ["a", "a"]⟩, ⟨1, .int32 [2, 3]⟩], .bounded [1, 2],
      [⟨⟨0, .equal, "a"⟩, 2, false⟩], 2⟩
    (∀ batch ∈ batches, batch.Conforms schema) ∧
      ∃ t encoded, ofBatches schema batches {} = .ok t ∧
        ofBatches schema batches { dictionaryStrings := true } = .ok encoded ∧
        t.toTable.scan query .strings = .ok answer ∧ encoded.toTable.scan query .strings = .ok answer := by
  intro schema batch batches query answer
  have hconforms : ∀ batch ∈ batches, batch.Conforms schema := by
    have htypes : ∀ batch ∈ batches, batch.arrays.map ColumnArray.type = schema.map Field.type := by
      simp [batches, batch, schema, ColumnArray.type, LeafArray.type]
    have hlengths : ∀ batch ∈ batches, ∀ array ∈ batch.arrays, array.length = batch.rows := by
      simp [batches, batch, Batch.rows, ColumnArray.length, LeafArray.length]
    exact fun batch hbatch => ⟨htypes batch hbatch, hlengths batch hbatch⟩
  have htexts : ∀ position, ((arraysAt position batches).flatMap vocabulary).toFinset.card ≤ UInt32.size := by
    intro position
    refine (List.toFinset_card_le _).trans ?_
    rcases position with _ | _ | position <;> simp [arraysAt, batches, batch, vocabulary, UInt32.size]
  obtain ⟨hloads, hscans⟩ :=
    loads_and_scans_alike schema batches hconforms htexts {} { dictionaryStrings := true }
  let t : MemoryTable := ⟨[⟨"s", .utf8 [["b", "a"], ["a", "c"]]⟩, ⟨"n", .int32 [[1, 2], [3, 4]]⟩], 4⟩
  have ht : ofBatches schema batches {} = .ok t := rfl
  have hload := loadedFrom_of_ofBatches ht
  have hcheck : t.toTable.check query = .ok [⟨0, .equal, .utf8 "a"⟩] := rfl
  have hanswer : t.toTable.scan query .strings = .ok answer :=
    (scan_eq_answer (hload.wellFormed (hload.addressable htexts)) hcheck .strings).trans (by decide)
  obtain ⟨encoded, hencoded⟩ := hloads.mp ⟨t, ht⟩
  have halike := hscans ht hencoded query
  rw [hanswer] at halike
  exact ⟨hconforms, t, encoded, ht, hencoded, hanswer, halike.eq_ok⟩

end MemoryTable

end Pushdown
