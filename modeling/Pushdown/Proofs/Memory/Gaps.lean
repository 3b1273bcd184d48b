-- SUMMARY: Batches are refused for the first one in which a value or a dictionary text is missing.
import Pushdown.Proofs.Memory.Encoding

/-!
# Missing values

A row of an array has no value if its slot is empty, or if the text behind its key is missing. A dictionary may
also lack a text that no key stands for; its rows are all there then, but the array is refused with the others,
since the texts of a dictionary are taken in before its keys are looked at.

Of valid batches of a schema nothing else is refused. So the batches are loaded, or the failure names the first
of them with a gap in a column that can be scanned.
-/

namespace Pushdown

open Record

/-! ## Arrays with gaps -/

namespace Record.ColumnArray

/-- The keys that are there are positions in the dictionary of the array. -/
def Keyed : ColumnArray → Prop
  | .leaf (.dictionary _ _ keys texts) => ∀ key, some key ∈ keys → 0 ≤ key ∧ key.toNat < texts.length
  | _ => True

/-- A row of the array has no value: its slot is empty or, in a dictionary array, its key is missing or stands
    for a text that is missing. -/
def LacksRow : ColumnArray → Prop
  | .leaf (.dictionary _ _ keys texts) => ∃ key ∈ keys, Parquet.textOf? texts key = none
  | array => array.hasNull = true

/-- A text of the dictionary is missing, whether or not a key stands for it. -/
def LacksText : ColumnArray → Prop
  | .leaf (.dictionary _ _ _ texts) => none ∈ texts
  | _ => False

end Record.ColumnArray

namespace PartialColumn

variable {loader : PartialColumn} {settings : LoadSettings} {field : Field} {array : ColumnArray}

theorem any_isNone {β : Type} {values : List (Option β)} : values.any Option.isNone = true ↔ none ∈ values := by
  simp

/-- A text is missing behind a key only where the dictionary lacks a text. -/
theorem lacksText_of_textOf? {keys : List (Option Int)} {texts : List (Option String)}
    (hkeys : ∀ key, some key ∈ keys → 0 ≤ key ∧ key.toNat < texts.length) {key : Int} (hkey : some key ∈ keys)
    (h : Parquet.textOf? texts (some key) = none) : none ∈ texts := by
  obtain ⟨-, hlt⟩ := hkeys key hkey
  have hnone : texts[key.toNat] = none := by simpa [Parquet.textOf?, hlt] using h
  exact hnone ▸ List.getElem_mem hlt

/-- A valid array has no gap exactly if none of its slots and of its texts is empty. -/
theorem complete_iff_no_gap (hkeyed : array.Keyed) :
    Complete array ↔ ¬ (array.LacksRow ∨ array.LacksText) := by
  cases array with
  | leaf array =>
    cases array with
    | dictionary key value keys texts =>
      constructor
      · rintro ⟨hkeys, htexts, -⟩ (⟨key, hkey, hnone⟩ | hnone)
        · cases key with
          | none => exact List.any_eq_false.mp hkeys none hkey rfl
          | some key =>
            exact List.any_eq_false.mp htexts none (lacksText_of_textOf? hkeyed hkey hnone) rfl
        · exact List.any_eq_false.mp htexts none hnone rfl
      · intro h
        obtain ⟨hrow, htext⟩ := not_or.mp h
        refine ⟨?_, ?_, hkeyed⟩
        · rw [← Bool.not_eq_true, any_isNone]
          exact fun hnone => hrow ⟨none, hnone, rfl⟩
        · rw [← Bool.not_eq_true, any_isNone]
          exact htext
    | float64 | integer | text | binary | plain =>
      simp [Complete, ColumnArray.LacksRow, ColumnArray.LacksText]
  | list | struct => simp [Complete, ColumnArray.LacksRow, ColumnArray.LacksText]

/-- An array with an empty slot is refused by a column that can be scanned. -/
theorem push_of_hasNull (hloader : loader.toData.columnType?.isSome) (hnull : array.hasNull = true)
    (batch : Nat) : loader.push field array batch = .error (.nullValue batch) := by
  cases loader with
  | float64 | int32 | utf8 | dictionary => simp [push, require, hnull, bind, Except.bind]
  | unsupported => cases hloader

/-- So is an array with a dictionary that lacks a text. -/
theorem push_of_lacksText {columnType : ColumnType} (hloader : loader.toData.columnType? = some columnType)
    (hscannable : Scannable settings array.type columnType) (hnull : array.hasNull = false)
    (htext : array.LacksText) (batch : Nat) :
    loader.push field array batch = .error (.nullValue batch) := by
  cases array with
  | leaf array =>
    cases array with
    | dictionary key value keys texts =>
      cases hscannable
      cases loader with
      | dictionary chunks interner =>
        have htexts : texts.any Option.isNone = true := any_isNone.mpr htext
        simp [push, require, hnull, loadKeys, htexts, bind, Except.bind]
      | float64 | int32 | utf8 | unsupported => cases hloader
    | float64 | integer | text | binary | plain => cases htext
  | list | struct => cases htext

/-- In a valid array without empty slots, a row can only lack a text of the dictionary. -/
theorem lacksText_of_lacksRow (hkeyed : array.Keyed) (hnull : array.hasNull = false) (h : array.LacksRow) :
    array.LacksText := by
  cases array with
  | leaf array =>
    cases array with
    | dictionary key value keys texts =>
      obtain ⟨key, hkey, hnone⟩ := h
      cases key with
      | none => exact absurd rfl (List.any_eq_false.mp hnull none hkey)
      | some key => exact lacksText_of_textOf? hkeyed hkey hnone
    | float64 | integer | text | binary | plain => exact absurd h (by simp [hnull, ColumnArray.LacksRow])
  | list | struct => exact absurd h (by simp [hnull, ColumnArray.LacksRow])

/-- An array with a gap is refused by a column that can be scanned. -/
theorem push_of_gap {columnType : ColumnType} (hloader : loader.toData.columnType? = some columnType)
    (hscannable : Scannable settings array.type columnType) (hkeyed : array.Keyed)
    (hgap : array.LacksRow ∨ array.LacksText) (batch : Nat) :
    loader.push field array batch = .error (.nullValue batch) := by
  cases hnull : array.hasNull with
  | true => exact push_of_hasNull (hloader ▸ rfl) hnull batch
  | false =>
    have htext := hgap.elim (lacksText_of_lacksRow hkeyed hnull) id
    exact push_of_lacksText hloader hscannable hnull htext batch

/-- So an array of the type of its field is loaded, or refused for a gap. -/
theorem push_ends (hloader : loader.toData.columnType? = (ofType settings field.type).toData.columnType?)
    (htype : array.type = field.type) (hkeyed : array.Keyed) (batch : Nat) :
    Ends (· = .nullValue batch) (fun _ => True) (loader.push field array batch) := by
  by_cases hcomplete : loader.toData.columnType?.isSome → Complete array
  · obtain ⟨loader', hpush⟩ := exists_push hloader htype hcomplete batch
    exact hpush ▸ .ok trivial
  · rw [Classical.not_imp, complete_iff_no_gap hkeyed, not_not] at hcomplete
    obtain ⟨hsome, hgap⟩ := hcomplete
    obtain ⟨columnType, hcolumn⟩ := Option.isSome_iff_exists.mp hsome
    have hscannable : Scannable settings array.type columnType := by
      rw [htype, ← scannable_iff, ← hloader, hcolumn]
    exact push_of_gap hcolumn hscannable hkeyed hgap batch ▸ .error rfl

end PartialColumn

/-! ## Batches with gaps -/

namespace MemoryTable

open PartialColumn

variable {settings : LoadSettings} {schema : List Field} {batch : Batch} {batches : List Batch}
  {columns : List (Field × PartialColumn)}

/-- The batch is one of the schema, and the keys of its dictionary arrays are positions in their dictionaries. -/
structure ValidBatch (schema : List Field) (batch : Batch) : Prop where
  conforms : batch.Conforms schema
  keyed : ∀ array ∈ batch.arrays, array.Keyed

/-- In a column that can be scanned, the batch has a row without a value or a dictionary that lacks a text. -/
def Gapped (settings : LoadSettings) (schema : List Field) (batch : Batch) : Prop :=
  ∃ (position : Nat) (field : Field) (array : ColumnArray) (columnType : ColumnType),
    schema[position]? = some field ∧ batch.arrays[position]? = some array ∧
      Scannable settings field.type columnType ∧ (array.LacksRow ∨ array.LacksText)

theorem loadable_iff (h : ValidBatch schema batch) :
    Loadable settings schema batch ↔ ¬ Gapped settings schema batch := by
  constructor
  · rintro hloadable ⟨position, field, array, columnType, hfield, harray, hscannable, hgap⟩
    have hkeyed := h.keyed array (List.mem_of_getElem? harray)
    exact (complete_iff_no_gap hkeyed).mp (hloadable.complete hfield harray hscannable) hgap
  · intro hgapped
    refine ⟨h.conforms, fun {position field array columnType} hfield harray hscannable => ?_⟩
    rw [complete_iff_no_gap (h.keyed array (List.mem_of_getElem? harray))]
    exact fun hgap => hgapped ⟨position, field, array, columnType, hfield, harray, hscannable, hgap⟩

/-- The batches that were taken in could be loaded. -/
theorem Loaded.loadable (h : Loaded settings schema batches columns) (hmem : batch ∈ batches)
    (hbatch : batch.Conforms schema) : Loadable settings schema batch := by
  refine ⟨hbatch, fun {position field array columnType} hfield harray hscannable => ?_⟩
  obtain ⟨loader, -, htook⟩ := h.column hfield
  exact htook.complete_of_scannable hscannable array (List.mem_filterMap.mpr ⟨batch, hmem, harray⟩)

/-- A batch with a gap is refused for it. -/
theorem Loaded.push_of_gapped (h : Loaded settings schema batches columns) (hbatch : ValidBatch schema batch)
    (hgapped : Gapped settings schema batch) (position : Nat) :
    pushBatch columns batch position = .error (.nullValue position) := by
  have hends : Ends (· = .nullValue position) (Loaded settings schema (batches ++ [batch]))
      (pushBatch columns batch position) :=
    h.pushBatch_ends hbatch.conforms fun {_ _ _ array} _ harray htype hcolumn =>
      push_ends hcolumn htype (hbatch.keyed array (List.mem_of_getElem? harray)) position
  cases houtcome : pushBatch columns batch position with
  | error e =>
    rw [houtcome] at hends
    rw [hends.of_error]
  | ok columns' =>
    rw [houtcome] at hends
    have hloadable := hends.of_ok.loadable (List.mem_append_right _ List.mem_cons_self) hbatch.conforms
    exact absurd hgapped ((loadable_iff hbatch).mp hloadable)

/-- Batches are taken in up to the first one with a gap. -/
theorem Loaded.pushAll_of_gapped (h : Loaded settings schema batches columns) {before : List Batch}
    (hbefore : ∀ other ∈ before, Loadable settings schema other) (hbatch : ValidBatch schema batch)
    (hgapped : Gapped settings schema batch) (after : List Batch) (start : Nat) :
    pushBatches columns ((before ++ batch :: after).zipIdx start) =
      .error (.nullValue (start + before.length)) := by
  induction before generalizing batches columns start with
  | nil => exact bind_eq_error.mpr (.inl (h.push_of_gapped hbatch hgapped start))
  | cons other before ih =>
    obtain ⟨hother, hrest⟩ := List.forall_mem_cons.mp hbefore
    obtain ⟨between, hfirst⟩ := h.exists_push hother start
    have hall := ih (h.push hfirst) hrest (start + 1)
    rw [Nat.add_assoc, Nat.add_comm 1] at hall
    exact bind_eq_error.mpr (.inr ⟨between, hfirst, hall⟩)

/-- The batch is the first one with a gap, at the given position. -/
def FirstGapped (settings : LoadSettings) (schema : List Field) (batches : List Batch) (segment : Nat) : Prop :=
  ∃ before batch after, batches = before ++ batch :: after ∧ before.length = segment ∧
    Gapped settings schema batch ∧ ∀ other ∈ before, ¬ Gapped settings schema other

/-- Batches have no gap, or there is a first one with a gap. -/
theorem gapped_or (settings : LoadSettings) (schema : List Field) (batches : List Batch) :
    (∀ batch ∈ batches, ¬ Gapped settings schema batch) ∨
      ∃ segment, FirstGapped settings schema batches segment := by
  classical
  cases hfind : batches.find? (fun batch => decide (Gapped settings schema batch)) with
  | none =>
    left
    simpa using hfind
  | some batch =>
    right
    obtain ⟨hgapped, before, after, hsplit, hbefore⟩ := List.find?_eq_some_iff_append.mp hfind
    exact ⟨before.length, before, batch, after, hsplit, rfl, by simpa using hgapped, by simpa using hbefore⟩

theorem ofBatches_of_firstGapped (hbatches : ∀ batch ∈ batches, ValidBatch schema batch) {segment : Nat}
    (h : FirstGapped settings schema batches segment) :
    ofBatches schema batches settings = .error (.nullValue segment) := by
  obtain ⟨before, batch, after, rfl, rfl, hgapped, hbefore⟩ := h
  obtain ⟨hvalidBefore, hvalid⟩ := List.forall_mem_append.mp hbatches
  have hloadable : ∀ other ∈ before, Loadable settings schema other := fun other hother =>
    (loadable_iff (hvalidBefore other hother)).mpr (hbefore other hother)
  have hpush := (loaded_nil settings schema).pushAll_of_gapped hloadable (hvalid batch List.mem_cons_self)
    hgapped after 0
  rw [Nat.zero_add] at hpush
  exact bind_eq_error.mpr (.inl hpush)

/-- Valid batches of a schema are refused for a missing value exactly if one of them has a gap in a column that
    can be scanned, and the first that has one is named. If none has a gap, they are loaded. -/
theorem refuses_first_gap (settings : LoadSettings) (schema : List Field) (batches : List Batch)
    (hbatches : ∀ batch ∈ batches, ValidBatch schema batch) :
    (∀ segment, ofBatches schema batches settings = .error (.nullValue segment) ↔
        FirstGapped settings schema batches segment) ∧
      ((∀ batch ∈ batches, ¬ Gapped settings schema batch) →
        ∃ t, ofBatches schema batches settings = .ok t) := by
  have hloads : (∀ batch ∈ batches, ¬ Gapped settings schema batch) →
      ∃ t, ofBatches schema batches settings = .ok t := fun hnone =>
    exists_ofBatches fun batch hbatch => (loadable_iff (hbatches batch hbatch)).mpr (hnone batch hbatch)
  refine ⟨fun segment => ⟨fun herror => ?_, ofBatches_of_firstGapped hbatches⟩, hloads⟩
  obtain hnone | ⟨first, hfirst⟩ := gapped_or settings schema batches
  · obtain ⟨t, ht⟩ := hloads hnone
    rw [ht] at herror
    cases herror
  · rw [ofBatches_of_firstGapped hbatches hfirst] at herror
    cases herror
    exact hfirst

/-- A missing value in a column that cannot be scanned is no gap. A missing text that no key stands for is one,
    in the second batch, and the missing row of the third is not reached. -/
theorem refuses_second_of_three :
    let schema : List Field :=
      [⟨"flag", .leaf (.plain .boolean), true⟩, ⟨"d", .leaf (.dictionary .int32 .utf8), true⟩]
    let batch (flags : List Bool) (keys : List (Option Int)) (texts : List (Option String)) : Batch :=
      ⟨[.leaf (.plain .boolean flags), .leaf (.dictionary .int32 .utf8 keys texts)]⟩
    let batches : List Batch :=
      [batch [true, false] [some 0, some 0] [some "a"], batch [true] [some 0] [some "b", none],
        batch [true] [none] [some "a"]]
    (∀ batch ∈ batches, ValidBatch schema batch) ∧ FirstGapped {} schema batches 1 := by
  intro schema batch batches
  have hvalid : ∀ batch ∈ batches, ValidBatch schema batch := by
    have htypes : ∀ batch ∈ batches, batch.arrays.map ColumnArray.type = schema.map Field.type := by
      simp [batches, batch, schema, ColumnArray.type, LeafArray.type]
    have hlengths : ∀ batch ∈ batches, ∀ array ∈ batch.arrays, array.length = batch.rows := by
      simp [batches, batch, Batch.rows, ColumnArray.length, LeafArray.length]
    have hkeyed : ∀ batch ∈ batches, ∀ array ∈ batch.arrays, array.Keyed := by
      simp [batches, batch, ColumnArray.Keyed]
    exact fun batch hbatch => ⟨⟨htypes batch hbatch, hlengths batch hbatch⟩, hkeyed batch hbatch⟩
  exact ⟨hvalid, ((refuses_first_gap {} schema batches hvalid).1 1).mp rfl⟩

/-- Not only a row without a value is a gap: here all rows are there, but the dictionary lacks a text that no
    key stands for. -/
theorem refuses_text_without_key :
    let schema : List Field := [⟨"d", .leaf (.dictionary .int32 .utf8), true⟩]
    let batch : Batch := ⟨[.leaf (.dictionary .int32 .utf8 [some 0] [some "a", none])]⟩
    ValidBatch schema batch ∧ (∀ array ∈ batch.arrays, ¬ array.LacksRow) ∧
      ofBatches schema [batch] {} = .error (.nullValue 0) := by
  intro schema batch
  have hconforms : batch.Conforms schema :=
    ⟨rfl, by simp [batch, Batch.rows, ColumnArray.length, LeafArray.length]⟩
  have hkeyed : ∀ array ∈ batch.arrays, array.Keyed := by simp [batch, ColumnArray.Keyed]
  have hrows : ∀ array ∈ batch.arrays, ¬ array.LacksRow := by
    simp [batch, ColumnArray.LacksRow, Parquet.textOf?]
  exact ⟨⟨hconforms, hkeyed⟩, hrows, rfl⟩

end MemoryTable

end Pushdown
