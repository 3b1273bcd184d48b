-- SUMMARY: Loading an array keeps every slot, in order, through a dictionary or not.
import Pushdown.Memory.Loading
import Pushdown.Proofs.Interner
import Pushdown.Proofs.Memory.Table
import Pushdown.Proofs.Record

/-!
# Loading arrays

A loader that has taken in some arrays keeps what their slots hold, one chunk for each array. In a dictionary
column this goes through the interner: the keys kept so far are those of the texts that came in, and they stay
so while the dictionary grows. `Pushed` says what loading one array does to a loader, where it succeeds, and
`exists_push` that it does if no slot lacks a value.
-/

namespace Pushdown

open Record

namespace PartialColumn

variable {loader loader' : PartialColumn} {arrays : List ColumnArray} {field : Field}
  {array : ColumnArray} {batch : Nat}

/-- The texts that an array can bring into a dictionary: its own dictionary, or its slots. -/
def vocabulary : ColumnArray → List String
  | .leaf (.dictionary _ _ _ texts) => texts.filterMap id
  | .leaf (.text _ values) => values.filterMap id
  | _ => []

/-- All slots of the array have a value, and the chunk is made of them. -/
def Stores {α : Type} (read : LeafArray → List (Option α)) (array : ColumnArray) (chunk : List α) : Prop :=
  array.slots read = chunk.map some

/-- All slots of the array have a text, and the keys are those of the texts. -/
def StoresKeys (d : Dictionary) (array : ColumnArray) (keys : List UInt32) : Prop :=
  ∃ texts : List String, array.slots LeafArray.texts = texts.map some ∧ texts.map d.keyOf? = keys.map some

/-- The loader keeps what the slots of the arrays hold, one chunk for each array. The dictionary lists the
    texts in the order in which each of them first came in. -/
def Keeps (arrays : List ColumnArray) : PartialColumn → Prop
  | .float64 chunks => List.Forall₂ (Stores LeafArray.floats) arrays chunks.toList
  | .int32 chunks => List.Forall₂ (Stores LeafArray.integers) arrays chunks.toList
  | .utf8 chunks => List.Forall₂ (Stores LeafArray.texts) arrays chunks.toList
  | .dictionary chunks interner =>
    interner.Sound ∧ interner.toDictionary.values = (arrays.flatMap vocabulary).eraseDups ∧
      List.Forall₂ (StoresKeys interner.toDictionary) arrays chunks.toList
  | .unsupported .. => True

theorem keeps_ofType (settings : LoadSettings) (type : DataType) : (ofType settings type).Keeps [] := by
  have hempty : Keeps [] (.dictionary #[] .empty) := ⟨Interner.sound_empty, rfl, .nil⟩
  unfold ofType
  split
  · exact .nil
  · exact .nil
  · split
    · exact hempty
    · exact .nil
  · split
    · exact hempty
    · exact .nil
  · exact hempty
  · trivial

/-- The chunks put together hold what the arrays put together hold. -/
theorem flatMap_slots {α : Type} {read : LeafArray → List (Option α)} {chunks : List (List α)}
    (h : List.Forall₂ (Stores read) arrays chunks) :
    arrays.flatMap (ColumnArray.slots read) = chunks.flatten.map some := by
  induction h with
  | nil => rfl
  | cons hchunk _ ih => rw [List.flatMap_cons, hchunk, ih, List.flatten_cons, List.map_append]

theorem exists_flatMap_slots {d : Dictionary} {chunks : List (List UInt32)}
    (h : List.Forall₂ (StoresKeys d) arrays chunks) :
    ∃ texts : List String, arrays.flatMap (ColumnArray.slots LeafArray.texts) = texts.map some ∧
      texts.map d.keyOf? = chunks.flatten.map some := by
  induction h with
  | nil => exact ⟨[], rfl, rfl⟩
  | cons hchunk _ ih =>
    obtain ⟨texts, hslots, hkeys⟩ := hchunk
    obtain ⟨more, hmore, hmoreKeys⟩ := ih
    exact ⟨texts ++ more, by simp [hslots, hmore], by simp [hkeys, hmoreKeys]⟩

/-- Keys that were given out before are kept. -/
theorem StoresKeys.of_grown {d grown : Dictionary} {keys : List UInt32} (h : StoresKeys d array keys)
    (hgrown : d.values <+: grown.values) : StoresKeys grown array keys := by
  obtain ⟨texts, hslots, hkeys⟩ := h
  exact ⟨texts, hslots, Dictionary.map_keyOf?_of_grown hgrown hkeys⟩

/-! ## Arrays without missing values -/

theorem map_some_of_any {α : Type} {values : List (Option α)} (h : values.any Option.isNone = false) :
    values = (values.filterMap id).map some := by
  induction values with
  | nil => rfl
  | cons value values ih =>
    rw [List.any_cons, Bool.or_eq_false_iff] at h
    cases value with
    | none => cases h.1
    | some value => exact congrArg _ (ih h.2)

theorem length_of_any {α : Type} {values : List (Option α)} (h : values.any Option.isNone = false) :
    (values.filterMap id).length = values.length := by
  conv_rhs => rw [map_some_of_any h, List.length_map]

theorem require_eq_ok {α : Type} {mismatch : Failure} {values? : Option α} {values : α}
    (h : require array batch mismatch values? = .ok values) :
    array.hasNull = false ∧ values? = some values := by
  unfold require at h
  cases hnull : array.hasNull with
  | true =>
    rw [hnull] at h
    cases h
  | false =>
    rw [hnull] at h
    cases values? with
    | none => cases h
    | some found =>
      cases h
      exact ⟨rfl, rfl⟩

theorem floats_of_floats? {values : List Binary64} (hnull : array.hasNull = false)
    (h : floats? array = some values) : array.slots LeafArray.floats = values.map some ∧
      values.length = array.length := by
  unfold floats? at h
  split at h
  · cases h
    exact ⟨map_some_of_any hnull, length_of_any hnull⟩
  · cases h

theorem integers_of_integers? {values : List Int32} (hnull : array.hasNull = false)
    (h : integers? array = some values) : array.slots LeafArray.integers = values.map some ∧
      values.length = array.length := by
  unfold integers? at h
  split at h
  · rename_i values
    cases h
    have hvalues : values.any Option.isNone = false := hnull
    show values.map _ = (values.filterMap _).map some ∧ _ = values.length
    rw [map_some_of_any hvalues]
    simp
  · cases h

theorem textsOf?_eq_some {type : TextType} {values : List (Option String)} {texts : List String}
    (h : textsOf? type values = some texts) : texts = values.filterMap id := by
  unfold textsOf? at h
  split at h
  · cases h
  · exact (Option.some.inj h).symm

theorem texts_of_texts? {values : List String} (hnull : array.hasNull = false)
    (h : texts? array = some values) : array.slots LeafArray.texts = values.map some ∧
      values.length = array.length := by
  unfold texts? at h
  split at h
  · rw [textsOf?_eq_some h]
    exact ⟨map_some_of_any hnull, length_of_any hnull⟩
  · cases h

/-- No slot lacks a value. In a dictionary array the keys are positions in the dictionary, which has a
    text at each of them. -/
def Complete : ColumnArray → Prop
  | .leaf (.dictionary _ _ keys texts) =>
    keys.any Option.isNone = false ∧ texts.any Option.isNone = false ∧
      ∀ key, some key ∈ keys → 0 ≤ key ∧ key.toNat < texts.length
  | array => array.hasNull = false

theorem Complete.hasNull_eq (h : Complete array) : array.hasNull = false := by
  cases array with
  | leaf array =>
    cases array with
    | dictionary => exact h.1
    | float64 | integer | text | binary | plain => exact h
  | list | struct => exact h

theorem complete_of_floats? {values : List Binary64} (hnull : array.hasNull = false)
    (h : floats? array = some values) : Complete array := by
  unfold floats? at h
  split at h
  · exact hnull
  · cases h

theorem complete_of_integers? {values : List Int32} (hnull : array.hasNull = false)
    (h : integers? array = some values) : Complete array := by
  unfold integers? at h
  split at h
  · exact hnull
  · cases h

theorem complete_of_texts? {values : List String} (hnull : array.hasNull = false)
    (h : texts? array = some values) : Complete array := by
  unfold texts? at h
  split at h
  · exact hnull
  · cases h

/-! ## Keys of a chunk -/

theorem translateKey_eq_ok {translated : List UInt32} {key : Int} {key' : UInt32} :
    translateKey translated key = .ok key' ↔ 0 ≤ key ∧ translated[key.toNat]? = some key' := by
  unfold translateKey
  by_cases h : key < 0
  · simp [h]
  · rw [if_neg h]
    cases translated[key.toNat]? with
    | none => simp
    | some found => simp [Int.not_lt.mp h]

theorem positions_of_translated {translated keys : List UInt32} {batchKeys : List Int}
    (h : List.Forall₂ (fun key key' => translateKey translated key = .ok key') batchKeys keys) :
    ∀ key ∈ batchKeys, 0 ≤ key ∧ key.toNat < translated.length := by
  induction h with
  | nil => simp
  | cons hkey _ ih =>
    obtain ⟨hnonneg, hfound⟩ := translateKey_eq_ok.mp hkey
    obtain ⟨hlt, -⟩ := List.getElem?_eq_some_iff.mp hfound
    exact List.forall_mem_cons.mpr ⟨⟨hnonneg, hlt⟩, ih⟩

/-- The translated keys stand for the texts that the keys of the batch stand for. -/
theorem texts_of_translated {interner : Interner} {values : List String} {translated keys : List UInt32}
    {batchKeys : List Int} (hvalues : values.map interner.toDictionary.keyOf? = translated.map some)
    (h : List.Forall₂ (fun key key' => translateKey translated key = .ok key') batchKeys keys) :
    ∃ texts : List String, batchKeys.map (fun key => Parquet.textOf? (values.map some) (some key)) =
      texts.map some ∧ texts.map interner.toDictionary.keyOf? = keys.map some := by
  induction h with
  | nil => exact ⟨[], rfl, rfl⟩
  | @cons key key' _ _ hkey _ ih =>
    obtain ⟨texts, htexts, hkeys⟩ := ih
    obtain ⟨-, hkey⟩ := translateKey_eq_ok.mp hkey
    have hat := congrArg (·[key.toNat]?) hvalues
    simp only [List.getElem?_map, hkey, Option.map_some] at hat
    obtain ⟨text, htext, hkeyOf⟩ := Option.map_eq_some_iff.mp hat
    refine ⟨text :: texts, ?_, ?_⟩
    · rw [List.map_cons, List.map_cons, htexts]
      simp [Parquet.textOf?, htext]
    · rw [List.map_cons, List.map_cons, hkeys, hkeyOf]

theorem vocabulary_of_texts? {texts : List String} (h : texts? array = some texts) :
    vocabulary array = texts := by
  unfold texts? at h
  split at h
  · exact (textsOf?_eq_some h).symm
  · cases h

/-- The texts of the array are taken in, and the keys of the chunk are those of the texts in its slots. -/
theorem loadKeys_eq_ok {interner interner' : Interner} {mismatch : Failure} {keys : List UInt32}
    (hinterner : interner.Sound) (hnull : array.hasNull = false)
    (h : loadKeys interner array batch mismatch = .ok (keys, interner')) :
    (∃ translated, interner.Interned (vocabulary array) translated interner') ∧
      StoresKeys interner'.toDictionary array keys ∧ keys.length = array.length := by
  unfold loadKeys at h
  split at h
  -- the texts of the array's dictionary get keys first, then its keys are translated to these
  · rename_i type batchKeys values
    split at h
    · cases h
    · rename_i hvalues
      rw [Bool.not_eq_true] at hvalues
      split at h
      · cases h
      · rename_i texts htexts
        obtain rfl := textsOf?_eq_some htexts
        obtain ⟨translated, htranslated, hpair⟩ := bind_eq_ok.mp h
        cases hpair
        have hinterned := hinterner.internAll (values.filterMap id)
        have htranslated := mapM_eq_ok.mp htranslated
        obtain ⟨texts, hslots, hkeys⟩ := texts_of_translated hinterned.keys_eq htranslated
        rw [← map_some_of_any hvalues] at hslots
        have hlength := htranslated.length_eq.symm.trans (length_of_any hnull)
        refine ⟨⟨_, hinterned⟩, ⟨texts, ?_, hkeys⟩, hlength⟩
        have hbatchKeys : batchKeys.any Option.isNone = false := hnull
        show batchKeys.map (Parquet.textOf? values) = _
        rw [← hslots, map_some_of_any hbatchKeys, List.map_map]
        simp
  -- every row of any other array brings its own text
  · rename_i array _
    split at h
    · cases h
    · rename_i texts htexts
      have hpair : interner.internAll texts = (keys, interner') := Except.ok.inj h
      have hinterned := hinterner.internAll texts
      rw [hpair] at hinterned
      obtain ⟨hslots, hlength⟩ := texts_of_texts? hnull htexts
      have hkeys := congrArg List.length hinterned.keys_eq
      rw [List.length_map, List.length_map] at hkeys
      exact ⟨⟨keys, vocabulary_of_texts? htexts ▸ hinterned⟩, ⟨texts, hslots, hinterned.keys_eq⟩,
        hkeys.symm.trans hlength⟩

theorem length_internAll (interner : Interner) (texts : List String) :
    (interner.internAll texts).1.length = texts.length := by
  induction texts generalizing interner with
  | nil => rfl
  | cons text texts ih => exact congrArg (· + 1) (ih _)

/-- The keys of an array that is loaded are positions in its dictionary. -/
theorem complete_of_loadKeys {interner : Interner} {mismatch : Failure} {loaded : List UInt32 × Interner}
    (hnull : array.hasNull = false) (h : loadKeys interner array batch mismatch = .ok loaded) :
    Complete array := by
  unfold loadKeys at h
  split at h
  · rename_i type batchKeys values
    split at h
    · cases h
    · rename_i hvalues
      rw [Bool.not_eq_true] at hvalues
      split at h
      · cases h
      · rename_i texts htexts
        obtain rfl := textsOf?_eq_some htexts
        obtain ⟨translated, htranslated, -⟩ := bind_eq_ok.mp h
        refine ⟨hnull, hvalues, fun key hkey => ?_⟩
        have hmem : key ∈ batchKeys.filterMap id := List.mem_filterMap.mpr ⟨_, hkey, rfl⟩
        obtain ⟨hnonneg, hlt⟩ := positions_of_translated (mapM_eq_ok.mp htranslated) key hmem
        rw [length_internAll, length_of_any hvalues] at hlt
        exact ⟨hnonneg, hlt⟩
  · rename_i array _
    split at h
    · cases h
    · rename_i texts htexts
      exact complete_of_texts? hnull htexts

/-! ## One array -/

/-- What loading an array does to a loader, where it succeeds. -/
inductive Pushed (array : ColumnArray) : PartialColumn → PartialColumn → Prop
  | float64 {chunks : Array (List Binary64)} {values : List Binary64} (hcomplete : Complete array)
      (h : Stores LeafArray.floats array values) (hlength : values.length = array.length) :
      Pushed array (.float64 chunks) (.float64 (chunks.push values))
  | int32 {chunks : Array (List Int32)} {values : List Int32} (hcomplete : Complete array)
      (h : Stores LeafArray.integers array values) (hlength : values.length = array.length) :
      Pushed array (.int32 chunks) (.int32 (chunks.push values))
  | utf8 {chunks : Array (List String)} {values : List String} (hcomplete : Complete array)
      (h : Stores LeafArray.texts array values) (hlength : values.length = array.length) :
      Pushed array (.utf8 chunks) (.utf8 (chunks.push values))
  | dictionary {chunks : Array (List UInt32)} {keys : List UInt32} {interner interner' : Interner}
      {mismatch : Failure} {batch : Nat} (hcomplete : Complete array)
      (h : loadKeys interner array batch mismatch = .ok (keys, interner')) :
      Pushed array (.dictionary chunks interner) (.dictionary (chunks.push keys) interner')
  | unsupported {typeName : String} {rows : Nat} :
      Pushed array (.unsupported typeName rows) (.unsupported typeName (rows + array.length))

theorem pushed_of_push (h : loader.push field array batch = .ok loader') :
    Pushed array loader loader' := by
  unfold push at h
  cases loader with
  | float64 chunks =>
    obtain ⟨values, hvalues, h⟩ := bind_eq_ok.mp h
    obtain ⟨hnull, hvalues⟩ := require_eq_ok hvalues
    cases h
    obtain ⟨hslots, hlength⟩ := floats_of_floats? hnull hvalues
    exact .float64 (complete_of_floats? hnull hvalues) hslots hlength
  | int32 chunks =>
    obtain ⟨values, hvalues, h⟩ := bind_eq_ok.mp h
    obtain ⟨hnull, hvalues⟩ := require_eq_ok hvalues
    cases h
    obtain ⟨hslots, hlength⟩ := integers_of_integers? hnull hvalues
    exact .int32 (complete_of_integers? hnull hvalues) hslots hlength
  | utf8 chunks =>
    obtain ⟨values, hvalues, h⟩ := bind_eq_ok.mp h
    obtain ⟨hnull, hvalues⟩ := require_eq_ok hvalues
    cases h
    obtain ⟨hslots, hlength⟩ := texts_of_texts? hnull hvalues
    exact .utf8 (complete_of_texts? hnull hvalues) hslots hlength
  | dictionary chunks interner =>
    obtain ⟨_, hvalues, h⟩ := bind_eq_ok.mp h
    obtain ⟨hnull, -⟩ := require_eq_ok hvalues
    obtain ⟨⟨keys, interner'⟩, hkeys, h⟩ := bind_eq_ok.mp h
    cases h
    exact .dictionary (complete_of_loadKeys hnull hkeys) hkeys
  | unsupported typeName rows =>
    cases h
    exact .unsupported

theorem Pushed.columnType?_eq (h : Pushed array loader loader') :
    loader'.toData.columnType? = loader.toData.columnType? := by
  cases h <;> rfl

theorem Pushed.complete (h : Pushed array loader loader') (htype : loader.toData.columnType?.isSome) :
    Complete array := by
  cases h with
  | float64 hcomplete | int32 hcomplete | utf8 hcomplete | dictionary hcomplete => exact hcomplete
  | unsupported => cases htype

/-- The slots of an array are kept in a chunk after those that were kept before. -/
theorem Pushed.keeps (h : Pushed array loader loader') (hkeeps : loader.Keeps arrays) :
    loader'.Keeps (arrays ++ [array]) := by
  have happend {α : Type} {R : ColumnArray → List α → Prop} {chunks : Array (List α)} {chunk : List α}
      (hchunks : List.Forall₂ R arrays chunks.toList) (hchunk : R array chunk) :
      List.Forall₂ R (arrays ++ [array]) (chunks.push chunk).toList := by
    rw [Array.toList_push]
    exact List.rel_append hchunks (.cons hchunk .nil)
  cases h with
  | float64 _ h | int32 _ h | utf8 _ h => exact happend hkeeps h
  | dictionary hcomplete h =>
    obtain ⟨hinterner, hvalues, hchunks⟩ := hkeeps
    obtain ⟨⟨translated, hinterned⟩, hchunk, -⟩ := loadKeys_eq_ok hinterner hcomplete.hasNull_eq h
    refine ⟨hinterned.sound, ?_, happend (hchunks.imp fun _ _ h => h.of_grown hinterned.grown) hchunk⟩
    rw [List.flatMap_append, List.flatMap_singleton]
    exact hinterned.values_eq hvalues
  | unsupported => trivial

/-- An array becomes the next chunk. -/
theorem Pushed.chunkSizes_eq (h : Pushed array loader loader') (hkeeps : loader.Keeps arrays)
    (htype : loader.toData.columnType?.isSome) :
    loader'.toData.chunkSizes = loader.toData.chunkSizes ++ [array.length] := by
  cases h with
  | float64 _ _ hlength | int32 _ _ hlength | utf8 _ _ hlength =>
    simp [toData, ColumnChunks.chunkSizes, hlength]
  | unsupported => cases htype
  | dictionary hcomplete h =>
    obtain ⟨-, -, hlength⟩ := loadKeys_eq_ok hkeeps.1 hcomplete.hasNull_eq h
    simp [toData, ColumnChunks.chunkSizes, hlength]

theorem Pushed.rows_eq (h : Pushed array loader loader') (hkeeps : loader.Keeps arrays) :
    loader'.toData.chunkSizes.sum = loader.toData.chunkSizes.sum + array.length := by
  cases htype : loader.toData.columnType? with
  | some columnType => simp [h.chunkSizes_eq hkeeps (htype ▸ rfl)]
  | none =>
    cases h with
    | unsupported => simp [toData, ColumnChunks.chunkSizes]
    | float64 | int32 | utf8 | dictionary => cases htype

/-- The loader of a column of the type has taken in the arrays. -/
structure Took (settings : LoadSettings) (type : DataType) (arrays : List ColumnArray)
    (loader : PartialColumn) : Prop where
  keeps : loader.Keeps arrays
  columnType?_eq : loader.toData.columnType? = (ofType settings type).toData.columnType?
  rows_eq : loader.toData.chunkSizes.sum = (arrays.map ColumnArray.length).sum
  chunkSizes_eq : loader.toData.columnType?.isSome →
    loader.toData.chunkSizes = arrays.map ColumnArray.length
  complete : loader.toData.columnType?.isSome → ∀ array ∈ arrays, Complete array
  typeName_eq : ∀ {typeName : String} {rows : Nat}, loader.toData = .unsupported typeName rows →
    typeName = type.name

variable {settings : LoadSettings} {type : DataType}

theorem took_ofType (settings : LoadSettings) (type : DataType) :
    (ofType settings type).Took settings type [] where
  keeps := keeps_ofType settings type
  columnType?_eq := rfl
  rows_eq := by
    unfold ofType
    split
    · rfl
    · rfl
    · split <;> rfl
    · split <;> rfl
    · rfl
    · rfl
  chunkSizes_eq htype := by
    unfold ofType at htype ⊢
    split at htype
    · rfl
    · rfl
    · split <;> rfl
    · split <;> rfl
    · rfl
    · cases htype
  complete := by simp
  typeName_eq {typeName rows} h := by
    unfold ofType at h
    split at h
    · cases h
    · cases h
    · split at h <;> cases h
    · split at h <;> cases h
    · cases h
    · cases h
      rfl

theorem Took.push (h : loader.Took settings type arrays) (hpush : Pushed array loader loader') :
    loader'.Took settings type (arrays ++ [array]) where
  keeps := hpush.keeps h.keeps
  columnType?_eq := hpush.columnType?_eq.trans h.columnType?_eq
  rows_eq := by simp [hpush.rows_eq h.keeps, h.rows_eq]
  chunkSizes_eq htype := by
    rw [hpush.columnType?_eq] at htype
    rw [hpush.chunkSizes_eq h.keeps htype, h.chunkSizes_eq htype, List.map_append, List.map_singleton]
  complete htype := by
    rw [hpush.columnType?_eq] at htype
    have hadded : ∀ added ∈ [array], Complete added := List.forall_mem_singleton.mpr (hpush.complete htype)
    exact List.forall_mem_append.mpr ⟨h.complete htype, hadded⟩
  typeName_eq {typeName rows} hdata := by
    cases hpush with
    | unsupported =>
      cases hdata
      exact h.typeName_eq rfl
    | float64 | int32 | utf8 | dictionary => cases hdata

/-! ## What a loaded column holds -/

/-- All slots of the arrays have a value, and the content is made of them. -/
inductive ReadsAs (arrays : List ColumnArray) : Content → Prop
  | float64 {values : List Binary64}
      (h : arrays.flatMap (ColumnArray.slots LeafArray.floats) = values.map some) :
      ReadsAs arrays (.float64 (.ofValues values))
  | int32 {values : List Int32}
      (h : arrays.flatMap (ColumnArray.slots LeafArray.integers) = values.map some) :
      ReadsAs arrays (.int32 (.ofValues values))
  | utf8 {values : List String}
      (h : arrays.flatMap (ColumnArray.slots LeafArray.texts) = values.map some) :
      ReadsAs arrays (.utf8 (.ofValues values))

/-- A dictionary of the data is small enough for its keys. -/
def Addressable : ColumnChunks → Prop
  | .dictionary _ texts => texts.size ≤ UInt32.size
  | _ => True

/-- The dictionary has no texts but those of the arrays. So it is small enough for its keys if the arrays
    have no more different texts than there are keys. -/
theorem Took.addressable (h : loader.Took settings type arrays)
    (hcard : (arrays.flatMap vocabulary).toFinset.card ≤ UInt32.size) : Addressable loader.toData := by
  have hkeeps := h.keeps
  cases loader with
  | float64 | int32 | utf8 | unsupported => trivial
  | dictionary chunks interner =>
    obtain ⟨-, hvalues, -⟩ := hkeeps
    refine le_trans (le_of_eq ?_) hcard
    show interner.toDictionary.values.length = _
    rw [hvalues, length_eraseDups]

/-- A column that can be scanned holds the values of the arrays, through a dictionary or not. -/
theorem Took.readsAs (h : loader.Took settings type arrays) {columnType : ColumnType}
    (htype : loader.toData.columnType? = some columnType) (haddressable : Addressable loader.toData) :
    ReadsAs arrays loader.toData.content.plain := by
  have hkeeps := h.keeps
  cases loader with
  | unsupported => cases htype
  | float64 => exact .float64 (flatMap_slots hkeeps)
  | int32 => exact .int32 (flatMap_slots hkeeps)
  | utf8 => exact .utf8 (flatMap_slots hkeeps)
  | dictionary chunks interner =>
    obtain ⟨-, -, hchunks⟩ := hkeeps
    obtain ⟨texts, hslots, hkeys⟩ := exists_flatMap_slots hchunks
    show ReadsAs arrays (.utf8 (chunks.toList.flatten.map interner.toDictionary.textOf))
    rw [Dictionary.map_textOf haddressable hkeys]
    exact .utf8 hslots

theorem Took.sound (h : loader.Took settings type arrays) (haddressable : Addressable loader.toData) :
    loader.toData.content.Sound := by
  have hkeeps := h.keeps
  cases loader with
  | float64 | int32 | utf8 | unsupported => trivial
  | dictionary chunks interner =>
    obtain ⟨hinterner, -, hchunks⟩ := hkeeps
    obtain ⟨texts, -, hkeys⟩ := exists_flatMap_slots hchunks
    exact ⟨⟨hinterner.distinct, haddressable⟩, Dictionary.toNat_lt_of_map_keyOf? hkeys⟩

/-! ## Arrays that can be loaded -/

/-- Columns of the type are loaded as columns that can be scanned. -/
inductive Scannable (settings : LoadSettings) : DataType → ColumnType → Prop
  | float64 : Scannable settings (.leaf .float64) .float64
  | int32 : Scannable settings (.leaf (.integer .int32)) .int32
  | utf8 {layout : TextType} (hlayout : layout ≠ .utf8View) (h : settings.dictionaryStrings = false) :
      Scannable settings (.leaf (.text layout)) .utf8
  | encoded {layout : TextType} (hlayout : layout ≠ .utf8View) (h : settings.dictionaryStrings = true) :
      Scannable settings (.leaf (.text layout)) .dictionary
  | dictionary : Scannable settings (.leaf (.dictionary .int32 .utf8)) .dictionary

theorem scannable_iff {columnType : ColumnType} :
    (ofType settings type).toData.columnType? = some columnType ↔ Scannable settings type columnType := by
  constructor
  · intro h
    unfold ofType at h
    split at h
    · cases h
      exact .float64
    · cases h
      exact .int32
    · split at h
      · rename_i hstrings
        cases h
        exact .encoded (by decide) hstrings
      · rename_i hstrings
        cases h
        exact .utf8 (by decide) (Bool.not_eq_true _ ▸ hstrings)
    · split at h
      · rename_i hstrings
        cases h
        exact .encoded (by decide) hstrings
      · rename_i hstrings
        cases h
        exact .utf8 (by decide) (Bool.not_eq_true _ ▸ hstrings)
    · cases h
      exact .dictionary
    · cases h
  · intro h
    cases h with
    | float64 | int32 | dictionary => rfl
    | @utf8 layout hlayout h | @encoded layout hlayout h =>
      cases layout with
      | utf8 | largeUtf8 => simp [ofType, h, toData, ColumnChunks.columnType?]
      | utf8View => exact absurd rfl hlayout

/-- The bound on the texts is only needed where texts are given keys. -/
theorem Took.addressable_of_scannable (h : loader.Took settings type arrays)
    (htexts : Scannable settings type .dictionary →
      (arrays.flatMap vocabulary).toFinset.card ≤ UInt32.size) : Addressable loader.toData := by
  cases hdata : loader.toData with
  | float64 | int32 | utf8 | unsupported => trivial
  | dictionary chunks texts =>
    have htype := h.columnType?_eq.symm.trans (congrArg ColumnChunks.columnType? hdata)
    rw [← hdata]
    exact h.addressable (htexts (scannable_iff.mp htype))

/-- A column that can be scanned has only taken in arrays without missing values. -/
theorem Took.complete_of_scannable (h : loader.Took settings type arrays) {columnType : ColumnType}
    (hscannable : Scannable settings type columnType) : ∀ array ∈ arrays, Complete array := by
  have htype := h.columnType?_eq.trans (scannable_iff.mpr hscannable)
  exact h.complete (htype ▸ rfl)

theorem exists_scannable_text (settings : LoadSettings) {layout : TextType} (h : layout ≠ .utf8View) :
    ∃ columnType, Scannable settings (.leaf (.text layout)) columnType := by
  cases hstrings : settings.dictionaryStrings with
  | false => exact ⟨_, .utf8 h hstrings⟩
  | true => exact ⟨_, .encoded h hstrings⟩

theorem any_slice {α : Type} {slots : List α} {test : α → Bool} (h : slots.any test = false)
    (start n : Nat) : ((slots.drop start).take n).any test = false := by
  rw [List.any_eq_false] at h ⊢
  exact fun slot hslot => h slot (List.mem_of_mem_drop (List.mem_of_mem_take hslot))

/-- No slot of a slice lacks a value if none of the whole array does. -/
theorem Complete.slice (h : Complete array) (start n : Nat) : Complete (array.slice start n) := by
  cases array with
  | leaf array =>
    cases array with
    | dictionary key layout keys texts =>
      obtain ⟨hkeys, htexts, hpositions⟩ := h
      exact ⟨any_slice hkeys start n, htexts, fun key hkey =>
        hpositions key (List.mem_of_mem_drop (List.mem_of_mem_take hkey))⟩
    | float64 | integer | text | binary | plain => exact any_slice h start n
  | list => exact any_slice h start n
  | struct => exact h

theorem array_of_float64 (h : Scannable settings array.type .float64) :
    ∃ values, array = .leaf (.float64 values) := by
  cases array with
  | leaf array =>
    cases array with
    | float64 values => exact ⟨values, rfl⟩
    | integer | text | binary | dictionary | plain => cases h
  | list | struct => cases h

theorem array_of_int32 (h : Scannable settings array.type .int32) :
    ∃ values, array = .leaf (.integer .int32 values) := by
  cases array with
  | leaf array =>
    cases array with
    | integer type values =>
      cases h
      exact ⟨values, rfl⟩
    | float64 | text | binary | dictionary | plain => cases h
  | list | struct => cases h

theorem texts?_of_layout {layout : TextType} (h : layout ≠ .utf8View) (values : List (Option String)) :
    texts? (.leaf (.text layout values)) = some (values.filterMap id) := by
  cases layout with
  | utf8 | largeUtf8 => rfl
  | utf8View => exact absurd rfl h

theorem texts?_of_utf8 (h : Scannable settings array.type .utf8) :
    ∃ texts, texts? array = some texts := by
  cases array with
  | leaf array =>
    cases array with
    | text layout values =>
      cases h with
      | utf8 hlayout => exact ⟨_, texts?_of_layout hlayout values⟩
    | float64 | integer | binary | dictionary | plain => cases h
  | list | struct => cases h

theorem mapM_translateKey {translated : List UInt32} {keys : List (Option Int)}
    (h : ∀ key, some key ∈ keys → 0 ≤ key ∧ key.toNat < translated.length) :
    ∃ found, (keys.filterMap id).mapM (translateKey translated) = .ok found := by
  induction keys with
  | nil => exact ⟨[], rfl⟩
  | cons key keys ih =>
    obtain ⟨rest, hrest⟩ := ih fun key hkey => h key (List.mem_cons_of_mem _ hkey)
    cases key with
    | none => exact ⟨rest, hrest⟩
    | some key =>
      obtain ⟨hnonneg, hlt⟩ := h key List.mem_cons_self
      refine ⟨translated[key.toNat] :: rest, mapM_eq_ok.mpr (.cons ?_ (mapM_eq_ok.mp hrest))⟩
      exact translateKey_eq_ok.mpr ⟨hnonneg, List.getElem?_eq_getElem hlt⟩

theorem exists_loadKeys (h : Scannable settings array.type .dictionary) (hcomplete : Complete array)
    (interner : Interner) (batch : Nat) (mismatch : Failure) :
    ∃ loaded, loadKeys interner array batch mismatch = .ok loaded := by
  cases array with
  | leaf array =>
    cases array with
    | text layout values =>
      cases h with
      | encoded hlayout =>
        exact ⟨interner.internAll (values.filterMap id), by simp [loadKeys, texts?_of_layout hlayout]⟩
    | dictionary key layout keys texts =>
      cases h
      obtain ⟨-, htexts, hkeys⟩ := hcomplete
      have hlength : (interner.internAll (texts.filterMap id)).1.length = texts.length := by
        rw [length_internAll, length_of_any htexts]
      obtain ⟨found, hfound⟩ := mapM_translateKey (fun key hkey => hlength.symm ▸ hkeys key hkey)
      refine ⟨(found, (interner.internAll (texts.filterMap id)).2), ?_⟩
      rw [loadKeys, if_neg (by simp [htexts])]
      exact bind_eq_ok.mpr ⟨found, hfound, rfl⟩
    | float64 | integer | binary | plain => cases h
  | list | struct => cases h

/-- Arrays without missing values are loaded into the columns of their types. -/
theorem exists_push (hloader : loader.toData.columnType? = (ofType settings field.type).toData.columnType?)
    (htype : array.type = field.type)
    (hcomplete : loader.toData.columnType?.isSome → Complete array) (batch : Nat) :
    ∃ loader', loader.push field array batch = .ok loader' := by
  have hscannable : ∀ {columnType}, loader.toData.columnType? = some columnType →
      Scannable settings array.type columnType := by
    intro columnType hcolumn
    rw [htype, ← scannable_iff, ← hloader, hcolumn]
  cases loader with
  | unsupported => exact ⟨_, rfl⟩
  | float64 chunks =>
    have hnull : array.hasNull = false := (hcomplete rfl).hasNull_eq
    obtain ⟨values, rfl⟩ := array_of_float64 (hscannable rfl)
    simp [push, require, hnull, floats?, bind, Except.bind, pure, Except.pure]
  | int32 chunks =>
    have hnull : array.hasNull = false := (hcomplete rfl).hasNull_eq
    obtain ⟨values, rfl⟩ := array_of_int32 (hscannable rfl)
    simp [push, require, hnull, integers?, bind, Except.bind, pure, Except.pure]
  | utf8 chunks =>
    have hnull : array.hasNull = false := (hcomplete rfl).hasNull_eq
    obtain ⟨texts, htexts⟩ := texts?_of_utf8 (hscannable rfl)
    simp [push, require, hnull, htexts, bind, Except.bind, pure, Except.pure]
  | dictionary chunks interner =>
    have hnull : array.hasNull = false := (hcomplete rfl).hasNull_eq
    obtain ⟨loaded, hkeys⟩ := exists_loadKeys (hscannable rfl) (hcomplete rfl) interner batch
      (.schemaMismatch field.name field.type.name array.type.name batch)
    simp [push, require, hnull, hkeys, bind, Except.bind, pure, Except.pure]

end PartialColumn

end Pushdown
