-- SUMMARY: The batch size of a load decides how the columns are cut into chunks, and nothing else.
import Pushdown.Proofs.Memory.Encoding
import Pushdown.Proofs.Slices

/-!
# Batch sizes

A file of batches is loaded in slices. An array and its slices hold the same: their slots in the same order, and
the texts of a dictionary, which every slice brings along, up to repeats. So whatever the size, what is loaded is
what the batches that have rows would be loaded as, with the chunks put together; and a value is missing in one of
the slices exactly if one is missing in the batch.
-/

namespace Pushdown

open Record

/-! ## Chunks put together -/

/-- The data in one chunk. -/
def ColumnChunks.joined : ColumnChunks → ColumnChunks
  | .float64 chunks => .float64 [chunks.flatten]
  | .int32 chunks => .int32 [chunks.flatten]
  | .utf8 chunks => .utf8 [chunks.flatten]
  | .dictionary chunks texts => .dictionary [chunks.flatten] texts
  | .unsupported typeName rows => .unsupported typeName rows

def MemoryColumn.joined (column : MemoryColumn) : MemoryColumn := { column with data := column.data.joined }

namespace PartialColumn

variable {arrays others : List ColumnArray} {array : ColumnArray} {sizes : List Nat}

/-- The arrays hold the same slots in the same order, and bring the same texts, up to repeats. -/
structure SameSlots (arrays others : List ColumnArray) : Prop where
  slots_eq : ∀ {α : Type} {read : LeafArray → List α}, LeafArray.Slotwise read →
    arrays.flatMap (ColumnArray.slots read) = others.flatMap (ColumnArray.slots read)
  vocabulary_eq : (arrays.flatMap vocabulary).eraseDups = (others.flatMap vocabulary).eraseDups
  rows_eq : (arrays.map ColumnArray.length).sum = (others.map ColumnArray.length).sum

theorem SameSlots.refl (arrays : List ColumnArray) : SameSlots arrays arrays where
  slots_eq _ := rfl
  vocabulary_eq := rfl
  rows_eq := rfl

theorem SameSlots.symm (h : SameSlots arrays others) : SameSlots others arrays where
  slots_eq hread := (h.slots_eq hread).symm
  vocabulary_eq := h.vocabulary_eq.symm
  rows_eq := h.rows_eq.symm

theorem SameSlots.trans {more : List ColumnArray} (h : SameSlots arrays others) (h' : SameSlots others more) :
    SameSlots arrays more where
  slots_eq hread := (h.slots_eq hread).trans (h'.slots_eq hread)
  vocabulary_eq := h.vocabulary_eq.trans h'.vocabulary_eq
  rows_eq := h.rows_eq.trans h'.rows_eq

theorem SameSlots.append {more additions : List ColumnArray} (h : SameSlots arrays others)
    (hmore : SameSlots more additions) : SameSlots (arrays ++ more) (others ++ additions) where
  slots_eq hread := by
    rw [List.flatMap_append, List.flatMap_append, h.slots_eq hread, hmore.slots_eq hread]
  vocabulary_eq := by
    rw [List.flatMap_append, List.flatMap_append]
    exact eraseDups_append_congr h.vocabulary_eq hmore.vocabulary_eq
  rows_eq := by
    rw [List.map_append, List.map_append, List.sum_append, List.sum_append, h.rows_eq, hmore.rows_eq]

/-! ## Slices of an array -/

/-- The slices of the array along stretches of the given sizes. -/
def arraySlices (array : ColumnArray) (sizes : List Nat) : List ColumnArray :=
  (stretches 0 sizes).map fun (start, n) => array.slice start n

theorem length_slots_le {α : Type} {read : LeafArray → List α} (hread : LeafArray.Slotwise read)
    (array : ColumnArray) : (array.slots read).length ≤ array.length := by
  cases array with
  | leaf array => exact hread.length_le array
  | list | struct => exact Nat.zero_le _

theorem slots_arraySlices {α : Type} {read : LeafArray → List α} (hread : LeafArray.Slotwise read)
    (hsizes : sizes.sum = array.length) :
    (arraySlices array sizes).flatMap (ColumnArray.slots read) = array.slots read := by
  simp only [arraySlices, List.flatMap_map, array.slots_slice hread]
  rw [flatMap_stretches (array.slots read), List.drop_zero,
    List.take_of_length_le ((length_slots_le hread array).trans hsizes.ge)]

theorem map_length_arraySlices (hsizes : sizes.sum = array.length) :
    (arraySlices array sizes).map ColumnArray.length = sizes := by
  rw [arraySlices, List.map_map]
  refine (List.map_congr_left ?_).trans (map_snd_stretches 0 sizes)
  rintro ⟨start, n⟩ hmem
  obtain ⟨-, hend, -⟩ := bounds_of_mem_stretches hmem
  show (array.slice start n).length = n
  rw [array.length_slice]
  omega

/-- Each slice of a dictionary array brings the whole dictionary, which has nothing new after the first. -/
theorem vocabulary_arraySlices (hne : sizes ≠ []) (hsizes : sizes.sum = array.length) :
    ((arraySlices array sizes).flatMap vocabulary).eraseDups = (vocabulary array).eraseDups := by
  have hwhole (h : ∀ start n, vocabulary (array.slice start n) = vocabulary array) :
      ((arraySlices array sizes).flatMap vocabulary).eraseDups = (vocabulary array).eraseDups := by
    obtain ⟨n, rest, rfl⟩ := List.exists_cons_of_ne_nil hne
    rw [arraySlices, stretches, List.map_cons, List.flatMap_cons, h]
    refine eraseDups_append_of_subset fun text htext => ?_
    obtain ⟨slice, hslice, htext⟩ := List.mem_flatMap.mp htext
    obtain ⟨⟨start, n⟩, -, rfl⟩ := List.mem_map.mp hslice
    exact h start n ▸ htext
  cases array with
  | leaf array =>
    cases array with
    -- only an array of texts is divided: every slice of it brings the texts of its own slots
    | text layout values =>
      have hslots := slots_arraySlices LeafArray.slotwise_texts hsizes
      have hparts : ∀ slice ∈ arraySlices (.leaf (.text layout values)) sizes,
          vocabulary slice = (slice.slots LeafArray.texts).filterMap id := by
        intro slice hslice
        obtain ⟨_, -, rfl⟩ := List.mem_map.mp hslice
        rfl
      rw [List.flatMap_congr hparts, ← List.filterMap_flatMap, hslots]
      rfl
    | float64 | integer | binary | dictionary | plain => exact hwhole fun _ _ => rfl
  | list | struct => exact hwhole fun _ _ => rfl

theorem sameSlots_arraySlices (hne : sizes ≠ []) (hsizes : sizes.sum = array.length) :
    SameSlots (arraySlices array sizes) [array] where
  slots_eq hread := by rw [slots_arraySlices hread hsizes, List.flatMap_singleton]
  vocabulary_eq := by rw [vocabulary_arraySlices hne hsizes, List.flatMap_singleton]
  rows_eq := by rw [map_length_arraySlices hsizes, hsizes, List.map_singleton, List.sum_singleton]

/-- What holds of the entries in all parts of a list holds of all its entries. -/
theorem forall_of_stretches {α : Type} {slots : List α} {holds : α → Prop} (hsizes : slots.length ≤ sizes.sum)
    (h : ∀ stretch ∈ stretches 0 sizes, ∀ slot ∈ (slots.drop stretch.1).take stretch.2, holds slot) :
    ∀ slot ∈ slots, holds slot := by
  have hparts := flatMap_stretches slots 0 sizes
  rw [List.drop_zero, List.take_of_length_le hsizes] at hparts
  intro slot hslot
  rw [← hparts] at hslot
  obtain ⟨stretch, hstretch, hslot⟩ := List.mem_flatMap.mp hslot
  exact h stretch hstretch slot hslot

theorem any_eq_false_of_stretches {α : Type} {slots : List α} {test : α → Bool}
    (hsizes : slots.length ≤ sizes.sum)
    (h : ∀ stretch ∈ stretches 0 sizes, ((slots.drop stretch.1).take stretch.2).any test = false) :
    slots.any test = false :=
  List.any_eq_false.mpr (forall_of_stretches hsizes fun stretch hstretch =>
    List.any_eq_false.mp (h stretch hstretch))

/-- No value is missing in an array if none is missing in its slices. -/
theorem complete_of_slices (hne : sizes ≠ []) (hsizes : sizes.sum = array.length)
    (h : ∀ slice ∈ arraySlices array sizes, Complete slice) : Complete array := by
  have hslice : ∀ stretch ∈ stretches 0 sizes, Complete (array.slice stretch.1 stretch.2) :=
    fun stretch hstretch => h _ (List.mem_map_of_mem hstretch)
  cases array with
  | leaf array =>
    cases array with
    | dictionary key layout keys texts =>
      obtain ⟨n, rest, rfl⟩ := List.exists_cons_of_ne_nil hne
      have hkeys := any_eq_false_of_stretches hsizes.ge fun stretch hstretch => (hslice stretch hstretch).1
      have htexts : texts.any Option.isNone = false := (hslice (0, n) List.mem_cons_self).2.1
      have hpositions : ∀ slot ∈ keys, ∀ key, slot = some key → 0 ≤ key ∧ key.toNat < texts.length :=
        forall_of_stretches hsizes.ge fun stretch hstretch slot hslot key hkey =>
          (hslice stretch hstretch).2.2 key (hkey ▸ hslot)
      exact ⟨hkeys, htexts, fun key hkey => hpositions _ hkey key rfl⟩
    | float64 | integer | text | binary | plain => exact any_eq_false_of_stretches hsizes.ge hslice
  | list => exact any_eq_false_of_stretches hsizes.ge hslice
  | struct => rfl

/-! ## Loaded columns -/

section

variable {α : Type}

/-- Chunks that store the same slots have the same values. -/
theorem flatten_eq_of_stores {read : LeafArray → List (Option α)} {chunks chunks' : List (List α)}
    (hslots : arrays.flatMap (ColumnArray.slots read) = others.flatMap (ColumnArray.slots read))
    (h : List.Forall₂ (Stores read) arrays chunks) (h' : List.Forall₂ (Stores read) others chunks') :
    chunks.flatten = chunks'.flatten := by
  rw [flatMap_slots h, flatMap_slots h'] at hslots
  exact List.map_injective_iff.mpr (Option.some_injective α) hslots

/-- So do chunks of keys of one dictionary that stand for the same texts. -/
theorem flatten_eq_of_storesKeys {d : Dictionary} {chunks chunks' : List (List UInt32)}
    (hslots : arrays.flatMap (ColumnArray.slots LeafArray.texts) =
      others.flatMap (ColumnArray.slots LeafArray.texts))
    (h : List.Forall₂ (StoresKeys d) arrays chunks) (h' : List.Forall₂ (StoresKeys d) others chunks') :
    chunks.flatten = chunks'.flatten := by
  obtain ⟨texts, htexts, hkeys⟩ := exists_flatMap_slots h
  obtain ⟨texts', htexts', hkeys'⟩ := exists_flatMap_slots h'
  rw [htexts, htexts'] at hslots
  obtain rfl : texts = texts' := List.map_injective_iff.mpr (Option.some_injective String) hslots
  exact List.map_injective_iff.mpr (Option.some_injective UInt32) (hkeys.symm.trans hkeys')

end

/-- What a column was loaded from decides its data, up to the cut into chunks. -/
theorem Took.joined_eq {settings other : LoadSettings} {type : DataType} {loader loader' : PartialColumn}
    (h : loader.Took settings type arrays) (h' : loader'.Took other type others)
    (htype : loader.toData.columnType? = loader'.toData.columnType?) (hsame : SameSlots arrays others) :
    loader.toData.joined = loader'.toData.joined := by
  have hkeeps := h.keeps
  have hkeeps' := h'.keeps
  cases loader with
  | float64 chunks =>
    cases loader' with
    | float64 chunks' =>
      have hflatten := flatten_eq_of_stores (hsame.slots_eq LeafArray.slotwise_floats) hkeeps hkeeps'
      exact congrArg (fun values => ColumnChunks.float64 [values]) hflatten
    | int32 | utf8 | dictionary | unsupported => cases htype
  | int32 chunks =>
    cases loader' with
    | int32 chunks' =>
      have hflatten := flatten_eq_of_stores (hsame.slots_eq LeafArray.slotwise_integers) hkeeps hkeeps'
      exact congrArg (fun values => ColumnChunks.int32 [values]) hflatten
    | float64 | utf8 | dictionary | unsupported => cases htype
  | utf8 chunks =>
    cases loader' with
    | utf8 chunks' =>
      have hflatten := flatten_eq_of_stores (hsame.slots_eq LeafArray.slotwise_texts) hkeeps hkeeps'
      exact congrArg (fun values => ColumnChunks.utf8 [values]) hflatten
    | float64 | int32 | dictionary | unsupported => cases htype
  | dictionary chunks interner =>
    cases loader' with
    | dictionary chunks' interner' =>
      obtain ⟨-, hlisted, hchunks⟩ := hkeeps
      obtain ⟨-, hlisted', hchunks'⟩ := hkeeps'
      -- the dictionaries come first: only then are the keys those of one dictionary
      have hdictionary : interner.toDictionary = interner'.toDictionary :=
        congrArg Dictionary.mk (hlisted.trans (hsame.vocabulary_eq.trans hlisted'.symm))
      rw [← hdictionary] at hchunks'
      have hflatten := flatten_eq_of_storesKeys (hsame.slots_eq LeafArray.slotwise_texts) hchunks hchunks'
      exact congrArg₂ (fun keys texts => ColumnChunks.dictionary [keys] texts) hflatten hdictionary
    | float64 | int32 | utf8 | unsupported => cases htype
  | unsupported typeName rows =>
    cases loader' with
    | unsupported typeName' rows' =>
      have hrows : rows = rows' := h.rows_eq.trans (hsame.rows_eq.trans h'.rows_eq.symm)
      rw [h.typeName_eq rfl, h'.typeName_eq rfl, hrows]
    | float64 | int32 | utf8 | dictionary => cases htype

/-- The batch size plays no part in what a column is loaded as. -/
theorem ofType_congr {settings other : LoadSettings}
    (h : settings.dictionaryStrings = other.dictionaryStrings) (type : DataType) :
    ofType settings type = ofType other type := by
  unfold ofType
  rw [h]

end PartialColumn

/-! ## Slices of batches -/

namespace MemoryTable

open PartialColumn

variable {settings other : LoadSettings} {schema : List Field} {batch : Batch} {batches : List Batch}
  {file : BatchFile} {t otherTable : MemoryTable}

theorem arraysAt_pieces (batch : Batch) (position : Nat) (sizes : List Nat) :
    arraysAt position (batch.pieces sizes) =
      batch.arrays[position]?.elim [] fun array => arraySlices array sizes := by
  unfold arraysAt Batch.pieces arraySlices
  cases harray : batch.arrays[position]? with
  | none => simp [List.filterMap_map, Batch.slice, harray]
  | some array => simp [List.filterMap_map, Batch.slice, harray]

theorem arraysAt_split (batch : Batch) (position size : Nat) :
    arraysAt position (batch.split size) =
      batch.arrays[position]?.elim [] fun array => arraySlices array (pieceSizes size batch.rows) := by
  rw [Batch.split_eq, arraysAt_pieces]

/-- The batches that have rows. -/
def withRows (batches : List Batch) : List Batch := batches.filter (·.rows ≠ 0)

theorem conforms_splits (hbatches : ∀ batch ∈ batches, batch.Conforms schema) (size : Nat) :
    ∀ piece ∈ batches.flatMap (·.split size), piece.Conforms schema := by
  intro piece hpiece
  obtain ⟨batch, hbatch, hpiece⟩ := List.mem_flatMap.mp hpiece
  exact (hbatches batch hbatch).of_mem_split hpiece

theorem map_rows_splits (batches : List Batch) (size : Nat) :
    (batches.flatMap (·.split size)).map Batch.rows = batches.flatMap fun batch => pieceSizes size batch.rows := by
  rw [List.map_flatMap]
  exact List.flatMap_congr fun batch _ => batch.map_rows_split size

theorem sum_rows_splits (batches : List Batch) (size : Nat) :
    ((batches.flatMap (·.split size)).map Batch.rows).sum = (batches.map Batch.rows).sum := by
  rw [map_rows_splits, List.flatMap_def, List.sum_flatten, List.map_map]
  exact congrArg List.sum (List.map_congr_left fun batch _ => sum_pieceSizes size batch.rows)

theorem arraysAt_append (position : Nat) (batches more : List Batch) :
    arraysAt position (batches ++ more) = arraysAt position batches ++ arraysAt position more :=
  List.filterMap_append

/-- The slices of a batch with rows hold what the batch holds. -/
theorem sameSlots_split (h : batch.Conforms schema) (hrows : batch.rows ≠ 0) (position size : Nat) :
    SameSlots (arraysAt position (batch.split size)) (arraysAt position [batch]) := by
  rw [arraysAt_split]
  cases harray : batch.arrays[position]? with
  | none =>
    simp only [arraysAt, List.filterMap_cons, harray]
    exact .refl []
  | some array =>
    simp only [arraysAt, List.filterMap_cons, harray]
    have hlength := h.length_eq array (List.mem_of_getElem? harray)
    exact sameSlots_arraySlices (pieceSizes_ne_nil size hrows)
      ((sum_pieceSizes size batch.rows).trans hlength.symm)

theorem split_of_rows_eq_zero (h : batch.rows = 0) (size : Nat) : batch.split size = [] := by
  rw [Batch.split_eq, h, pieceSizes_zero]
  rfl

/-- So a column of all slices holds what it holds in the batches that have rows. -/
theorem sameSlots_splits (hbatches : ∀ batch ∈ batches, batch.Conforms schema) (position size : Nat) :
    SameSlots (arraysAt position (batches.flatMap (·.split size))) (arraysAt position (withRows batches)) := by
  induction batches with
  | nil => exact .refl []
  | cons batch batches ih =>
    obtain ⟨hbatch, hrest⟩ := List.forall_mem_cons.mp hbatches
    rw [List.flatMap_cons, arraysAt_append]
    by_cases hrows : batch.rows = 0
    · have hkept : withRows (batch :: batches) = withRows batches :=
        List.filter_cons_of_neg (by simpa using hrows)
      rw [split_of_rows_eq_zero hrows, hkept]
      exact ih hrest
    · have hkept : withRows (batch :: batches) = [batch] ++ withRows batches :=
        List.filter_cons_of_pos (by simpa using hrows)
      rw [hkept, arraysAt_append]
      exact (sameSlots_split hbatch hrows position size).append (ih hrest)

theorem Loadable.slice (h : Loadable settings schema batch) (start n : Nat) :
    Loadable settings schema (batch.slice start n) where
  conforms := h.conforms.slice start n
  complete {position field array columnType} hfield harray hscannable := by
    rw [Batch.slice, List.getElem?_map] at harray
    obtain ⟨whole, hwhole, rfl⟩ := Option.map_eq_some_iff.mp harray
    exact (h.complete hfield hwhole hscannable).slice start n

/-- The slices of a batch with rows can be loaded exactly if the batch can. -/
theorem loadable_split_iff (h : batch.Conforms schema) (hrows : batch.rows ≠ 0) (size : Nat) :
    (∀ piece ∈ batch.split size, Loadable settings schema piece) ↔ Loadable settings schema batch := by
  constructor
  · intro hpieces
    refine ⟨h, fun {position field array columnType} hfield harray hscannable => ?_⟩
    have hlength := h.length_eq array (List.mem_of_getElem? harray)
    refine complete_of_slices (pieceSizes_ne_nil size hrows)
      ((sum_pieceSizes size batch.rows).trans hlength.symm) fun slice hslice => ?_
    have hmem : slice ∈ arraysAt position (batch.split size) := by
      rw [arraysAt_split, harray]
      exact hslice
    obtain ⟨piece, hpiece, hpieceArray⟩ := List.mem_filterMap.mp hmem
    exact (hpieces piece hpiece).complete hfield hpieceArray hscannable
  · intro hloadable piece hpiece
    obtain ⟨start, n, rfl⟩ := Batch.exists_slice_of_mem hpiece
    exact hloadable.slice start n

/-! ## Files of batches -/

/-- A file of batches is loaded exactly if its batches that have rows can be loaded. -/
theorem exists_ofBatchFile_iff (hfile : ∀ batch ∈ file.batches, batch.Conforms file.schema) :
    (∃ t, ofBatchFile file settings = .ok t) ↔
      ∀ batch ∈ file.batches, batch.rows ≠ 0 → Loadable settings file.schema batch := by
  rw [ofBatchFile, exists_ofBatches_iff (conforms_splits hfile settings.batchSize)]
  constructor
  · intro h batch hbatch hrows
    exact (loadable_split_iff (hfile batch hbatch) hrows _).mp fun piece hpiece =>
      h piece (List.mem_flatMap.mpr ⟨batch, hbatch, hpiece⟩)
  · intro h piece hpiece
    obtain ⟨batch, hbatch, hpiece⟩ := List.mem_flatMap.mp hpiece
    by_cases hrows : batch.rows = 0
    · rw [split_of_rows_eq_zero hrows] at hpiece
      cases hpiece
    · exact (loadable_split_iff (hfile batch hbatch) hrows _).mpr (h batch hbatch hrows) piece hpiece

/-- The columns of two loads of a file are the same up to the cut into chunks. -/
theorem joined_columns_eq (hfile : ∀ batch ∈ file.batches, batch.Conforms file.schema)
    (ht : ofBatchFile file settings = .ok t) (hother : ofBatchFile file other = .ok otherTable)
    (hsettings : settings.dictionaryStrings = other.dictionaryStrings) :
    t.columns.map MemoryColumn.joined = otherTable.columns.map MemoryColumn.joined := by
  have hload := loadedFrom_of_ofBatches ht
  have hotherLoad := loadedFrom_of_ofBatches hother
  apply List.ext_getElem?
  intro position
  rw [List.getElem?_map, List.getElem?_map]
  cases hfield : file.schema[position]? with
  | none =>
    have hlength := List.getElem?_eq_none_iff.mp hfield
    rw [List.getElem?_eq_none (hload.length_eq.trans_le hlength),
      List.getElem?_eq_none (hotherLoad.length_eq.trans_le hlength)]
  | some field =>
    obtain ⟨loader, hloader, htook⟩ := hload.column hfield
    obtain ⟨otherLoader, hotherLoader, hotherTook⟩ := hotherLoad.column hfield
    have htype : loader.toData.columnType? = otherLoader.toData.columnType? := by
      rw [htook.columnType?_eq, hotherTook.columnType?_eq, ofType_congr hsettings]
    have hsame := (sameSlots_splits hfile position settings.batchSize).trans
      (sameSlots_splits hfile position other.batchSize).symm
    rw [hloader, hotherLoader, Option.map_some, Option.map_some, MemoryColumn.joined, MemoryColumn.joined,
      htook.joined_eq hotherTook htype hsame]

/-- The column is that of the field. It holds what the batches hold that have rows, each cut into as many full
    chunks as fit and one with the rows that remain. -/
structure HoldsSlices (settings : LoadSettings) (field : Field) (position : Nat) (batches : List Batch)
    (column : MemoryColumn) : Prop where
  name_eq : column.name = field.name
  columnType_iff : ∀ columnType, column.columnType? = some columnType ↔ Scannable settings field.type columnType
  chunkSizes_eq : column.columnType?.isSome →
    column.chunkSizes = batches.flatMap fun batch => pieceSizes settings.batchSize batch.rows
  /-- No chunk is empty or larger than asked for. -/
  bounds : column.columnType?.isSome → ∀ n ∈ column.chunkSizes, 0 < n ∧ n ≤ max settings.batchSize 1
  /-- Put together, the chunks are those of the batches, as long as there are keys for all texts. -/
  holds : (Scannable settings field.type .dictionary →
      ((arraysAt position (withRows batches)).flatMap vocabulary).toFinset.card ≤ UInt32.size) →
    ∃ whole, HoldsBatches settings field position (withRows batches) whole ∧ column.joined = whole.joined

/-- A table that is loaded from a file has a column for each field, which holds the slices of the batches. -/
theorem holdsSlices_of_ofBatchFile (hfile : ∀ batch ∈ file.batches, batch.Conforms file.schema)
    (ht : ofBatchFile file settings = .ok t) {position : Nat} {field : Field}
    (hfield : file.schema[position]? = some field) :
    ∃ column, t.columns[position]? = some column ∧ HoldsSlices settings field position file.batches column := by
  obtain ⟨loader, hloader, htook⟩ := (loadedFrom_of_ofBatches ht).column hfield
  have hsizes (hsome : loader.toData.columnType?.isSome) : loader.toData.chunkSizes =
      file.batches.flatMap fun batch => pieceSizes settings.batchSize batch.rows := by
    rw [← map_rows_splits, ← lengths_arraysAt (conforms_splits hfile settings.batchSize) hfield]
    exact htook.chunkSizes_eq hsome
  refine ⟨_, hloader, rfl, fun columnType => ?_, hsizes, fun hsome n hn => ?_, fun htexts => ?_⟩
  · rw [← scannable_iff, ← htook.columnType?_eq]
    rfl
  · rw [MemoryColumn.chunkSizes, hsizes hsome] at hn
    obtain ⟨batch, -, hn⟩ := List.mem_flatMap.mp hn
    exact bounds_of_mem_pieceSizes hn
  -- the batches that have rows are loaded as well, each as one chunk
  · have hloadable := (exists_ofBatchFile_iff hfile).mp ⟨t, ht⟩
    have hwith : ∀ batch ∈ withRows file.batches, Loadable settings file.schema batch := by
      intro batch hbatch
      obtain ⟨hbatch, hrows⟩ := List.mem_filter.mp hbatch
      exact hloadable batch hbatch (of_decide_eq_true hrows)
    obtain ⟨whole, hwhole⟩ := exists_ofBatches hwith
    obtain ⟨wholeLoader, -, hwholeTook⟩ := (loadedFrom_of_ofBatches hwhole).column hfield
    have htype : loader.toData.columnType? = wholeLoader.toData.columnType? := by
      rw [htook.columnType?_eq, hwholeTook.columnType?_eq]
    refine ⟨⟨field.name, wholeLoader.toData⟩, ?_, ?_⟩
    · exact holdsBatches_of_took (fun batch hbatch => (hwith batch hbatch).conforms) hfield hwholeTook
        (hwholeTook.addressable_of_scannable htexts)
    · rw [MemoryColumn.joined, MemoryColumn.joined,
        htook.joined_eq hwholeTook htype (sameSlots_splits hfile position settings.batchSize)]

/-- A file of batches is loaded at every batch size or at none: exactly if nothing is missing in the batches that
    have rows. The tables have the same columns, with the same values or the same keys and dictionaries, except for
    the cut into chunks: each batch that has rows becomes as many full chunks as fit, and one with the rows that
    remain. These columns are those of the fields and hold what the batches hold. -/
theorem loads_alike_at_any_size (file : BatchFile) (hfile : ∀ batch ∈ file.batches, batch.Conforms file.schema)
    (dictionaryStrings : Bool) (size other : Nat) :
    ((∃ t, ofBatchFile file ⟨dictionaryStrings, size⟩ = .ok t) ↔
        ∃ t, ofBatchFile file ⟨dictionaryStrings, other⟩ = .ok t) ∧
      ((∃ t, ofBatchFile file ⟨dictionaryStrings, size⟩ = .ok t) ↔
        ∀ batch ∈ file.batches, batch.rows ≠ 0 → Loadable ⟨dictionaryStrings, size⟩ file.schema batch) ∧
      ∀ {t : MemoryTable}, ofBatchFile file ⟨dictionaryStrings, size⟩ = .ok t →
        (∀ {otherTable : MemoryTable}, ofBatchFile file ⟨dictionaryStrings, other⟩ = .ok otherTable →
          t.rows = otherTable.rows ∧
            t.columns.map MemoryColumn.joined = otherTable.columns.map MemoryColumn.joined) ∧
        t.rows = (file.batches.map Batch.rows).sum ∧ t.columns.length = file.schema.length ∧
        ∀ {position : Nat} {field : Field}, file.schema[position]? = some field →
          ∃ column, t.columns[position]? = some column ∧
            HoldsSlices ⟨dictionaryStrings, size⟩ field position file.batches column := by
  have hrows {settings : LoadSettings} {t : MemoryTable} (ht : ofBatchFile file settings = .ok t) :
      t.rows = (file.batches.map Batch.rows).sum :=
    (loadedFrom_of_ofBatches ht).rows_eq.trans (sum_rows_splits file.batches settings.batchSize)
  refine ⟨?_, exists_ofBatchFile_iff hfile, fun {t} ht => ⟨fun {otherTable} hother => ⟨?_, ?_⟩, hrows ht,
    (loadedFrom_of_ofBatches ht).length_eq, holdsSlices_of_ofBatchFile hfile ht⟩⟩
  · rw [exists_ofBatchFile_iff hfile, exists_ofBatchFile_iff hfile]
    exact ⟨fun h batch hbatch hrows => (h batch hbatch hrows).of_settings _,
      fun h batch hbatch hrows => (h batch hbatch hrows).of_settings _⟩
  · rw [hrows ht, hrows hother]
  · exact joined_columns_eq hfile ht hother rfl

/-- A batch without rows leaves nothing, not even its dictionary, which lacks a text. -/
theorem loads_two_batches_at_two_sizes :
    let schema : List Field :=
      [⟨"n", .leaf (.integer .int32), false⟩, ⟨"d", .leaf (.dictionary .int32 .utf8), true⟩]
    let batch (numbers keys : List (Option Int)) (texts : List (Option String)) : Batch :=
      ⟨[.leaf (.integer .int32 numbers), .leaf (.dictionary .int32 .utf8 keys texts)]⟩
    let file : BatchFile := ⟨schema,
      [batch [some 1, some 2, some 3] [some 1, some 0, some 1] [some "b", some "a"], batch [] [] [none],
        batch [some 4, some 5] [some 0, some 0] [some "a"]]⟩
    let t : MemoryTable :=
      ⟨[⟨"n", .int32 [[1, 2], [3], [4, 5]]⟩, ⟨"d", .dictionary [[1, 0], [1], [1, 1]] ⟨["b", "a"]⟩⟩], 5⟩
    let other : MemoryTable :=
      ⟨[⟨"n", .int32 [[1], [2], [3], [4], [5]]⟩, ⟨"d", .dictionary [[1], [0], [1], [1], [1]] ⟨["b", "a"]⟩⟩], 5⟩
    (∀ batch ∈ file.batches, batch.Conforms file.schema) ∧
      ofBatchFile file ⟨false, 2⟩ = .ok t ∧ ofBatchFile file ⟨false, 0⟩ = .ok other ∧
      t.columns.map MemoryColumn.joined = other.columns.map MemoryColumn.joined ∧
      ∃ column, t.columns[1]? = some column ∧
        HoldsSlices ⟨false, 2⟩ ⟨"d", .leaf (.dictionary .int32 .utf8), true⟩ 1 file.batches column := by
  intro schema batch file t other
  have hfile : ∀ batch ∈ file.batches, batch.Conforms file.schema := by
    have htypes : ∀ batch ∈ file.batches, batch.arrays.map ColumnArray.type = schema.map Field.type := by
      simp [file, batch, schema, ColumnArray.type, LeafArray.type]
    have hlengths : ∀ batch ∈ file.batches, ∀ array ∈ batch.arrays, array.length = batch.rows := by
      simp [file, batch, Batch.rows, ColumnArray.length, LeafArray.length]
    exact fun batch hbatch => ⟨htypes batch hbatch, hlengths batch hbatch⟩
  have ht : ofBatchFile file ⟨false, 2⟩ = .ok t := by cbv
  have hother : ofBatchFile file ⟨false, 0⟩ = .ok other := by cbv
  obtain ⟨-, -, halike⟩ := loads_alike_at_any_size file hfile false 2 0
  obtain ⟨hsame, -, -, hcolumns⟩ := halike ht
  exact ⟨hfile, ht, hother, (hsame hother).2, hcolumns rfl⟩

end MemoryTable

end Pushdown
