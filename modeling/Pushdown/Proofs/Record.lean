-- SUMMARY: What the slots of an array hold, batches that follow a schema, and a slice of them.
import Mathlib
import Pushdown.Parquet.File

/-!
# Slots of batches

Whatever the layout of an array, its slots hold numbers or texts, or nothing. A batch follows a schema when
its arrays have the types of the fields and all of them, down to the parts of structures, have the same
number of slots. A slice of a batch has the slots of a stretch of its rows.
-/

namespace Pushdown.Record

/-! ## Slots -/

/-- There is something to store for a row: a structure has parts. -/
def DataType.HasLeaf : DataType → Prop
  | .struct fields => fields ≠ []
  | _ => True

namespace LeafArray

def floats : LeafArray → List (Option Binary64)
  | .float64 values => values
  | _ => []

def integers : LeafArray → List (Option Int32)
  | .integer _ values => values.map fun value => value.map Int32.ofInt
  | _ => []

/-- The texts of the slots, in a dictionary array those that the keys stand for. -/
def texts : LeafArray → List (Option String)
  | .text _ values => values
  | .dictionary _ _ keys values => keys.map (Parquet.textOf? values)
  | _ => []

variable {α : Type}

/-- Slots are read one by one: none are made up, and a slice reads as the slice of the whole. -/
structure Slotwise (read : LeafArray → List α) : Prop where
  slice_eq : ∀ array start n, read (array.slice start n) = ((read array).drop start).take n
  length_le : ∀ array, (read array).length ≤ array.length

theorem slotwise_floats : Slotwise floats where
  slice_eq array start n := by
    cases array with
    | float64 => rfl
    | integer | text | binary | dictionary | plain => simp [floats, slice]
  length_le array := by cases array <;> simp [floats, length]

theorem slotwise_integers : Slotwise integers where
  slice_eq array start n := by
    cases array with
    | integer => simp [integers, slice, List.map_take, List.map_drop]
    | float64 | text | binary | dictionary | plain => simp [integers, slice]
  length_le array := by cases array <;> simp [integers, length]

theorem slotwise_texts : Slotwise texts where
  slice_eq array start n := by
    cases array with
    | text => rfl
    | dictionary => simp [texts, slice, List.map_take, List.map_drop]
    | float64 | integer | binary | plain => simp [texts, slice]
  length_le array := by cases array <;> simp [texts, length]

theorem type_slice (array : LeafArray) (start n : Nat) : (array.slice start n).type = array.type := by
  cases array <;> rfl

theorem length_slice (array : LeafArray) (start n : Nat) :
    (array.slice start n).length = min n (array.length - start) := by
  cases array <;> simp [slice, length]

end LeafArray

namespace ColumnArray

variable {α : Type}

/-- The reading of an array that is a leaf. Any other has no slots that are read. -/
def slots (read : LeafArray → List α) : ColumnArray → List α
  | .leaf array => read array
  | _ => []

/-- Every leaf of the array has `n` slots. -/
def Fills (n : Nat) : ColumnArray → Prop
  | .leaf array => array.length = n
  | .list _ _ present => present.length = n
  | .struct fields => ∀ field ∈ fields, field.2.length = n

/-- An array of a type with leaves has as many slots as each of them. -/
theorem length_of_fills {array : ColumnArray} {n : Nat} (h : array.Fills n)
    (hleaf : array.type.HasLeaf) : array.length = n := by
  cases array with
  | leaf array => exact h
  | list itemName item present => exact h
  | struct fields =>
    cases fields with
    | nil => cases hleaf rfl
    | cons field fields => exact h field List.mem_cons_self

theorem slots_slice {read : LeafArray → List α} (hread : LeafArray.Slotwise read) (array : ColumnArray)
    (start n : Nat) : (array.slice start n).slots read = ((array.slots read).drop start).take n := by
  cases array with
  | leaf array => exact hread.slice_eq array start n
  | list | struct => simp [slots, slice]

theorem length_slice (array : ColumnArray) (start n : Nat) :
    (array.slice start n).length = min n (array.length - start) := by
  cases array with
  | leaf array => exact array.length_slice start n
  | list => simp [slice, length]
  | struct fields =>
    cases fields with
    | nil => simp [slice, length]
    | cons field fields => simp [slice, length, LeafArray.length_slice]

theorem length_slots_le {read : LeafArray → List α} (hread : LeafArray.Slotwise read) {array : ColumnArray}
    {n : Nat} (h : array.Fills n) : (array.slots read).length ≤ n := by
  cases array with
  | leaf array => exact h ▸ hread.length_le array
  | list | struct => exact Nat.zero_le _

theorem type_slice (array : ColumnArray) (start n : Nat) : (array.slice start n).type = array.type := by
  cases array with
  | leaf array => exact congrArg DataType.leaf (array.type_slice start n)
  | list => rfl
  | struct fields => simp [slice, type, LeafArray.type_slice, Function.comp_def]

theorem fills_slice {array : ColumnArray} {size : Nat} (h : array.Fills size) (start n : Nat) :
    (array.slice start n).Fills (min n (size - start)) := by
  cases array with
  | leaf array =>
    show (array.slice start n).length = _
    rw [array.length_slice, show array.length = size from h]
  | list itemName item present =>
    show ((present.drop start).take n).length = _
    rw [List.length_take, List.length_drop, show present.length = size from h]
  | struct fields =>
    intro field hfield
    obtain ⟨whole, hwhole, rfl⟩ := List.mem_map.mp hfield
    rw [LeafArray.length_slice, h whole hwhole]

end ColumnArray

/-! ## Batches -/

namespace Batch

variable {α : Type} {read : LeafArray → List α}

/-- The batch has `n` rows of the types that the schema gives. -/
structure Follows (batch : Batch) (schema : List Field) (n : Nat) : Prop where
  types : batch.arrays.map ColumnArray.type = schema.map Field.type
  fills : ∀ array ∈ batch.arrays, array.Fills n

theorem array_of_field {batch : Batch} {schema : List Field}
    (h : batch.arrays.map ColumnArray.type = schema.map Field.type) {position : Nat} {field : Field}
    (hfield : schema[position]? = some field) :
    ∃ array, batch.arrays[position]? = some array ∧ array.type = field.type := by
  have hat := congrArg (·[position]?) h
  simp only [List.getElem?_map, hfield, Option.map_some] at hat
  exact Option.map_eq_some_iff.mp hat

/-- The batch has an array of the type of each field, and the same number of rows in all of them. -/
structure Conforms (batch : Batch) (schema : List Field) : Prop where
  types : batch.arrays.map ColumnArray.type = schema.map Field.type
  length_eq : ∀ array ∈ batch.arrays, array.length = batch.rows

/-- The number of rows shows in every array if there is something to store for a row in each. -/
theorem Follows.conforms {batch : Batch} {schema : List Field} (h : batch.Follows schema batch.rows)
    (hleaf : ∀ field ∈ schema, field.type.HasLeaf) : batch.Conforms schema where
  types := h.types
  length_eq array harray := by
    have htype : array.type ∈ schema.map Field.type := h.types ▸ List.mem_map_of_mem harray
    obtain ⟨field, hfield, htype⟩ := List.mem_map.mp htype
    exact ColumnArray.length_of_fills (h.fills array harray) (htype ▸ hleaf field hfield)

theorem Follows.slice {batch : Batch} {schema : List Field} {size : Nat} (h : batch.Follows schema size)
    (start n : Nat) : (batch.slice start n).Follows schema (min n (size - start)) where
  types := by
    rw [← h.types, Batch.slice, List.map_map]
    exact List.map_congr_left fun array _ => array.type_slice start n
  fills array harray := by
    obtain ⟨whole, hwhole, rfl⟩ := List.mem_map.mp harray
    exact ColumnArray.fills_slice (h.fills whole hwhole) start n

/-- The rows of a batch are counted by its first array. -/
theorem Follows.rows_eq {batch : Batch} {schema : List Field} {n : Nat} (h : batch.Follows schema n)
    (hschema : schema ≠ []) (hleaf : ∀ field ∈ schema, field.type.HasLeaf) : batch.rows = n := by
  obtain ⟨arrays⟩ := batch
  obtain ⟨htypes, hfills⟩ := h
  cases schema with
  | nil => exact absurd rfl hschema
  | cons field schema =>
    obtain ⟨array, arrays, rfl, htype, -⟩ := List.map_eq_cons_iff.mp htypes
    refine ColumnArray.length_of_fills (hfills array List.mem_cons_self) ?_
    rw [htype]
    exact hleaf field List.mem_cons_self

/-- The slots of the column at a position. -/
def slots (read : LeafArray → List α) (position : Nat) (batch : Batch) : List α :=
  match batch.arrays[position]? with
  | some array => array.slots read
  | none => []

theorem slots_slice (hread : LeafArray.Slotwise read) (position : Nat) (batch : Batch) (start n : Nat) :
    (batch.slice start n).slots read position = ((batch.slots read position).drop start).take n := by
  unfold slots slice
  rw [List.getElem?_map]
  cases batch.arrays[position]? with
  | none => simp
  | some array => exact array.slots_slice hread start n

theorem rows_slice (batch : Batch) (start n : Nat) :
    (batch.slice start n).rows = min n (batch.rows - start) := by
  obtain ⟨arrays⟩ := batch
  cases arrays with
  | nil => simp [slice, rows]
  | cons array arrays => exact array.length_slice start n

theorem length_slots_le (hread : LeafArray.Slotwise read) {batch : Batch} {schema : List Field} {n : Nat}
    (h : batch.Follows schema n) (position : Nat) : (batch.slots read position).length ≤ n := by
  unfold slots
  cases harray : batch.arrays[position]? with
  | none => exact Nat.zero_le _
  | some array => exact ColumnArray.length_slots_le hread (h.fills array (List.mem_of_getElem? harray))

end Batch

end Pushdown.Record
