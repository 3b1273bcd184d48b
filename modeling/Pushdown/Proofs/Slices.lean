-- SUMMARY: A batch is split into full slices and a remainder, which together have its rows.
import Pushdown.Proofs.Record

/-!
# Stretches of rows

A list of sizes divides rows into stretches, one after the other. The slices of a batch along such stretches
together have the slots of the batch. Splitting a batch at a size is slicing it along as many full stretches as
fit and one with the rows that remain.
-/

namespace Pushdown.Record

/-- Stretches of rows of the given sizes, one after the other: where each begins, and its size. -/
def stretches (start : Nat) : List Nat → List (Nat × Nat)
  | [] => []
  | n :: sizes => (start, n) :: stretches (start + n) sizes

/-- The sizes of the slices that rows are split into: as many full ones as fit, and what remains. -/
def pieceSizes (size rows : Nat) : List Nat :=
  List.replicate (rows / max size 1) (max size 1) ++ if rows % max size 1 = 0 then [] else [rows % max size 1]

/-- The slices of the batch along stretches of the given sizes. -/
def Batch.pieces (batch : Batch) (sizes : List Nat) : List Batch :=
  (stretches 0 sizes).map fun (start, n) => batch.slice start n

/-! ## Stretches -/

/-- The parts of a list along stretches are a stretch of the list. -/
theorem flatMap_stretches {α : Type} (slots : List α) (start : Nat) (sizes : List Nat) :
    ((stretches start sizes).flatMap fun (start, n) => (slots.drop start).take n) =
      (slots.drop start).take sizes.sum := by
  induction sizes generalizing start with
  | nil => simp [stretches]
  | cons n sizes ih =>
    rw [stretches, List.flatMap_cons, ih, List.sum_cons, List.take_add, List.drop_drop]

theorem bounds_of_mem_stretches {start first n : Nat} {sizes : List Nat} (h : (first, n) ∈ stretches start sizes) :
    start ≤ first ∧ first + n ≤ start + sizes.sum ∧ n ∈ sizes := by
  induction sizes generalizing start with
  | nil => cases h
  | cons size sizes ih =>
    rw [List.sum_cons]
    rcases List.mem_cons.mp h with h | h
    · cases h
      exact ⟨le_rfl, by omega, List.mem_cons_self⟩
    · obtain ⟨hfirst, hend, hmem⟩ := ih h
      exact ⟨by omega, by omega, List.mem_cons_of_mem _ hmem⟩

theorem map_snd_stretches (start : Nat) (sizes : List Nat) : (stretches start sizes).map Prod.snd = sizes := by
  induction sizes generalizing start with
  | nil => rfl
  | cons n sizes ih => rw [stretches, List.map_cons, ih]

@[simp] theorem pieceSizes_zero (size : Nat) : pieceSizes size 0 = [] := by simp [pieceSizes]

/-- The first slice is a full one, unless fewer rows are left. -/
theorem pieceSizes_of_ne_zero (size : Nat) {rows : Nat} (h : rows ≠ 0) :
    pieceSizes size rows = min (max size 1) rows :: pieceSizes size (rows - max size 1) := by
  have hsize : 0 < max size 1 := by omega
  unfold pieceSizes
  generalize max size 1 = full at hsize ⊢
  rcases Nat.lt_or_ge rows full with hlt | hge
  · rw [Nat.div_eq_of_lt hlt, Nat.mod_eq_of_lt hlt, Nat.sub_eq_zero_of_le hlt.le, Nat.min_eq_right hlt.le]
    simp [h]
  · rw [Nat.div_eq_sub_div hsize hge, List.replicate_succ, Nat.mod_eq_sub_mod hge, Nat.min_eq_left hge]
    rfl

theorem pieceSizes_ne_nil (size : Nat) {rows : Nat} (h : rows ≠ 0) : pieceSizes size rows ≠ [] := by
  rw [pieceSizes_of_ne_zero size h]
  exact List.cons_ne_nil _ _

theorem sum_pieceSizes (size rows : Nat) : (pieceSizes size rows).sum = rows := by
  unfold pieceSizes
  have hdivMod := Nat.div_add_mod' rows (max size 1)
  split <;> simp <;> omega

/-- A slice has rows, and no more than the size. -/
theorem bounds_of_mem_pieceSizes {size rows n : Nat} (h : n ∈ pieceSizes size rows) : 0 < n ∧ n ≤ max size 1 := by
  have hsize : 0 < max size 1 := by omega
  rcases List.mem_append.mp h with h | h
  · obtain ⟨-, rfl⟩ := List.mem_replicate.mp h
    exact ⟨hsize, le_rfl⟩
  · have hmod := Nat.mod_lt rows hsize
    split at h
    · cases h
    · obtain rfl := List.mem_singleton.mp h
      exact ⟨by omega, hmod.le⟩

example : pieceSizes 4 10 = [4, 4, 2] := by decide

/-- A part of a part of a list is a part of the list. -/
theorem take_drop_take_drop {α : Type} (slots : List α) {start n first m : Nat} (h : first + m ≤ n) :
    (((slots.drop start).take n).drop first).take m = (slots.drop (start + first)).take m := by
  rw [List.drop_take, List.take_take, List.drop_drop, Nat.min_eq_left (by omega)]

theorem LeafArray.slice_slice (array : LeafArray) {start n first m : Nat} (h : first + m ≤ n) :
    (array.slice start n).slice first m = array.slice (start + first) m := by
  cases array <;> simp only [slice, take_drop_take_drop _ h]

theorem ColumnArray.slice_slice (array : ColumnArray) {start n first m : Nat} (h : first + m ≤ n) :
    (array.slice start n).slice first m = array.slice (start + first) m := by
  cases array with
  | leaf array => exact congrArg ColumnArray.leaf (array.slice_slice h)
  | list => simp only [slice, take_drop_take_drop _ h]
  | struct fields => simp [slice, LeafArray.slice_slice _ h]

/-! ## Slices of a batch -/

namespace Batch

variable {batch : Batch} {schema : List Field}

theorem slices_eq (batch : Batch) (size start left : Nat) :
    batch.slices size start left =
      (stretches start (pieceSizes (size + 1) left)).map fun (start, n) => batch.slice start n := by
  fun_induction slices batch size start left with
  | case1 start => rw [pieceSizes_zero]; rfl
  | case2 start left hleft ih =>
    have hsize : max (size + 1) 1 = size + 1 := by omega
    rw [pieceSizes_of_ne_zero _ hleft, hsize, stretches, List.map_cons, ih]
    congr 1
    rcases Nat.lt_or_ge left (size + 1) with hlt | hge
    · rw [Nat.sub_eq_zero_of_le hlt.le, pieceSizes_zero]
      rfl
    · rw [Nat.min_eq_left hge]

theorem split_eq (batch : Batch) (size : Nat) : batch.split size = batch.pieces (pieceSizes size batch.rows) := by
  have hsize : pieceSizes (size - 1 + 1) batch.rows = pieceSizes size batch.rows := by
    rw [pieceSizes, pieceSizes, show max (size - 1 + 1) 1 = max size 1 by omega]
  rw [split, slices_eq, hsize, pieces]

theorem map_rows_pieces {sizes : List Nat} (h : sizes.sum ≤ batch.rows) : (batch.pieces sizes).map rows = sizes := by
  rw [pieces, List.map_map]
  refine (List.map_congr_left ?_).trans (map_snd_stretches 0 sizes)
  rintro ⟨start, n⟩ hmem
  obtain ⟨-, hend, -⟩ := bounds_of_mem_stretches hmem
  show (batch.slice start n).rows = n
  rw [rows_slice]
  omega

theorem exists_slice_of_mem_pieces {sizes : List Nat} {piece : Batch} (h : piece ∈ batch.pieces sizes) :
    ∃ start n, piece = batch.slice start n := by
  obtain ⟨⟨start, n⟩, -, rfl⟩ := List.mem_map.mp h
  exact ⟨start, n, rfl⟩

/-- Slices that reach to the last row together have the slots of the batch. -/
theorem slots_pieces {α : Type} {read : LeafArray → List α} (hread : LeafArray.Slotwise read) {position : Nat}
    {sizes : List Nat} (h : (batch.slots read position).length ≤ sizes.sum) :
    (batch.pieces sizes).flatMap (slots read position) = batch.slots read position := by
  simp only [pieces, List.flatMap_map, slots_slice hread]
  rw [flatMap_stretches (batch.slots read position), List.drop_zero, List.take_of_length_le h]

theorem slice_slice (batch : Batch) {start n first m : Nat} (h : first + m ≤ n) :
    (batch.slice start n).slice first m = batch.slice (start + first) m := by
  simp [slice, ColumnArray.slice_slice _ h]

theorem map_rows_split (batch : Batch) (size : Nat) : (batch.split size).map rows = pieceSizes size batch.rows := by
  rw [split_eq, map_rows_pieces (sum_pieceSizes size batch.rows).le]

/-- Splitting a batch keeps its rows. -/
theorem sum_rows_split (batch : Batch) (size : Nat) : ((batch.split size).map rows).sum = batch.rows := by
  rw [map_rows_split, sum_pieceSizes]

/-- The slices that a batch is split into have its slots. -/
theorem slots_split {α : Type} {read : LeafArray → List α} (hread : LeafArray.Slotwise read) {position : Nat}
    (h : (batch.slots read position).length ≤ batch.rows) (size : Nat) :
    (batch.split size).flatMap (slots read position) = batch.slots read position := by
  rw [split_eq, slots_pieces hread (h.trans (sum_pieceSizes size batch.rows).ge)]

theorem exists_slice_of_mem {size : Nat} {piece : Batch} (h : piece ∈ batch.split size) :
    ∃ start n, piece = batch.slice start n :=
  exists_slice_of_mem_pieces (split_eq batch size ▸ h)

theorem Conforms.slice (h : batch.Conforms schema) (start n : Nat) : (batch.slice start n).Conforms schema where
  types := by
    rw [← h.types, Batch.slice, List.map_map]
    exact List.map_congr_left fun array _ => array.type_slice start n
  length_eq array harray := by
    obtain ⟨whole, hwhole, rfl⟩ := List.mem_map.mp harray
    rw [ColumnArray.length_slice, rows_slice, h.length_eq whole hwhole]

theorem Conforms.of_mem_split (h : batch.Conforms schema) {size : Nat} {piece : Batch}
    (hpiece : piece ∈ batch.split size) : piece.Conforms schema := by
  obtain ⟨start, n, rfl⟩ := exists_slice_of_mem hpiece
  exact h.slice start n

end Batch

end Pushdown.Record
