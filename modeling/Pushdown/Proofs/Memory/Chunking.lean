-- SUMMARY: Where a table that was built row by row is cut into chunks.
import Pushdown.Proofs.Memory.Building
import Pushdown.Proofs.Segments.Locating

/-!
# Cutting chunks

A builder cuts all columns at once, when the current chunk is full and when it is asked to. It counts the rows in
the current chunk once for all columns, and each column buffer keeps as many values back. So the columns have the
same chunks, and where these end is decided by the calls alone: `Cuts` says it of the rows that lie in closed
chunks, and that no cut was asked for after any of the others. One call keeps this, since rows are only ever moved
from the current chunk to a closed one all together.
-/

namespace Pushdown

/-! ## One column -/

namespace ChunkBuffer

variable {α : Type} {b : ChunkBuffer α} {sizes : List Nat} {fill : Nat}

/-- The buffer has closed chunks of the sizes, and so many values in the current one. -/
structure Closed (sizes : List Nat) (fill : Nat) (b : ChunkBuffer α) : Prop where
  sizes_eq : b.closed.toList.map List.length = sizes
  fill_eq : b.current.size = fill

theorem closed_new : ({} : ChunkBuffer α).Closed [] 0 := ⟨rfl, rfl⟩

theorem Closed.push (h : b.Closed sizes fill) (value : α) : (b.push value).Closed sizes (fill + 1) :=
  ⟨h.sizes_eq, by rw [ChunkBuffer.push, Array.size_push, h.fill_eq]⟩

theorem Closed.cut (h : b.Closed sizes fill) (hfill : 0 < fill) : b.cut.Closed (sizes ++ [fill]) 0 := by
  have hcurrent : ¬ b.current.isEmpty = true := by
    rw [Array.isEmpty_iff_size_eq_zero, h.fill_eq]
    exact Nat.ne_of_gt hfill
  rw [ChunkBuffer.cut, if_neg hcurrent]
  exact ⟨by simp [h.sizes_eq, h.fill_eq], rfl⟩

theorem Closed.toChunks (h : b.Closed sizes 0) : b.toChunks.map List.length = sizes := by
  have hcurrent : b.current.isEmpty = true := by
    rw [Array.isEmpty_iff_size_eq_zero, h.fill_eq]
  rw [ChunkBuffer.toChunks, ChunkBuffer.cut, if_pos hcurrent]
  exact h.sizes_eq

end ChunkBuffer

namespace ColumnBuffer

variable {b : ColumnBuffer} {sizes : List Nat} {fill : Nat}

def Closed (sizes : List Nat) (fill : Nat) : ColumnBuffer → Prop
  | .float64 chunks => chunks.Closed sizes fill
  | .int32 chunks => chunks.Closed sizes fill
  | .utf8 chunks => chunks.Closed sizes fill
  | .dictionary keys _ => keys.Closed sizes fill

theorem closed_new (columnType : ColumnType) : (new columnType).Closed [] 0 := by
  cases columnType <;> exact ChunkBuffer.closed_new

/-- A cell that fits the column goes into the current chunk. -/
theorem Closed.push (h : b.Closed sizes fill) {cells : List Cell} {columnType : ColumnType}
    (hfilled : b.Filled cells columnType) {cell : Cell} (hfits : cell.fits columnType = true) :
    (b.push cell).Closed sizes (fill + 1) := by
  cases hfilled with
  | float64 =>
    cases cell with
    | float64 value => exact ChunkBuffer.Closed.push h value
    | int32 | utf8 => cases hfits
  | int32 =>
    cases cell with
    | int32 value => exact ChunkBuffer.Closed.push h value
    | float64 | utf8 => cases hfits
  | utf8 =>
    cases cell with
    | utf8 value => exact ChunkBuffer.Closed.push h value
    | float64 | int32 => cases hfits
  | dictionary =>
    cases cell with
    | utf8 value => exact ChunkBuffer.Closed.push h _
    | float64 | int32 => cases hfits

theorem Closed.cut (h : b.Closed sizes fill) (hfill : 0 < fill) : b.cut.Closed (sizes ++ [fill]) 0 := by
  cases b <;> exact ChunkBuffer.Closed.cut h hfill

theorem Closed.chunkSizes_eq (h : b.Closed sizes 0) : b.toData.chunkSizes = sizes := by
  cases b <;> exact ChunkBuffer.Closed.toChunks h

end ColumnBuffer

/-! ## Where chunks end -/

variable {sizes : List Nat} {limit rows fill row n : Nat} {place : Location} {asked asked' : Nat → Prop}

/-- The rows so far lie in closed chunks of the sizes, but for some that follow them. A chunk ends where a cut
    was asked for and where it is full. -/
structure Cuts (limit : Nat) (asked : Nat → Prop) (rows : Nat) (sizes : List Nat) (fill : Nat) : Prop where
  rows_eq : sizes.sum + fill = rows
  fill_lt : fill < limit
  bounds : ∀ n ∈ sizes, 0 < n ∧ n ≤ limit
  ends_iff : ∀ {row place}, LiesAt sizes row place →
    (sizes[place.segment]? = some (place.offset + 1) ↔ asked row ∨ place.offset + 1 = limit)
  not_asked : ∀ {row}, sizes.sum ≤ row → ¬ asked row

/-- A row lies in one of the first chunks or in the last one. -/
theorem LiesAt.of_concat (h : LiesAt (sizes ++ [n]) row place) :
    LiesAt sizes row place ∧ (sizes ++ [n])[place.segment]? = sizes[place.segment]? ∨
      (sizes ++ [n])[place.segment]? = some n ∧ sizes.sum + place.offset = row ∧ place.offset < n := by
  obtain ⟨⟨m, hm, hoffset⟩, hrow⟩ := h
  rcases Nat.lt_or_ge place.segment sizes.length with hlt | hge
  · have hget : (sizes ++ [n])[place.segment]? = sizes[place.segment]? := List.getElem?_append_left hlt
    refine .inl ⟨⟨⟨m, hget ▸ hm, hoffset⟩, ?_⟩, hget⟩
    rwa [rowsBefore, List.take_append_of_le_length hlt.le] at hrow
  · have hlast : place.segment = sizes.length := by
      obtain ⟨hlt, -⟩ := List.getElem?_eq_some_iff.mp hm
      simp at hlt
      omega
    rw [hlast, List.getElem?_concat_length] at hm ⊢
    obtain rfl := Option.some.inj hm
    rw [hlast, rowsBefore, List.take_left' rfl] at hrow
    exact .inr ⟨rfl, hrow, hoffset⟩

/-- The last row of all chunks is the last one of its chunk. -/
theorem LiesAt.ends_of_sum (h : LiesAt sizes row place) (hlast : row + 1 = sizes.sum) :
    sizes[place.segment]? = some (place.offset + 1) := by
  obtain ⟨⟨n, hn, hoffset⟩, hrow⟩ := h
  have hend := rowsBefore_add_le hn
  rw [hn]
  exact congrArg some (by omega)

namespace Cuts

theorem new (hlimit : 0 < limit) (hasked : ∀ row, ¬ asked row) : Cuts limit asked 0 [] 0 where
  rows_eq := rfl
  fill_lt := hlimit
  bounds := by simp
  ends_iff h := absurd h.lt_sum (Nat.not_lt_zero _)
  not_asked _ := hasked _

/-- A row that does not fill the current chunk. -/
theorem grow (h : Cuts limit asked rows sizes fill) (hfill : fill + 1 < limit) :
    Cuts limit asked (rows + 1) sizes (fill + 1) where
  rows_eq := by rw [← Nat.add_assoc, h.rows_eq]
  fill_lt := hfill
  bounds := h.bounds
  ends_iff := h.ends_iff
  not_asked := h.not_asked

theorem congr (h : Cuts limit asked rows sizes fill) (hasked : ∀ row, asked' row ↔ asked row) :
    Cuts limit asked' rows sizes fill where
  rows_eq := h.rows_eq
  fill_lt := h.fill_lt
  bounds := h.bounds
  ends_iff hplace := by rw [hasked, h.ends_iff hplace]
  not_asked hrow := by
    rw [hasked]
    exact h.not_asked hrow

/-- The current chunk is closed, with so many rows in it. -/
theorem close (h : Cuts limit asked rows sizes fill) (hn : 0 < n) (hle : n ≤ limit)
    (hclosed : ∀ {row}, row < sizes.sum → (asked' row ↔ asked row))
    (hlast : ∀ {offset}, offset < n → (offset + 1 = n ↔ asked' (sizes.sum + offset) ∨ offset + 1 = limit))
    (hafter : ∀ {row}, sizes.sum + n ≤ row → ¬ asked' row) :
    Cuts limit asked' (sizes.sum + n) (sizes ++ [n]) 0 where
  rows_eq := by simp
  fill_lt := hn.trans_le hle
  bounds := List.forall_mem_append.mpr ⟨h.bounds, List.forall_mem_singleton.mpr ⟨hn, hle⟩⟩
  ends_iff hplace := by
    rcases hplace.of_concat with ⟨hbefore, hget⟩ | ⟨hget, rfl, hoffset⟩
    · rw [hget, h.ends_iff hbefore, hclosed hbefore.lt_sum]
    · rw [hget, ← hlast hoffset, Option.some_inj, eq_comm]
  not_asked hrow := hafter (by simpa using hrow)

/-- A row that fills the current chunk. -/
theorem fillUp (h : Cuts limit asked rows sizes fill) (hfill : fill + 1 = limit) :
    Cuts limit asked (rows + 1) (sizes ++ [fill + 1]) 0 := by
  have hclose := h.close (n := fill + 1) (Nat.succ_pos fill) hfill.le (fun _ => Iff.rfl)
    (fun {offset} _ => by rw [hfill, or_iff_right (h.not_asked (Nat.le_add_right _ _))])
    (fun hrow => h.not_asked ((Nat.le_add_right _ _).trans hrow))
  rwa [← Nat.add_assoc, h.rows_eq] at hclose

/-- A cut that is asked for when there are rows in the current chunk. -/
theorem cut (h : Cuts limit asked rows sizes fill) (hfill : 0 < fill)
    (hasked : ∀ row, asked' row ↔ asked row ∨ rows = row + 1) : Cuts limit asked' rows (sizes ++ [fill]) 0 := by
  have hrows := h.rows_eq
  have hlt := h.fill_lt
  have hclosed {row} (hrow : row < sizes.sum) : asked' row ↔ asked row := by
    rw [hasked, or_iff_left]
    omega
  have hlast {offset} (hoffset : offset < fill) :
      offset + 1 = fill ↔ asked' (sizes.sum + offset) ∨ offset + 1 = limit := by
    rw [hasked, or_iff_right (h.not_asked (Nat.le_add_right _ _))]
    omega
  have hafter {row} (hrow : sizes.sum + fill ≤ row) : ¬ asked' row := by
    rw [hasked, or_iff_right (h.not_asked ((Nat.le_add_right _ _).trans hrow))]
    omega
  have hclose := h.close hfill hlt.le hclosed hlast hafter
  rwa [hrows] at hclose

/-- A cut that is asked for when the last chunk has just ended, or there are no rows at all. -/
theorem cut_nothing (h : Cuts limit asked rows sizes 0)
    (hasked : ∀ row, asked' row ↔ asked row ∨ rows = row + 1) : Cuts limit asked' rows sizes 0 where
  rows_eq := h.rows_eq
  fill_lt := h.fill_lt
  bounds := h.bounds
  ends_iff {row place} hplace := by
    have hrows := h.rows_eq
    -- only of the last row could the cut say something new, and its chunk ends there already
    by_cases hlast : row + 1 = sizes.sum
    · refine iff_of_true (hplace.ends_of_sum hlast) (.inl ((hasked row).mpr (.inr ?_)))
      omega
    · rw [h.ends_iff hplace, hasked, or_iff_left (b := rows = row + 1)]
      omega
  not_asked {row} hrow := by
    have hrows := h.rows_eq
    rw [hasked, or_iff_right (h.not_asked hrow)]
    omega

end Cuts

namespace TableBuilder

variable {b : TableBuilder}

/-! ## All columns -/

@[simp] theorem fill_cut (b : TableBuilder) : b.cut.fill = 0 := by
  unfold TableBuilder.cut
  split
  · assumption
  · rfl

@[simp] theorem chunkRows_cut (b : TableBuilder) : b.cut.chunkRows = b.chunkRows := by
  unfold TableBuilder.cut
  split <;> rfl

@[simp] theorem chunkRows_step (b : TableBuilder) (call : Step) : (b.step call).chunkRows = b.chunkRows := by
  cases call with
  | append row =>
    by_cases hrow : RowFits b.schema row
    · rw [step, append_of_fits hrow, write]
      dsimp only
      split
      · exact chunkRows_cut _
      · rfl
    · rw [step_append_of_not_fits hrow]
  | cut => exact chunkRows_cut b

@[simp] theorem chunkRows_run (b : TableBuilder) (steps : List Step) : (b.run steps).chunkRows = b.chunkRows := by
  induction steps generalizing b with
  | nil => rfl
  | cons call steps ih => exact (ih (b.step call)).trans (chunkRows_step b call)

theorem run_concat (b : TableBuilder) (steps : List Step) (call : Step) :
    b.run (steps ++ [call]) = (b.run steps).step call := by
  simp [run]

theorem run_append (b : TableBuilder) (before later : List Step) :
    b.run (before ++ later) = (b.run before).run later :=
  List.foldl_append

/-- The columns have the same closed chunks, and as many values in the current one as the builder counts. -/
structure Chunked (asked : Nat → Prop) (rows : Nat) (sizes : List Nat) (b : TableBuilder) : Prop where
  columns : ∀ buffer ∈ b.columns, buffer.Closed sizes b.fill
  cuts : Cuts b.chunkRows asked rows sizes b.fill

theorem chunked_new (schema : List ColumnHeader) (chunkRows : Nat) (hasked : ∀ row, ¬ asked row) :
    (new schema chunkRows).Chunked asked 0 [] where
  columns := List.forall_mem_map.mpr fun header _ => ColumnBuffer.closed_new header.columnType
  cuts := Cuts.new (Nat.lt_of_lt_of_le Nat.one_pos (Nat.le_max_right chunkRows 1)) hasked

theorem Chunked.congr (h : b.Chunked asked rows sizes) (hasked : ∀ row, asked' row ↔ asked row) :
    b.Chunked asked' rows sizes :=
  ⟨h.columns, h.cuts.congr hasked⟩

/-- A cut closes the current chunk of every column. -/
theorem closed_cut (h : ∀ buffer ∈ b.columns, buffer.Closed sizes b.fill) (hfill : b.fill ≠ 0) :
    ∀ buffer ∈ b.cut.columns, buffer.Closed (sizes ++ [b.fill]) b.cut.fill := by
  rw [fill_cut, TableBuilder.cut, if_neg hfill]
  exact List.forall_mem_map.mpr fun buffer hbuffer => (h buffer hbuffer).cut (Nat.pos_of_ne_zero hfill)

theorem Chunked.cut (h : b.Chunked asked rows sizes) (hasked : ∀ row, asked' row ↔ asked row ∨ rows = row + 1) :
    ∃ sizes, b.cut.Chunked asked' rows sizes := by
  have hcuts := h.cuts
  by_cases hfill : b.fill = 0
  · rw [hfill] at hcuts
    refine ⟨sizes, ?_⟩
    rw [TableBuilder.cut, if_pos hfill]
    exact ⟨h.columns, hfill ▸ hcuts.cut_nothing hasked⟩
  · refine ⟨sizes ++ [b.fill], closed_cut h.columns hfill, ?_⟩
    rw [fill_cut, chunkRows_cut]
    exact hcuts.cut (Nat.pos_of_ne_zero hfill) hasked

theorem Chunked.write (h : b.Chunked asked rows sizes) {accepted : List (List Cell)} (hfilled : b.Filled accepted)
    {row : List Cell} (hrow : RowFits b.schema row) : ∃ sizes, (b.write row).Chunked asked (rows + 1) sizes := by
  have hwritten : ∀ buffer ∈ List.zipWith ColumnBuffer.push b.columns row, buffer.Closed sizes (b.fill + 1) := by
    -- no column is left out, since the row has a cell for each, of a type that the column takes
    intro buffer hbuffer
    obtain ⟨position, hposition⟩ := List.mem_iff_getElem?.mp hbuffer
    obtain ⟨old, cell, hold, hcell, rfl⟩ := List.getElem?_zipWith_eq_some.mp hposition
    obtain ⟨hlt, -⟩ := List.getElem?_eq_some_iff.mp hold
    have hheader := List.getElem?_eq_getElem (hfilled.length_eq ▸ hlt)
    obtain ⟨_, hsame, hcells⟩ := hfilled.column hheader
    obtain rfl := Option.some.inj (hold.symm.trans hsame)
    obtain ⟨_, hsame, hfits⟩ := hrow.exists_cell hheader
    obtain rfl := Option.some.inj (hcell.symm.trans hsame)
    exact (h.columns old (List.mem_of_getElem? hold)).push hcells hfits
  unfold TableBuilder.write
  dsimp only
  split
  · rename_i hfull
    refine ⟨sizes ++ [b.fill + 1], closed_cut hwritten (Nat.succ_ne_zero _), ?_⟩
    rw [fill_cut, chunkRows_cut]
    exact h.cuts.fillUp hfull
  · rename_i hnot
    exact ⟨sizes, hwritten, h.cuts.grow (Nat.lt_of_le_of_ne h.cuts.fill_lt hnot)⟩

/-! ## Runs of calls -/

variable {schema : List ColumnHeader} {steps : List Step}

/-- A cut was asked for after the row and before the next one that was accepted. -/
def CutAfter (schema : List ColumnHeader) (steps : List Step) (row : Nat) : Prop :=
  ∃ before later, steps = before ++ .cut :: later ∧ (before.filterMap (Step.row? schema)).length = row + 1

theorem not_cutAfter_nil (schema : List ColumnHeader) (row : Nat) : ¬ CutAfter schema [] row := by
  rintro ⟨before, later, h, -⟩
  simp at h

/-- A cut has been asked for before the last call, or it is the last call. -/
theorem cutAfter_concat {call : Step} :
    CutAfter schema (steps ++ [call]) row ↔ CutAfter schema steps row ∨
      call = .cut ∧ (steps.filterMap (Step.row? schema)).length = row + 1 := by
  constructor
  · rintro ⟨before, later, h, hrow⟩
    rcases List.eq_nil_or_concat later with rfl | ⟨later, last, rfl⟩
    · obtain ⟨rfl, hcall⟩ := List.append_inj' h rfl
      exact .inr ⟨(List.cons.inj hcall).1, hrow⟩
    · rw [List.concat_eq_append, ← List.cons_append, ← List.append_assoc] at h
      obtain ⟨rfl, -⟩ := List.append_inj' h rfl
      exact .inl ⟨before, later, rfl, hrow⟩
  · rintro (⟨before, later, rfl, hrow⟩ | ⟨rfl, hrow⟩)
    · exact ⟨before, later ++ [call], by simp, hrow⟩
    · exact ⟨steps, [], rfl, hrow⟩

theorem cutAfter_concat_append {cells : List Cell} :
    CutAfter schema (steps ++ [.append cells]) row ↔ CutAfter schema steps row := by
  rw [cutAfter_concat, or_iff_left nofun]

/-- The calls so far have led to the builder, and decided about the chunks. -/
theorem Chunked.step (h : b.Chunked (CutAfter b.schema steps) (steps.filterMap (Step.row? b.schema)).length sizes)
    (hfilled : b.Filled (steps.filterMap (Step.row? b.schema))) (call : Step) :
    ∃ sizes, (b.step call).Chunked (CutAfter b.schema (steps ++ [call]))
      ((steps ++ [call]).filterMap (Step.row? b.schema)).length sizes := by
  cases call with
  | cut =>
    rw [TableBuilder.step, List.filterMap_append, List.length_append]
    refine h.cut fun row => ?_
    rw [cutAfter_concat, and_iff_right rfl]
  | append row =>
    rw [List.filterMap_append, List.length_append]
    by_cases hrow : RowFits b.schema row
    · obtain ⟨sizes, hwritten⟩ := h.write hfilled hrow
      refine ⟨sizes, ?_⟩
      rw [TableBuilder.step, append_of_fits hrow]
      simpa [Step.row?, hrow] using hwritten.congr fun _ => cutAfter_concat_append
    · refine ⟨sizes, ?_⟩
      rw [step_append_of_not_fits hrow]
      simpa [Step.row?, hrow] using h.congr fun _ => cutAfter_concat_append

/-- The induction is on the calls from the last one back: what a cut does depends on all calls before it. -/
theorem exists_chunked_run (schema : List ColumnHeader) (chunkRows : Nat) (steps : List Step) :
    ∃ sizes, ((new schema chunkRows).run steps).Chunked (CutAfter schema steps)
      (steps.filterMap (Step.row? schema)).length sizes := by
  induction steps using List.reverseRecOn with
  | nil => exact ⟨[], chunked_new schema chunkRows (not_cutAfter_nil schema)⟩
  | append_singleton steps call ih =>
    obtain ⟨sizes, h⟩ := ih
    have hschema : ((new schema chunkRows).run steps).schema = schema := schema_run _ _
    have hfilled := (filled_new schema chunkRows).run steps
    rw [run_concat]
    generalize (new schema chunkRows).run steps = b at h hschema hfilled ⊢
    subst hschema
    exact h.step hfilled call

/-! ## The table -/

@[simp] theorem cut_cut (b : TableBuilder) : b.cut.cut = b.cut := by
  rw [TableBuilder.cut, if_pos (fill_cut b)]

/-- The last chunk is closed in any case. -/
@[simp] theorem finish_cut (b : TableBuilder) : b.cut.finish = b.finish := by
  rw [finish, schema_cut, cut_cut]
  rfl

theorem Chunked.chunkSizes_eq (h : b.Chunked asked rows sizes) (hfill : b.fill = 0) {column : MemoryColumn}
    (hcolumn : column ∈ b.finish.columns) : column.chunkSizes = sizes := by
  obtain ⟨position, hposition⟩ := List.mem_iff_getElem?.mp hcolumn
  obtain ⟨header, buffer, -, hbuffer, rfl⟩ := List.getElem?_zipWith_eq_some.mp hposition
  rw [TableBuilder.cut, if_pos hfill] at hbuffer
  have hclosed := h.columns buffer (List.mem_of_getElem? hbuffer)
  rw [hfill] at hclosed
  exact hclosed.chunkSizes_eq

/-- A cut right after another one does nothing. -/
theorem run_cut_again (b : TableBuilder) (before later : List Step) :
    b.run (before ++ .cut :: .cut :: later) = b.run (before ++ .cut :: later) := by
  rw [run_append, run_append]
  exact congrArg (·.run later) (cut_cut (b.run before))

theorem finish_run_concat_cut (b : TableBuilder) (steps : List Step) :
    (b.run (steps ++ [.cut])).finish = (b.run steps).finish := by
  rw [run_concat]
  exact finish_cut (b.run steps)

/-- The chunks of the finished table are those that one more cut leaves. -/
theorem exists_chunkSizes (schema : List ColumnHeader) (chunkRows : Nat) (steps : List Step) :
    ∃ sizes, (∀ column ∈ ((new schema chunkRows).run steps).finish.columns, column.chunkSizes = sizes) ∧
      Cuts (max chunkRows 1) (CutAfter schema (steps ++ [.cut])) (steps.filterMap (Step.row? schema)).length
        sizes 0 := by
  obtain ⟨sizes, h⟩ := exists_chunked_run schema chunkRows (steps ++ [.cut])
  have hfill : ((new schema chunkRows).run (steps ++ [.cut])).fill = 0 := by
    rw [run_concat]
    exact fill_cut _
  refine ⟨sizes, fun column hcolumn => ?_, ?_⟩
  · rw [← finish_run_concat_cut] at hcolumn
    exact h.chunkSizes_eq hfill hcolumn
  · have hcuts := h.cuts
    rw [hfill, chunkRows_run, List.filterMap_append, List.length_append] at hcuts
    exact hcuts

/-- After any run of calls the finished table has the columns of the schema with the rows that were accepted, and all
    of them have the same chunks. None of these is empty or has more rows than are allowed. A chunk ends after a row if it
    is the last one, if a cut was asked for before the next one was accepted, or if the chunk is full then, and
    only so. A cut before all other calls, after them or right after another cut changes nothing, and neither does
    a row that is rejected. -/
theorem finish_run_chunks (schema : List ColumnHeader) (chunkRows : Nat) (steps : List Step) :
    let build := fun steps => ((new schema chunkRows).run steps).finish
    let accepted := (steps.filterMap (Step.row? schema)).length
    (∀ row, (((new schema chunkRows).run steps).append row).1 = .ok () ↔ RowFits schema row) ∧
      (build steps).HasRows schema (steps.filterMap (Step.row? schema)) ∧
      (∃ sizes, (∀ column ∈ (build steps).columns, column.chunkSizes = sizes) ∧
        (∀ n ∈ sizes, 0 < n ∧ n ≤ max chunkRows 1) ∧
        sizes.sum = accepted ∧
        ∀ row < accepted, ∃ place, LiesAt sizes row place ∧
          (sizes[place.segment]? = some (place.offset + 1) ↔
            row + 1 = accepted ∨ CutAfter schema steps row ∨ place.offset + 1 = max chunkRows 1)) ∧
      build (.cut :: steps) = build steps ∧
      build (steps ++ [.cut]) = build steps ∧
      (∀ before later, build (before ++ .cut :: .cut :: later) = build (before ++ .cut :: later)) ∧
      build (steps.filter (Step.isAccepted schema)) = build steps := by
  intro build accepted
  refine ⟨fun row => ?_, hasRows_run schema chunkRows steps, ?_, rfl, finish_run_concat_cut _ steps,
    fun before later => ?_, ?_⟩
  · rw [append_eq_ok, schema_run]
    rfl
  · obtain ⟨sizes, hsizes, hcuts⟩ := exists_chunkSizes schema chunkRows steps
    have hsum : sizes.sum = accepted := hcuts.rows_eq
    refine ⟨sizes, hsizes, hcuts.bounds, hsum, fun row hrow => ?_⟩
    have hplace := liesAt_placeOf (hsum ▸ hrow)
    refine ⟨_, hplace, ?_⟩
    rw [hcuts.ends_iff hplace, cutAfter_concat, and_iff_right rfl, eq_comm (b := row + 1), or_assoc, or_left_comm]
  · exact congrArg finish (run_cut_again _ before later)
  · exact congrArg finish (run_filter_isAccepted (new schema chunkRows) steps)

/-- A cut that is asked for when a chunk was just filled, or twice, leaves no empty chunk behind. -/
theorem finish_run_chunks_around_cuts :
    let schema : List ColumnHeader := [⟨"n", .int32⟩, ⟨"d", .dictionary⟩]
    let steps : List Step :=
      [.cut, .append [.int32 1, .utf8 "a"], .append [.utf8 "x", .utf8 "y"], .append [.int32 2, .utf8 "b"], .cut,
        .append [.int32 3, .utf8 "a"], .cut, .cut, .append [.int32 4, .utf8 "c"]]
    let t := ((new schema 2).run steps).finish
    t.columns = [⟨"n", .int32 [[1, 2], [3], [4]]⟩, ⟨"d", .dictionary [[0, 1], [0], [2]] ⟨["a", "b", "c"]⟩⟩] ∧
      t.HasRows schema (steps.filterMap (Step.row? schema)) ∧
      (∀ column ∈ t.columns, column.chunkSizes = [2, 1, 1]) ∧ CutAfter schema steps 2 ∧
      ¬ CutAfter schema steps 0 := by
  intro schema steps t
  have hcolumns : t.columns =
      [⟨"n", .int32 [[1, 2], [3], [4]]⟩, ⟨"d", .dictionary [[0, 1], [0], [2]] ⟨["a", "b", "c"]⟩⟩] := by cbv
  obtain ⟨-, hrows, ⟨sizes, hsizes, -, -, hends⟩, -⟩ := finish_run_chunks schema 2 steps
  have hfirst := hsizes ⟨"n", .int32 [[1, 2], [3], [4]]⟩ (hcolumns.symm ▸ List.mem_cons_self)
  obtain rfl : sizes = [2, 1, 1] := hfirst.symm
  refine ⟨hcolumns, hrows, hsizes, ?_, ?_⟩
  · obtain ⟨place, hplace, hend⟩ := hends 2 (by decide)
    obtain rfl := hplace.unique (show LiesAt [2, 1, 1] 2 ⟨1, 0⟩ from ⟨⟨1, rfl, by decide⟩, rfl⟩)
    exact ((hend.mp rfl).resolve_left (by decide)).resolve_right (by decide)
  · obtain ⟨place, hplace, hend⟩ := hends 0 (by decide)
    obtain rfl := hplace.unique (show LiesAt [2, 1, 1] 0 ⟨0, 0⟩ from ⟨⟨2, rfl, by decide⟩, rfl⟩)
    exact fun hcut => absurd (hend.mpr (.inr (.inl hcut))) (by decide)

end TableBuilder

end Pushdown
