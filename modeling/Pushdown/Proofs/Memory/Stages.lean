-- SUMMARY: What a stage over chunks makes of any list of rows, and by which calls it comes to them.
import Pushdown.Proofs.Memory.Table
import Pushdown.Proofs.Narrowing
import Pushdown.Proofs.Segments.Listing
import Pushdown.Proofs.Segments.Route

/-!
# Stages over chunks

Chunks hold a value for every row, so a stage over them only fails where its list of rows is at fault, and
then with the first row that is misplaced. Over candidates it does not fail, and the calls that it makes
are those that lead to them.
-/

namespace Pushdown

/-! ## Listed rows -/

theorem Cells.forall₂_select {α : Type} {values : List α} {rows : List Nat}
    (h : ∀ row ∈ rows, row < values.length) :
    List.Forall₂ (fun row value => values[row]? = some value) rows ((ofValues values).select rows) := by
  rw [select_ofValues]
  induction rows with
  | nil => exact .nil
  | cons row rows ih =>
    obtain ⟨hrow, hrows⟩ := List.forall_mem_cons.mp h
    have hvalue := List.getElem?_eq_getElem hrow
    rw [List.filterMap_cons_some hvalue]
    exact .cons hvalue (ih hrows)

/-- Given any list of rows, the stages over chunks fail at the first row that is misplaced in it, and for
    what is wrong with it. Without one a projection gives the value of each row in order, and a filter the
    rows whose value passes. -/
theorem Segments.stages_of_listed {α : Type} (chunks : List (List α)) (rows : List Nat) (test : α → Bool) :
    let source := Segments.ofChunks chunks
    let values := chunks.flatten
    (∀ i e, Misplaced values.length rows i e → (∀ j < i, ∀ e', ¬ Misplaced values.length rows j e') →
        (source.project (.bounded rows)).result = .error e ∧
          (source.filter (.bounded rows) test).result = .error e) ∧
      ((∀ i e, ¬ Misplaced values.length rows i e) →
        (∃ selected, (source.project (.bounded rows)).result = .ok selected ∧
            List.Forall₂ (fun row value => values[row]? = some value) rows selected) ∧
          (source.filter (.bounded rows) test).result =
            .ok (.ofAscending (rows.filter fun row => values[row]?.any test))) := by
  intro source values
  have hholds : source.HoldsCells (.ofValues values) := ofChunks_holdsCells chunks
  refine ⟨fun i e hmisplaced hfirst => ?_, fun hnone => ?_⟩
  · have hending : (source.walk (.bounded rows)).ending = .error e :=
      walkRows_ending_of_first hholds hmisplaced hfirst
    constructor
    · show (source.walk (.bounded rows)).values = _
      rw [Walk.values, hending]
      rfl
    · show (source.walk (.bounded rows)).keep test = _
      rw [Walk.keep, hending]
      rfl
  · obtain ⟨hascend, hlt⟩ := Misplaced.none_iff.mp hnone
    have hrows : (Candidates.bounded rows).Ascending := hascend
    have hfault := Column.findSome?_ofValues hlt
    constructor
    · refine ⟨(Cells.ofValues values).select rows, ?_, Cells.forall₂_select hlt⟩
      rw [project_result hholds hrows]
      exact congrArg (settle · _) hfault
    · have hpasses : (Cells.ofValues values).passes test = fun row => values[row]?.any test :=
        funext fun row => by rw [Cells.passes, Cells.value?_ofValues]
      rw [filter_result hholds hrows, hpasses]
      exact congrArg (settle · _) hfault

/-- The third row asked for does not come after the second one, which hides that the last is none. -/
theorem Segments.stages_of_listed_descent :
    let source := Segments.ofChunks [["a"], [], ["b", "c"]]
    let rows := [0, 2, 1, 7]
    (Misplaced 3 rows 2 (.rowOrder 1 2) ∧ ∀ j < 2, ∀ e, ¬ Misplaced 3 rows j e) ∧
      (source.project (.bounded rows)).result = .error (.rowOrder 1 2) ∧
      (source.filter (.bounded rows) (· == "c")).result = .error (.rowOrder 1 2) ∧
      (∀ i e, ¬ Misplaced 3 [0, 2] i e) ∧
      (source.filter (.bounded [0, 2]) (· == "c")).result = .ok (.bounded [2]) := by
  intro source rows
  have hfits : ∀ i e, ¬ Misplaced 3 [0, 2] i e := Misplaced.none_iff.mpr (by decide)
  have hmisplaced : Misplaced 3 rows 2 (.rowOrder 1 2) := .order rfl rfl (by decide)
  have hfirst : ∀ j < 2, ∀ e, ¬ Misplaced 3 rows j e := Misplaced.first_iff.mpr (by decide)
  obtain ⟨hproject, hfilter⟩ := (stages_of_listed [["a"], [], ["b", "c"]] rows (· == "c")).1 2 _ hmisplaced hfirst
  exact ⟨⟨hmisplaced, hfirst⟩, hproject, hfilter, hfits,
    ((stages_of_listed [["a"], [], ["b", "c"]] [0, 2] (· == "c")).2 hfits).2⟩

/-! ## Calls -/

theorem Segments.ofChunks_sized {α : Type} (chunks : List (List α)) :
    (Segments.ofChunks chunks).Sized (chunks.map List.length) where
  count := rfl
  size hsize := by
    show Except.ok _ = _
    rw [hsize]
    rfl

/-- A walk over ascending rows of chunks traverses them. -/
theorem Segments.ofChunks_traverses {α : Type} {chunks : List (List α)} {rows : List Nat}
    (hrows : rows.Pairwise (· < ·)) (hlt : ∀ row ∈ rows, row < (chunks.map List.length).sum) :
    Traverses (chunks.map List.length) rows ((Segments.ofChunks chunks).walk (.bounded rows)).calls := by
  apply walk_traverses (ofChunks_sized chunks) hrows hlt
  rw [← List.length_flatten] at hlt
  exact walk_ending_of_ascending (ofChunks_holdsCells chunks) hrows hlt

namespace ColumnChunks

variable {data : ColumnChunks} {column : Column ChunkDecoder} {rows : List Nat}

theorem project_traverses (hsource : data.source = .ok column) (hrows : rows.Pairwise (· < ·))
    (hlt : ∀ row ∈ rows, row < data.chunkSizes.sum) (form : DictionaryForm) :
    Traverses data.chunkSizes rows (column.project (.bounded rows) form).calls := by
  cases data with
  | unsupported => cases hsource
  | float64 | int32 | utf8 | dictionary =>
    cases hsource
    exact Segments.ofChunks_traverses hrows hlt

/-- The segments that a filter of a column in memory walks are its chunks. -/
theorem ofChunks_of_tests (hsource : data.source = .ok column) {predicate : Predicate} {α : Type}
    {segments : Segments (ChunkDecoder α) α} {test : α → Bool} (htests : column.Tests predicate segments test) :
    ∃ chunks, segments = .ofChunks chunks ∧ chunks.map List.length = data.chunkSizes := by
  cases data with
  | unsupported => cases hsource
  | float64 chunks | int32 chunks | utf8 chunks | dictionary chunks =>
    cases hsource
    cases htests
    exact ⟨chunks, rfl, rfl⟩

/-- A filter traverses the rows if there are values to compare with. -/
theorem filter_traverses (hsource : data.source = .ok column) (hrows : rows.Pairwise (· < ·))
    (hlt : ∀ row ∈ rows, row < data.chunkSizes.sum) {predicate : Predicate}
    (happlies : predicate.Applies column.columnType) (hholds : ¬ column.Misses predicate) :
    Traverses data.chunkSizes rows (column.filter predicate (.bounded rows)).calls := by
  rcases column.filter_cases predicate (.bounded rows) with
    ⟨hrefused, -⟩ | ⟨hempty | hmisses, -⟩ | ⟨α, segments, test, htests, hfilter⟩
  · exact absurd happlies hrefused
  · cases hempty
  · exact absurd hmisses hholds
  · obtain ⟨chunks, rfl, hsizes⟩ := ofChunks_of_tests hsource htests
    rw [← hsizes] at hlt ⊢
    rw [hfilter]
    exact Segments.ofChunks_traverses hrows hlt

end ColumnChunks

namespace Column

variable {δ : Type → Type} {column : Column δ} {predicate : Predicate}

/-- An operand that the dictionary does not hold settles the filter without a call. -/
theorem filter_calls_of_misses (h : column.Misses predicate) (incoming : Candidates) :
    (column.filter predicate incoming).calls = [] := by
  rcases column.filter_cases predicate incoming with
    ⟨-, e, hfilter⟩ | ⟨-, hfilter⟩ | ⟨α, segments, test, htests, -⟩
  · rw [hfilter]
    rfl
  · rw [hfilter]
    rfl
  · exact absurd h htests.not_misses

theorem filter_calls_of_empty (column : Column δ) (predicate : Predicate) :
    (column.filter predicate .empty).calls = [] := by
  unfold filter
  split <;> rfl

end Column

/-- Over candidates, a stage on a column in memory traverses its chunks. Where no row can be a candidate, or
    none can match the operand, it makes no call at all. -/
theorem ColumnChunks.stages_traverse {data : ColumnChunks} {column : Column ChunkDecoder}
    (hsource : data.source = .ok column) :
    (∀ rows, rows.Pairwise (· < ·) → (∀ row ∈ rows, row < data.chunkSizes.sum) →
        (∀ form, Traverses data.chunkSizes rows (column.project (.bounded rows) form).calls) ∧
          ∀ predicate, predicate.Applies column.columnType → ¬ column.Misses predicate →
            Traverses data.chunkSizes rows (column.filter predicate (.bounded rows)).calls) ∧
      (∀ predicate incoming, column.Misses predicate → (column.filter predicate incoming).calls = []) ∧
      (∀ predicate, (column.filter predicate .empty).calls = []) ∧
      ∀ form, (column.project .empty form).calls = [] := by
  refine ⟨fun rows hrows hlt => ⟨project_traverses hsource hrows hlt, fun predicate => ?_⟩, ?_, ?_, ?_⟩
  · exact filter_traverses hsource hrows hlt
  · exact fun predicate incoming hmisses => Column.filter_calls_of_misses hmisses incoming
  · exact Column.filter_calls_of_empty column
  · exact fun form => rfl

/-- Two of four chunks are entered, the first one in its middle. -/
theorem ColumnChunks.stages_traverse_two_chunks :
    let data : ColumnChunks := .int32 [[5, 9, 1], [], [8], [2, 4]]
    let column : Column ChunkDecoder := .int32 (.ofChunks [[5, 9, 1], [], [8], [2, 4]])
    data.source = .ok column ∧
      Traverses [3, 0, 1, 2] [1, 2, 5] (column.project (.bounded [1, 2, 5]) .strings).calls ∧
      (column.project (.bounded [1, 2, 5]) .strings).calls.filter Access.touches =
        [.enter 0, .skip 0 1, .decode 0, .decode 0, .enter 3, .skip 3 1, .decode 3] := by
  intro data column
  have hsource : data.source = .ok column := rfl
  refine ⟨hsource, ((stages_traverse hsource).1 [1, 2, 5] (by decide) (by decide)).1 .strings, ?_⟩
  cbv

end Pushdown
