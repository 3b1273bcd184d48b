-- SUMMARY: A checked scan fails only as the calls on its columns fail.
import Pushdown.Proofs.Narrowing
import Pushdown.Proofs.Segments.Sweeping
import Pushdown.Proofs.Serving

/-!
# Where scans fail

What a store hands out for a row may be anything, and any call on a segment may fail. As long as the sizes of
the segments can be had and add up to the rows of the table, nothing else makes a checked scan fail: the
candidates ascend and are rows of the table from the first filter to the last projection, so no search is
refused, and every failure is one that a call on a segment came back with.
-/

namespace Pushdown

variable {δ α : Type} {segments : Segments δ α} {permitted : Failure → Prop} {n : Nat} {candidates : Candidates}

/-! ## Segments -/

/-- The sizes of the segments can be had and add up to `n` rows. The other calls may fail, but only as
    permitted. -/
structure Segments.FailsOnly (segments : Segments δ α) (permitted : Failure → Prop) (n : Nat) : Prop where
  sized : ∃ sizes, segments.Sized sizes ∧ sizes.sum = n
  decoder : ∀ {segment e}, segment < segments.count → segments.decoder segment = .error e → permitted e
  skip : ∀ {d rows e}, (segments.skip d rows).1 = .error e → permitted e
  next : ∀ {d e}, (segments.next d).1 = .error e → permitted e

theorem Entered.decodeAt_fails_only (h : segments.FailsOnly permitted n) {o : Entered δ} {offset : Nat} {e : Failure}
    (he : (o.decodeAt segments offset).1 = .error e) : permitted e := by
  unfold decodeAt at he
  rcases hnext : segments.next o.decoder with ⟨e' | value, d⟩
  · rw [hnext] at he
    cases he
    exact h.next (congrArg Prod.fst hnext)
  · rw [hnext] at he
    cases he

theorem Entered.read_fails_only (h : segments.FailsOnly permitted n) {o : Entered δ} {offset : Nat} {e : Failure}
    (he : (o.read segments offset).1 = .error e) : permitted e := by
  unfold read at he
  dsimp only at he
  by_cases hgap : offset - o.next = 0
  · rw [if_pos hgap] at he
    exact decodeAt_fails_only h he
  · rw [if_neg hgap] at he
    rcases hskip : segments.skip o.decoder (offset - o.next) with ⟨e' | u, d⟩
    · rw [hskip] at he
      cases he
      exact h.skip (congrArg Prod.fst hskip)
    · rw [hskip] at he
      exact decodeAt_fails_only h he

namespace Cursor

variable {c : Cursor δ} {row : Nat} {sizes : List Nat}

theorem enter_fails_only (h : segments.FailsOnly permitted n) {segment : Nat} (hsegment : segment < segments.count)
    {opened : Option (Entered δ)} {e : Failure} (he : (enter segments segment opened).1 = .error e) :
    permitted e := by
  unfold enter at he
  cases hopened : opened.filter (·.segment = segment) with
  | some o =>
    rw [hopened] at he
    cases he
  | none =>
    rw [hopened] at he
    cases hdecoder : segments.decoder segment with
    | ok d =>
      rw [hdecoder] at he
      cases he
    | error e' =>
      rw [hdecoder] at he
      cases he
      exact h.decoder hsegment hdecoder

/-- The cursor can be asked for the row: its search has not gone past it, nor was a later row read. -/
structure Before (sizes : List Nat) (row : Nat) (c : Cursor δ) : Prop where
  atFront : c.locator.AtFront sizes
  base_le : c.locator.base ≤ row
  last_lt : ∀ previous, c.lastRow = some previous → previous < row

theorem before_new (sizes : List Nat) (row : Nat) : Before sizes row ({} : Cursor δ) where
  atFront := Locator.atFront_new sizes
  base_le := Nat.zero_le row
  last_lt := nofun

/-- A row of the column is read unless a call fails as permitted, and later rows can be asked for then. -/
theorem Before.read (h : segments.FailsOnly permitted n) (hsized : segments.Sized sizes)
    (hc : c.Before sizes row) (hrow : row < sizes.sum) :
    (∀ e, (c.read segments row).result = .error e → permitted e) ∧
      ∀ value, (c.read segments row).result = .ok value →
        ∀ later, row < later → (c.read segments row).cursor.Before sizes later := by
  have hplace := liesAt_placeOf hrow
  obtain ⟨hlocate, hfront⟩ := Locator.locate_of_liesAt hsized hc.atFront hc.base_le hplace
  have hsegment : (placeOf sizes row).segment < segments.count := by
    obtain ⟨size, hsize, -⟩ := hplace.offset_lt
    rw [hsized.count]
    exact (List.getElem?_eq_some_iff.mp hsize).1
  rw [read_eq_seek hc.last_lt]
  refine ⟨fun e he => ?_, fun value hvalue later hlater => ?_⟩
  · simp only [seek, seekFrom, hlocate] at he
    rcases henter : enter segments (placeOf sizes row).segment c.opened with ⟨e' | o, calls⟩
    · simp only [henter] at he
      cases he
      exact enter_fails_only h hsegment (congrArg Prod.fst henter)
    · simp only [henter] at he
      rcases hread : o.read segments (placeOf sizes row).offset with ⟨e' | value, o', decoded⟩
      · simp only [hread] at he
        cases he
        exact Entered.read_fails_only h (congrArg Prod.fst hread)
      · simp only [hread] at he
        cases he
  · obtain ⟨-, -, hmoved⟩ := seek_eq_ok hvalue hlocate
    rw [hfront] at hmoved
    refine ⟨?_, ?_, ?_⟩
    · rw [hmoved]
      exact Locator.atFront_of_liesAt hplace
    · rw [hmoved]
      exact hplace.bounds.1.trans hlater.le
    · intro previous hprevious
      rw [lastRow_seek hvalue] at hprevious
      cases hprevious
      exact hlater

end Cursor

namespace Segments

/-- A walk over ascending rows of the column fails only as permitted. -/
theorem walkRows_fails_only {sizes rows : List Nat} {c : Cursor δ} (h : segments.FailsOnly permitted n)
    (hsized : segments.Sized sizes) (hc : ∀ row ∈ rows, c.Before sizes row) (hrows : rows.Pairwise (· < ·))
    (hlt : ∀ row ∈ rows, row < sizes.sum) {e : Failure} (he : (segments.walkRows c rows).ending = .error e) :
    permitted e := by
  induction rows generalizing c with
  | nil => cases he
  | cons row rows ih =>
    obtain ⟨hfirst, hrows⟩ := List.pairwise_cons.mp hrows
    obtain ⟨hrow, hlt⟩ := List.forall_mem_cons.mp hlt
    obtain ⟨hfails, hbefore⟩ := (hc row List.mem_cons_self).read h hsized hrow
    rw [walkRows] at he
    cases hresult : (c.read segments row).result with
    | error e' =>
      rw [hresult] at he
      cases he
      exact hfails _ hresult
    | ok value =>
      rw [hresult] at he
      exact ih (fun later hlater => hbefore value hresult later (hfirst later hlater)) hrows hlt he

/-- A walk over candidates that are rows of the column hands out these rows, or fails as permitted. -/
theorem walk_fails_only (h : segments.FailsOnly permitted n) (hcandidates : candidates.Within n) :
    (∀ e, (segments.walk candidates).ending = .error e → permitted e) ∧
      ((segments.walk candidates).ending = .ok () →
        (segments.walk candidates).visited.map (·.1) = candidates.listed n) := by
  obtain ⟨sizes, hsized, rfl⟩ := h.sized
  have hlisted : ∀ rows : List Nat, rows.Pairwise (· < ·) → (∀ row ∈ rows, row < sizes.sum) →
      (∀ e, (segments.walkRows {} rows).ending = .error e → permitted e) ∧
        ((segments.walkRows {} rows).ending = .ok () →
          (segments.walkRows {} rows).visited.map (·.1) = rows) := by
    intro rows hrows hlt
    exact ⟨fun e => walkRows_fails_only h hsized (fun row _ => Cursor.before_new sizes row) hrows hlt,
      fun hending => (walkRows_ascend hending).1⟩
  cases candidates with
  | empty => exact ⟨nofun, fun _ => rfl⟩
  | bounded rows => exact hlisted rows hcandidates.ascending hcandidates.lt
  | unbounded =>
    -- the walk over all rows is told apart from one over the list of them by its questions for sizes only
    have halike := walkRows_walkAll hsized
    have hending := congrArg Walk.ending halike
    have hvisited := congrArg Walk.visited halike
    dsimp only [Walk.touching] at hending hvisited
    rw [walk]
    rw [← hending, ← hvisited]
    exact hlisted _ List.pairwise_lt_range fun row => List.mem_range.mp

theorem filter_fails_only (h : segments.FailsOnly permitted n) (hcandidates : candidates.Within n)
    (test : α → Bool) : Ends permitted (·.Within n) (segments.filter candidates test).result := by
  obtain ⟨hfails, hvisited⟩ := walk_fails_only h hcandidates
  show Ends permitted _ ((segments.walk candidates).keep test)
  unfold Walk.keep
  cases hending : (segments.walk candidates).ending with
  | error e => exact .error (hfails e hending)
  | ok u =>
    have hkept : (((segments.walk candidates).visited.filter fun visit => test visit.2).map (·.1)).Sublist
        (candidates.listed n) := by
      rw [← hvisited hending]
      exact List.filter_sublist.map _
    exact .ok (hcandidates.sublist hkept)

theorem project_fails_only (h : segments.FailsOnly permitted n) (hcandidates : candidates.Within n) :
    Ends permitted (fun _ => True) (segments.project candidates).result := by
  obtain ⟨hfails, -⟩ := walk_fails_only h hcandidates
  show Ends permitted _ (segments.walk candidates).values
  unfold Walk.values
  cases hending : (segments.walk candidates).ending with
  | error e => exact .error (hfails e hending)
  | ok u => exact .ok trivial

end Segments

/-! ## Columns -/

namespace Column

variable {δ : Type → Type} {column : Column δ}

/-- The segments of the column fail only as permitted, and so does looking up a key. -/
inductive FailsOnly (permitted : Failure → Prop) (n : Nat) : Column δ → Prop
  | float64 {segments : Segments (δ Binary64) Binary64} (h : segments.FailsOnly permitted n) :
      FailsOnly permitted n (.float64 segments)
  | int32 {segments : Segments (δ Int32) Int32} (h : segments.FailsOnly permitted n) :
      FailsOnly permitted n (.int32 segments)
  | utf8 {segments : Segments (δ String) String} (h : segments.FailsOnly permitted n) :
      FailsOnly permitted n (.utf8 segments)
  | dictionary {segments : Segments (δ UInt32) UInt32} {texts : Dictionary}
      (h : segments.FailsOnly permitted n) (hkeys : ∀ key size, permitted (.dictionaryIndex key size)) :
      FailsOnly permitted n (.dictionary segments texts)

theorem FailsOnly.of_tests (h : column.FailsOnly permitted n) {predicate : Predicate} {α : Type}
    {segments : Segments (δ α) α} {test : α → Bool} (htests : column.Tests predicate segments test) :
    segments.FailsOnly permitted n := by
  cases htests <;> cases h <;> assumption

/-- A predicate that applies to the column leaves rows of the column. -/
theorem FailsOnly.filter (h : column.FailsOnly permitted n) {predicate : Predicate}
    (happlies : predicate.Applies column.columnType) (hcandidates : candidates.Within n) :
    Ends permitted (·.Within n) (column.filter predicate candidates).result := by
  rcases column.filter_cases predicate candidates with
    ⟨hrefused, -⟩ | ⟨-, hfilter⟩ | ⟨α, segments, test, htests, hfilter⟩
  · exact absurd happlies hrefused
  · rw [hfilter]
    exact .ok (Candidates.within_empty n)
  · rw [hfilter]
    exact Segments.filter_fails_only (h.of_tests htests) hcandidates test

theorem FailsOnly.project (h : column.FailsOnly permitted n) (hcandidates : candidates.Within n)
    (form : DictionaryForm) : Ends permitted (fun _ => True) (column.project candidates form).result := by
  unfold Column.project
  by_cases hempty : candidates.isEmpty = true
  · rw [if_pos hempty]
    exact .ok trivial
  · rw [if_neg hempty]
    cases h with
    | float64 h | int32 h | utf8 h =>
      exact (Segments.project_fails_only h hcandidates).bind fun _ _ => .ok trivial
    | @dictionary segments texts h hkeys =>
      apply (Segments.project_fails_only h hcandidates).bind
      intro keys _
      cases form with
      | keys => exact .ok trivial
      | strings =>
        have htexts : ∀ key ∈ keys, Ends permitted (fun _ => True) (texts.textOf key) := by
          intro key _
          unfold Dictionary.textOf
          cases texts.values[key.toNat]? with
          | some text => exact .ok trivial
          | none => exact .error (hkeys key texts.size)
        exact (Ends.mapM htexts).map fun _ _ => trivial

end Column

/-! ## Tables -/

namespace Table

variable {δ : Type → Type} {table : Table δ} {query : Query} {predicates : List Predicate}

/-- The columns that have a type are columns of that type, with as many rows as the table, and fail only as
    permitted. -/
structure FailsOnly (table : Table δ) (permitted : Failure → Prop) : Prop where
  column : ∀ {position columnType}, table.namedType position = .ok columnType →
    ∃ column, table.column position = .ok column ∧ column.columnType = columnType ∧
      column.FailsOnly permitted table.rows

/-- The candidates stay rows of the table. -/
theorem FailsOnly.carries (h : table.FailsOnly permitted) :
    table.Carries permitted fun _ candidates => candidates.Within table.rows := by
  intro applied predicate candidates hpredicate hcandidates
  unfold narrow
  by_cases hempty : candidates.isEmpty = true
  · rw [if_pos hempty]
    exact .ok hcandidates
  · obtain ⟨columnType, htype, happlies⟩ := hpredicate
    obtain ⟨column, hcolumn, rfl, hfails⟩ := h.column htype
    rw [if_neg hempty, hcolumn]
    exact hfails.filter happlies hcandidates

/-- A checked query is answered, or a call on a column failed. -/
theorem FailsOnly.scan (h : table.FailsOnly permitted) (hcheck : table.check query = .ok predicates)
    (form : DictionaryForm) : Ends permitted (fun _ => True) (table.scan query form) := by
  have hprojection : ∀ candidates column columnType, candidates.Within table.rows →
      table.namedType column = .ok columnType →
      Ends permitted (fun _ => True) (table.projection candidates form column) := by
    intro candidates column columnType hcandidates htype
    obtain ⟨source, hsource, -, hfails⟩ := h.column htype
    unfold projection
    rw [hsource]
    exact (hfails.project hcandidates form).bind fun _ _ => .ok trivial
  exact (h.carries.scan (Candidates.within_unbounded _) hcheck form hprojection).mono fun _ _ => trivial

end Table

end Pushdown
