-- SUMMARY: A scan gives the answer read off the sheet that its table shows, or the first fault met.
import Pushdown.Proofs.Sheet

/-!
# Scans

A table shows a sheet when the columns that it gives a type to hold what the sheet says. The candidates
are carried from one predicate to the next, and the lemma about one step says that they stay the
survivors of the predicates applied so far. So a checked query fails with the first fault among the cells
that it meets, and where there is none it gives the answer read off the sheet.
-/

namespace Pushdown

variable {δ : Type → Type}

/-! ## Checked queries -/

/-- The operand of a predicate is a value of the column's type. -/
theorem Operand.parse?_fits {columnType : ColumnType} {text : String} {operand : Operand}
    (h : Operand.parse? columnType text = some operand) : operand.fits columnType = true := by
  cases columnType with
  | float64 | int32 =>
    obtain ⟨value, -, rfl⟩ := Option.map_eq_some_iff.mp h
    rfl
  | utf8 | dictionary =>
    cases h
    rfl

/-- A predicate can be applied to columns of the type. -/
structure Predicate.Applies (predicate : Predicate) (columnType : ColumnType) : Prop where
  suits : Predicate.suits predicate.op columnType = true
  fits : predicate.operand.fits columnType = true

theorem Predicate.parse_eq_ok {column : Nat} {columnType : ColumnType} {op : Comparison}
    {text : String} {predicate : Predicate} (h : parse column columnType op text = .ok predicate) :
    predicate.column = column ∧ predicate.Applies columnType := by
  unfold parse at h
  by_cases hsuits : suits op columnType = true
  · rw [hsuits] at h
    cases hoperand : Operand.parse? columnType text with
    | none =>
      rw [hoperand] at h
      cases h
    | some operand =>
      rw [hoperand] at h
      cases h
      exact ⟨rfl, hsuits, Operand.parse?_fits hoperand⟩
  · rw [Bool.not_eq_true] at hsuits
    rw [hsuits] at h
    cases h

namespace Table

variable {table : Table δ} {query : Query} {predicates : List Predicate}

/-- The predicate can be applied to its column of the table. -/
def Accepts (table : Table δ) (predicate : Predicate) : Prop :=
  ∃ columnType, table.namedType predicate.column = .ok columnType ∧ predicate.Applies columnType

theorem accepts_of_predicate {condition : Condition} {predicate : Predicate}
    (h : table.predicate condition = .ok predicate) : table.Accepts predicate := by
  obtain ⟨columnType, htype, hparse⟩ := bind_eq_ok.mp h
  obtain ⟨hcolumn, happlies⟩ := Predicate.parse_eq_ok hparse
  exact ⟨columnType, hcolumn ▸ htype, happlies⟩

theorem accepts_of_conditions {conditions : List Condition}
    (h : List.Forall₂ (fun condition predicate => table.predicate condition = .ok predicate)
      conditions predicates) : ∀ predicate ∈ predicates, table.Accepts predicate := by
  induction h with
  | nil => simp
  | cons hhead _ ih => exact List.forall_mem_cons.mpr ⟨accepts_of_predicate hhead, ih⟩

/-- A query is checked when its conditions stand for predicates and its projections have a type. -/
theorem check_eq_ok : table.check query = .ok predicates ↔
    List.Forall₂ (fun condition predicate => table.predicate condition = .ok predicate)
      query.conditions predicates ∧
    ∀ column ∈ query.projections, ∃ columnType, table.namedType column = .ok columnType := by
  have hdiscard : ∀ column, discard (table.namedType column) = .ok () ↔
      ∃ columnType, table.namedType column = .ok columnType := by
    intro column
    cases table.namedType column with
    | error e => simp [discard, Functor.discard, Functor.mapConst, Except.map]
    | ok columnType => simp [discard, Functor.discard, Functor.mapConst, Except.map]
  have hprojections : (query.projections.forM fun column => discard (table.namedType column)) = .ok () ↔
      ∀ column ∈ query.projections, ∃ columnType, table.namedType column = .ok columnType := by
    simp only [forM_eq_ok, hdiscard]
  unfold check
  simp only [bind_eq_ok, mapM_eq_ok]
  rw [← hprojections]
  constructor
  · rintro ⟨found, hfound, _, hall, h⟩
    cases h
    exact ⟨hfound, hall⟩
  · rintro ⟨hfound, hall⟩
    exact ⟨_, hfound, (), hall, rfl⟩

/-- The columns that a checked query names have a type. -/
theorem namedType_of_mem_met (hcheck : table.check query = .ok predicates) {sheet : Sheet}
    {place : Sheet.Place} (hplace : place ∈ sheet.met query predicates) :
    ∃ columnType, table.namedType place.column = .ok columnType := by
  obtain ⟨hconditions, hprojections⟩ := check_eq_ok.mp hcheck
  rcases (Sheet.place_of_mem_met hplace).2 with ⟨predicate, hpredicate, hcolumn⟩ | hcolumn
  · obtain ⟨columnType, htype, -⟩ := accepts_of_conditions hconditions predicate hpredicate
    exact ⟨columnType, hcolumn ▸ htype⟩
  · exact hprojections _ hcolumn

/-! ## Narrowing the survivors -/

/-- The columns that have a type hold what the sheet says, in as many rows as it has. -/
structure Shows (table : Table δ) (sheet : Sheet) : Prop where
  rows_eq : table.rows = sheet.rows
  holds : ∀ {position columnType}, table.namedType position = .ok columnType →
    ∃ column, table.column position = .ok column ∧ column.Holds (sheet.content position)
  columnType_eq : ∀ {position columnType}, table.namedType position = .ok columnType →
    (sheet.content position).columnType = columnType
  size_eq : ∀ {position columnType}, table.namedType position = .ok columnType →
    (sheet.content position).size = sheet.rows
  sound : ∀ {position columnType}, table.namedType position = .ok columnType →
    (sheet.content position).Sound

variable {sheet : Sheet}

/-- One predicate is tested on its column in the candidate rows, and keeps those that satisfy it. -/
theorem narrow_eq (h : table.Shows sheet) {predicate : Predicate} (hpredicate : table.Accepts predicate)
    {candidates : Candidates} (hcandidates : candidates.Within sheet.rows) :
    table.narrow predicate candidates =
      settle (((candidates.listed sheet.rows).map fun row => ⟨predicate.column, row⟩).findSome?
          sheet.fault?)
        (.ofAscending ((candidates.listed sheet.rows).filter (sheet.satisfies predicate))) := by
  unfold narrow
  by_cases hempty : candidates.isEmpty = true
  · rw [if_pos hempty, Candidates.eq_empty_of_isEmpty hempty]
    rfl
  · obtain ⟨columnType, htype, happlies⟩ := hpredicate
    obtain ⟨column, hcolumn, hholds⟩ := h.holds htype
    have hsize := h.size_eq htype
    rw [← h.columnType_eq htype] at happlies
    rw [← hsize] at hcandidates
    have hresult := Column.filter_result hholds (h.sound htype) happlies.suits happlies.fits hcandidates
    rw [hsize] at hresult
    rw [if_neg hempty, hcolumn, List.findSome?_map]
    exact hresult

/-- From the survivors of the predicates `applied` so far, the others are tested in turn, and what is
    left are the survivors of all of them. -/
theorem narrowAll_eq (h : table.Shows sheet) {all applied rest : List Predicate}
    (hall : applied ++ rest = all) (haccepts : ∀ predicate ∈ rest, table.Accepts predicate)
    {conditions : List Condition} (hlength : conditions.length = rest.length) :
    table.narrowAll (conditions.zip rest) (sheet.candidates applied) =
      settle
        (((rest.zipIdx applied.length).flatMap fun (predicate, position) =>
          sheet.tested all predicate position).findSome? sheet.fault?)
        (sheet.candidates all, (conditions.zipIdx applied.length).map fun (condition, position) =>
          sheet.narrowing all condition position) := by
  induction rest generalizing applied conditions with
  | nil =>
    obtain rfl := List.length_eq_zero_iff.mp hlength
    rw [← hall, List.append_nil]
    rfl
  | cons predicate rest ih =>
    obtain ⟨condition, conditions, rfl⟩ := List.exists_cons_of_length_eq_add_one hlength
    obtain ⟨hpredicate, hrest⟩ := List.forall_mem_cons.mp haccepts
    -- the predicate stands at the position `applied.length`, so those before it are `applied`
    have hbefore : all.take applied.length = applied := by
      rw [← hall, List.take_left]
    have hafter : all.take (applied.length + 1) = applied ++ [predicate] := by
      rw [← hall, List.take_length_add_append]
      rfl
    have hnarrow := narrow_eq h hpredicate (sheet.candidates_within applied)
    have htested : sheet.tested all predicate applied.length =
        (sheet.survivors applied).map fun row => ⟨predicate.column, row⟩ := by
      rw [Sheet.tested, hbefore]
    rw [Sheet.listed_candidates, ← Sheet.survivors_concat, ← Sheet.candidates_concat,
      ← htested] at hnarrow
    have hsplit : applied ++ [predicate] ++ rest = all := by simp [hall]
    have hthen := ih hsplit hrest (Nat.succ.inj hlength)
    rw [List.length_append, List.length_singleton] at hthen
    have hentry : sheet.narrowing all condition applied.length =
        { condition
          candidates := (sheet.candidates (applied ++ [predicate])).count table.rows
          skipped := (sheet.candidates applied).isEmpty } := by
      rw [Sheet.narrowing, hafter, hbefore, Sheet.isEmpty_candidates, h.rows_eq,
        Candidates.count_eq_length, Sheet.listed_candidates]
    rw [List.zip_cons_cons, narrowAll, hnarrow, List.zipIdx_cons, List.flatMap_cons,
      List.findSome?_append, List.zipIdx_cons, List.map_cons]
    refine settle_bind ?_
    simp only [hentry, hthen]
    exact settle_bind_pure (fun final : Candidates × List Narrowing => (final.1, _ :: final.2)) _ _

/-! ## Projecting the survivors -/

theorem projection_eq (h : table.Shows sheet) {column : Nat} {columnType : ColumnType}
    (htype : table.namedType column = .ok columnType) (form : DictionaryForm) :
    table.projection (sheet.candidates predicates) form column =
      settle ((sheet.projected predicates column).findSome? sheet.fault?)
        { column, values := (sheet.content column).valuesAt form (sheet.survivors predicates) } := by
  obtain ⟨source, hsource, hholds⟩ := h.holds htype
  have hsize := h.size_eq htype
  have hcandidates := sheet.candidates_within predicates
  rw [← hsize] at hcandidates
  have hresult := Column.project_result hholds (h.sound htype) hcandidates form
  rw [hsize, Sheet.listed_candidates] at hresult
  unfold projection
  rw [hsource]
  show ((source.project (sheet.candidates predicates) form).result >>= fun values => pure _) = _
  rw [hresult, Sheet.projected, List.findSome?_map]
  exact map_settle _ _ _

/-- The projections are made in turn, each of them at all survivors. -/
theorem projections_eq (h : table.Shows sheet) {columns : List Nat}
    (htypes : ∀ column ∈ columns, ∃ columnType, table.namedType column = .ok columnType)
    (form : DictionaryForm) :
    columns.mapM (table.projection (sheet.candidates predicates) form) =
      settle (columns.findSome? fun column =>
          (sheet.projected predicates column).findSome? sheet.fault?)
        (columns.map fun column =>
          { column, values := (sheet.content column).valuesAt form (sheet.survivors predicates) }) := by
  apply mapM_eq_settle
  intro column hcolumn
  obtain ⟨columnType, htype⟩ := htypes column hcolumn
  exact projection_eq h htype form

/-- A checked query fails with the first fault that the scan comes to. If it comes to none, the query
    is answered as the sheet says. -/
theorem scan_eq (h : table.Shows sheet) (hcheck : table.check query = .ok predicates)
    (form : DictionaryForm) :
    table.scan query form =
      settle (sheet.firstFault? query predicates) (sheet.answer query predicates form) := by
  obtain ⟨hconditions, hprojections⟩ := check_eq_ok.mp hcheck
  have haccepts : ∀ predicate ∈ predicates, table.Accepts predicate :=
    accepts_of_conditions hconditions
  have hall : [] ++ predicates = predicates := List.nil_append predicates
  have hnarrow := narrowAll_eq h hall haccepts hconditions.length_eq
  unfold scan
  rw [hcheck]
  show (table.narrowAll (query.conditions.zip predicates) .unbounded >>= fun _ => _) = _
  rw [← Sheet.candidates_nil, hnarrow, Sheet.firstFault?, Sheet.met, List.findSome?_append]
  refine settle_bind ?_
  show (query.projections.mapM (table.projection (sheet.candidates predicates) form) >>= fun _ => _) = _
  rw [projections_eq h hprojections form, findSome?_flatMap,
    Candidates.count_eq_length, h.rows_eq]
  rw [Sheet.listed_candidates]
  exact settle_bind_pure _ _ _

end Table

end Pushdown
