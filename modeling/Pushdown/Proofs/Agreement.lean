-- SUMMARY: Tables that hold the same values answer alike, whatever stores them.
import Pushdown.Proofs.Scan

/-!
# Tables that agree

Two outcomes are alike when both are the same value, or both are failures with the same cause. Two columns
have the same content up to the dictionary if the texts behind the keys are what the other holds as plain
text. Tables whose columns are the same in this sense read the same predicates from a query, come to the
same cells and let the same rows survive, so they answer it alike as long as texts are handed out as texts.
-/

namespace Pushdown

/-! ## Outcomes that are alike -/

/-- The failures have the same cause, whatever they say of where it was found. -/
def Failure.SameCause (first second : Failure) : Prop := first.ctorIdx = second.ctorIdx

variable {β γ : Type}

/-- Both outcomes are values that stand in the relation, or failures with the same cause. -/
inductive Alike (R : β → γ → Prop) : Except Failure β → Except Failure γ → Prop
  | ok {first : β} {second : γ} (h : R first second) : Alike R (.ok first) (.ok second)
  | error {first second : Failure} (h : first.SameCause second) : Alike R (.error first) (.error second)

namespace Alike

variable {R : β → γ → Prop} {first : Except Failure β} {second : Except Failure γ}

theorem of_eq {first second : Except Failure β} (h : first = second) : Alike (· = ·) first second := by
  subst h
  cases first with
  | ok value => exact .ok rfl
  | error e => exact .error rfl

theorem eq_ok {value : β} {second : Except Failure β} (h : Alike (· = ·) (.ok value) second) :
    second = .ok value := by
  cases h with
  | ok hsame => rw [hsame]

theorem symm {first second : Except Failure β} (h : Alike (· = ·) first second) :
    Alike (· = ·) second first := by
  cases h with
  | ok h => exact .ok h.symm
  | error h => exact .error h.symm

theorem trans {first second third : Except Failure β} (h : Alike (· = ·) first second)
    (h' : Alike (· = ·) second third) : Alike (· = ·) first third := by
  cases h with
  | ok h =>
    cases h' with
    | ok h' => exact .ok (h.trans h')
  | error h =>
    cases h' with
    | error h' => exact .error (h.trans h')

/-- Values in the relation go on alike if they do so one by one. -/
theorem bind {β' γ' : Type} {R' : β' → γ' → Prop} {next : β → Except Failure β'}
    {next' : γ → Except Failure γ'} (h : Alike R first second)
    (hnext : ∀ {value value'}, R value value' → Alike R' (next value) (next' value')) :
    Alike R' (first >>= next) (second >>= next') := by
  cases h with
  | ok h => exact hnext h
  | error h => exact .error h

theorem mapM {α : Type} {f : α → Except Failure β} {g : α → Except Failure γ} {entries : List α}
    (h : ∀ entry, Alike R (f entry) (g entry)) :
    Alike (List.Forall₂ R) (entries.mapM f) (entries.mapM g) := by
  induction entries with
  | nil => exact .ok .nil
  | cons entry entries ih =>
    rw [List.mapM_cons, List.mapM_cons]
    exact (h entry).bind fun hentry => ih.bind fun hrest => .ok (.cons hentry hrest)

theorem forM {α : Type} {f g : α → Except Failure Unit} {entries : List α}
    (h : ∀ entry, Alike (· = ·) (f entry) (g entry)) :
    Alike (· = ·) (entries.forM f) (entries.forM g) := by
  induction entries with
  | nil => exact .ok rfl
  | cons entry entries ih => exact (h entry).bind fun _ => ih

theorem discard (h : Alike R first second) :
    Alike (· = ·) (Functor.discard first) (Functor.discard second) := by
  cases h with
  | ok h => exact .ok rfl
  | error h => exact .error h

end Alike

/-! ## Sheets with the same values -/

/-- The type without the dictionary. -/
def ColumnType.plain : ColumnType → ColumnType
  | .dictionary => .utf8
  | columnType => columnType

theorem Content.columnType_plain (content : Content) :
    content.plain.columnType = content.columnType.plain := by
  cases content <;> rfl

namespace Sheet

variable {sheet other : Sheet}

/-- The columns hold the same values, be it as plain text or through a dictionary. -/
def SameColumn (sheet other : Sheet) (column : Nat) : Prop :=
  (sheet.content column).plain = (other.content column).plain

variable {column : Nat}

theorem SameColumn.satisfies_eq {predicate : Predicate}
    (h : SameColumn sheet other predicate.column) :
    sheet.satisfies predicate = other.satisfies predicate := by
  funext row
  rw [satisfies, satisfies, ← Content.satisfies_plain, h, Content.satisfies_plain]

theorem SameColumn.fault?_eq (h : SameColumn sheet other column) (row : Nat) :
    sheet.fault? ⟨column, row⟩ = other.fault? ⟨column, row⟩ := by
  show (sheet.content column).fault? row = (other.content column).fault? row
  rw [← Content.fault?_plain, h, Content.fault?_plain]

theorem SameColumn.valuesAt_eq (h : SameColumn sheet other column) :
    (sheet.content column).valuesAt .strings = (other.content column).valuesAt .strings := by
  rw [← Content.valuesAt_plain, h, Content.valuesAt_plain]

theorem survivors_congr (hrows : sheet.rows = other.rows) {predicates : List Predicate}
    (h : ∀ predicate ∈ predicates, SameColumn sheet other predicate.column) :
    sheet.survivors predicates = other.survivors predicates := by
  rw [survivors, survivors, hrows]
  apply List.filter_congr
  intro row _
  rw [Bool.eq_iff_iff, List.all_eq_true, List.all_eq_true]
  exact forall₂_congr fun predicate hpredicate => by rw [(h predicate hpredicate).satisfies_eq]

variable {query : Query} {predicates : List Predicate}

theorem met_congr (hrows : sheet.rows = other.rows)
    (h : ∀ predicate ∈ predicates, SameColumn sheet other predicate.column) (query : Query) :
    sheet.met query predicates = other.met query predicates := by
  have htested : ∀ predicate position, sheet.tested predicates predicate position =
      other.tested predicates predicate position := by
    intro predicate position
    rw [tested, tested, survivors_congr hrows fun earlier hearlier =>
      h earlier (List.mem_of_mem_take hearlier)]
  simp only [met, htested, projected, survivors_congr hrows h]

theorem firstFault?_congr (hrows : sheet.rows = other.rows)
    (h : ∀ predicate ∈ predicates, SameColumn sheet other predicate.column)
    (hprojections : ∀ column ∈ query.projections, SameColumn sheet other column) :
    sheet.firstFault? query predicates = other.firstFault? query predicates := by
  rw [firstFault?, firstFault?, ← met_congr hrows h, ← List.head?_filterMap, ← List.head?_filterMap]
  congr 1
  apply List.filterMap_congr
  intro place hplace
  rcases (place_of_mem_met hplace).2 with ⟨predicate, hpredicate, hcolumn⟩ | hcolumn
  · exact (hcolumn ▸ h predicate hpredicate).fault?_eq place.row
  · exact (hprojections place.column hcolumn).fault?_eq place.row

theorem answer_congr (hrows : sheet.rows = other.rows)
    (h : ∀ predicate ∈ predicates, SameColumn sheet other predicate.column)
    (hprojections : ∀ column ∈ query.projections, SameColumn sheet other column) :
    sheet.answer query predicates .strings = other.answer query predicates .strings := by
  have hnarrowing : sheet.narrowing predicates = other.narrowing predicates := by
    funext condition position
    have htake : ∀ n, sheet.survivors (predicates.take n) = other.survivors (predicates.take n) :=
      fun n => survivors_congr hrows fun earlier hearlier => h earlier (List.mem_of_mem_take hearlier)
    rw [narrowing, narrowing, htake, htake]
  have hcolumns : (query.projections.map fun column =>
        (⟨column, (sheet.content column).valuesAt .strings (sheet.survivors predicates)⟩ : Projection)) =
      query.projections.map fun column =>
        ⟨column, (other.content column).valuesAt .strings (other.survivors predicates)⟩ := by
    apply List.map_congr_left
    intro column hcolumn
    rw [survivors_congr hrows h, (hprojections column hcolumn).valuesAt_eq]
  rw [answer, answer, hcolumns, hnarrowing, candidates, candidates, survivors_congr hrows h]

end Sheet

/-! ## Tables with the same values -/

/-- Types that differ at most in the dictionary make the same predicates of text. -/
theorem Predicate.parse_alike {columnType other : ColumnType} (h : columnType.plain = other.plain)
    (column : Nat) (op : Comparison) (text : String) :
    Alike (· = ·) (parse column columnType op text) (parse column other op text) := by
  by_cases hsame : columnType = other
  · exact .of_eq (by rw [hsame])
  · have htext : columnType.plain = .utf8 ∧ other.plain = .utf8 := by
      cases columnType <;> cases other <;> first | exact absurd rfl hsame | exact ⟨rfl, rfl⟩ | cases h
    have hparse : ∀ columnType : ColumnType, columnType.plain = .utf8 →
        parse column columnType op text = if op = .equal then .ok ⟨column, op, .utf8 text⟩
          else .error (.unsupportedOperator column op columnType) := by
      intro columnType hplain
      cases columnType with
      | float64 | int32 => cases hplain
      | utf8 | dictionary => cases op <;> rfl
    rw [hparse columnType htext.1, hparse other htext.2]
    by_cases hop : op = .equal
    · rw [if_pos hop, if_pos hop]
      exact .ok rfl
    · rw [if_neg hop, if_neg hop]
      exact .error rfl

namespace Table

variable {δ ε : Type → Type} {table : Table δ} {other : Table ε} {sheet otherSheet : Sheet}

/-- The columns that have a type in both tables hold the same values. -/
structure SameColumns (table : Table δ) (other : Table ε) (sheet otherSheet : Sheet) : Prop where
  shows_sheet : table.Shows sheet
  shows_other : other.Shows otherSheet
  rows_eq : sheet.rows = otherSheet.rows
  sameColumn : ∀ {column columnType otherType}, table.namedType column = .ok columnType →
    other.namedType column = .ok otherType → sheet.SameColumn otherSheet column

variable {query : Query} {predicates otherPredicates : List Predicate}

theorem SameColumns.plain_eq (h : table.SameColumns other sheet otherSheet) {column : Nat}
    {columnType otherType : ColumnType} (htype : table.namedType column = .ok columnType)
    (hother : other.namedType column = .ok otherType) : columnType.plain = otherType.plain := by
  rw [← h.shows_sheet.columnType_eq htype, ← h.shows_other.columnType_eq hother,
    ← Content.columnType_plain, ← Content.columnType_plain, h.sameColumn htype hother]

/-- A condition that stands for a predicate in both tables stands for the same one. -/
theorem SameColumns.predicate_eq (h : table.SameColumns other sheet otherSheet) {condition : Condition}
    {predicate otherPredicate : Predicate} (hpredicate : table.predicate condition = .ok predicate)
    (hother : other.predicate condition = .ok otherPredicate) :
    predicate = otherPredicate ∧ sheet.SameColumn otherSheet predicate.column := by
  obtain ⟨columnType, htype, hparse⟩ := bind_eq_ok.mp hpredicate
  obtain ⟨otherType, hotherType, hotherParse⟩ := bind_eq_ok.mp hother
  have halike := Predicate.parse_alike (h.plain_eq htype hotherType) condition.column condition.op
    condition.operand
  rw [hparse, hotherParse] at halike
  rw [(Predicate.parse_eq_ok hparse).1]
  cases halike with
  | ok hsame => exact ⟨hsame, h.sameColumn htype hotherType⟩

theorem SameColumns.predicates_eq (h : table.SameColumns other sheet otherSheet)
    {conditions : List Condition}
    (hpredicates : List.Forall₂ (fun condition predicate => table.predicate condition = .ok predicate)
      conditions predicates)
    (hothers : List.Forall₂ (fun condition predicate => other.predicate condition = .ok predicate)
      conditions otherPredicates) :
    predicates = otherPredicates ∧
      ∀ predicate ∈ predicates, sheet.SameColumn otherSheet predicate.column := by
  induction hpredicates generalizing otherPredicates with
  | nil =>
    cases hothers
    exact ⟨rfl, by simp⟩
  | cons hpredicate _ ih =>
    cases hothers with
    | cons hother hrest =>
      obtain ⟨rfl, hcolumn⟩ := h.predicate_eq hpredicate hother
      obtain ⟨rfl, hcolumns⟩ := ih hrest
      exact ⟨rfl, List.forall_mem_cons.mpr ⟨hcolumn, hcolumns⟩⟩

/-- A query that both tables accept is answered by both alike, or fails in both alike. -/
theorem SameColumns.scan_eq (h : table.SameColumns other sheet otherSheet)
    (hcheck : table.check query = .ok predicates) (hother : other.check query = .ok otherPredicates) :
    table.scan query .strings = other.scan query .strings := by
  obtain ⟨hconditions, hprojections⟩ := check_eq_ok.mp hcheck
  obtain ⟨hotherConditions, hotherProjections⟩ := check_eq_ok.mp hother
  obtain ⟨rfl, hcolumns⟩ := h.predicates_eq hconditions hotherConditions
  have hprojected : ∀ column ∈ query.projections, sheet.SameColumn otherSheet column := by
    intro column hcolumn
    obtain ⟨columnType, htype⟩ := hprojections column hcolumn
    obtain ⟨otherType, hotherType⟩ := hotherProjections column hcolumn
    exact h.sameColumn htype hotherType
  rw [Table.scan_eq h.shows_sheet hcheck, Table.scan_eq h.shows_other hother,
    Sheet.firstFault?_congr h.rows_eq hcolumns hprojected, Sheet.answer_congr h.rows_eq hcolumns hprojected]

/-- Answers of both tables to a query are the same. -/
theorem SameColumns.answer_eq (h : table.SameColumns other sheet otherSheet) {answer otherAnswer : Answer}
    (hscan : table.scan query .strings = .ok answer)
    (hother : other.scan query .strings = .ok otherAnswer) : answer = otherAnswer := by
  obtain ⟨predicates, hcheck, -⟩ := bind_eq_ok.mp hscan
  obtain ⟨otherPredicates, hotherCheck, -⟩ := bind_eq_ok.mp hother
  rw [h.scan_eq hcheck hotherCheck, hother] at hscan
  exact (Except.ok.inj hscan).symm

theorem check_alike
    (htypes : ∀ column, Alike (fun columnType otherType => columnType.plain = otherType.plain)
      (table.namedType column) (other.namedType column)) (query : Query) :
    Alike (· = ·) (table.check query) (other.check query) := by
  have hpredicate : ∀ condition, Alike (· = ·) (table.predicate condition) (other.predicate condition) :=
    fun condition => (htypes condition.column).bind fun hplain => Predicate.parse_alike hplain ..
  refine (Alike.mapM hpredicate).bind fun {predicates others} hsame => ?_
  rw [List.forall₂_eq_eq_eq] at hsame
  subst hsame
  exact (Alike.forM fun column => (htypes column).discard).bind fun _ => .ok rfl

/-- Tables that also give their columns the same types, up to dictionaries, answer every query alike. -/
theorem SameColumns.scan_alike (h : table.SameColumns other sheet otherSheet)
    (htypes : ∀ column, Alike (fun columnType otherType => columnType.plain = otherType.plain)
      (table.namedType column) (other.namedType column)) (query : Query) :
    Alike (· = ·) (table.scan query .strings) (other.scan query .strings) := by
  have hcheck := check_alike htypes query
  cases hfirst : table.check query with
  | ok predicates =>
    cases hsecond : other.check query with
    | ok otherPredicates => exact .of_eq (h.scan_eq hfirst hsecond)
    | error e =>
      rw [hfirst, hsecond] at hcheck
      cases hcheck
  | error e =>
    cases hsecond : other.check query with
    | ok otherPredicates =>
      rw [hfirst, hsecond] at hcheck
      cases hcheck
    | error e' =>
      rw [hfirst, hsecond] at hcheck
      rw [scan, scan, hfirst, hsecond]
      cases hcheck with
      | error hcause => exact .error hcause

end Table

end Pushdown
