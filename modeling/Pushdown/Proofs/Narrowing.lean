-- SUMMARY: A filter that succeeds has made a set in its one form, and a part of the set it was given.
import Pushdown.Column
import Pushdown.Memory.Chunk
import Pushdown.Proofs.Candidates
import Pushdown.Proofs.Scan
import Pushdown.Proofs.Segments.Order

/-!
# Narrowing candidates

A stage can be given any list of rows, in any order, and its column may fail at any call. If the filter
succeeds, the rows that it was given are known to ascend: the walk that read them has checked it. Hence
binary search finds in them what they list, and what the filter keeps is a part of them.

`Column.filter_cases` says once what a filter can do: be refused, be settled, or walk.
-/

namespace Pushdown

/-- A walk that ends well has handed out its rows in ascending order, each of them one of the set that was
    walked. -/
theorem Segments.walk_ascends {δ α : Type} {segments : Segments δ α} {incoming : Candidates}
    (h : (segments.walk incoming).ending = .ok ()) :
    ((segments.walk incoming).visited.map (·.1)).Pairwise (· < ·) ∧
      ∀ row ∈ (segments.walk incoming).visited.map (·.1), incoming.contains row = true := by
  cases incoming with
  | unbounded => exact ⟨walkAll_ascend segments, fun _ _ => rfl⟩
  | empty => exact ⟨.nil, nofun⟩
  | bounded rows =>
    obtain ⟨hvisited, hascend, -⟩ := walkRows_ascend h
    have hrows : (segments.walk (.bounded rows)).visited.map (·.1) = rows := hvisited
    rw [hrows]
    exact ⟨hascend, fun row => (Candidates.contains_bounded hascend).mpr⟩

theorem Segments.narrows_of_filter {δ α : Type} {segments : Segments δ α} {incoming narrowed : Candidates}
    {test : α → Bool} (h : (segments.filter incoming test).result = .ok narrowed) :
    narrowed.Narrows incoming := by
  change (segments.walk incoming).keep test = .ok narrowed at h
  cases hending : (segments.walk incoming).ending with
  | error e =>
    rw [Walk.keep, hending] at h
    cases h
  | ok =>
    rw [Walk.keep, hending] at h
    cases h
    obtain ⟨hascend, hcontains⟩ := walk_ascends hending
    have hkept : List.Sublist
        (((segments.walk incoming).visited.filter fun visit => test visit.2).map (·.1))
        ((segments.walk incoming).visited.map (·.1)) := List.filter_sublist.map _
    exact Candidates.narrows_ofAscending (hascend.sublist hkept) fun row hrow =>
      hcontains row (hkept.subset hrow)

/-! ## How a filter comes to its outcome -/

namespace Column

variable {δ : Type → Type}

/-- The operand of the predicate is a text that the dictionary of the column does not hold. -/
def Misses (column : Column δ) (predicate : Predicate) : Prop :=
  match column, predicate.operand with
  | .dictionary _ texts, .utf8 operand => texts.keyOf? operand = none
  | _, _ => False

/-- The segments that a filter walks, if it walks at all, and what it tests their values for. -/
inductive Tests : Column δ → Predicate → {α : Type} → Segments (δ α) α → (α → Bool) → Prop
  | float64 {segments : Segments (δ Binary64) Binary64} {position : Nat} {op : Comparison} {operand : Binary64} :
      Tests (.float64 segments) ⟨position, op, .float64 operand⟩ segments (op.holds · operand)
  | int32 {segments : Segments (δ Int32) Int32} {position : Nat} {op : Comparison} {operand : Int32} :
      Tests (.int32 segments) ⟨position, op, .int32 operand⟩ segments (op.holds · operand)
  | utf8 {segments : Segments (δ String) String} {position : Nat} {op : Comparison} {operand : String} :
      Tests (.utf8 segments) ⟨position, op, .utf8 operand⟩ segments (op.holds · operand)
  | dictionary {keys : Segments (δ UInt32) UInt32} {texts : Dictionary} {position : Nat} {op : Comparison}
      {operand : String} {key : UInt32} (hkey : texts.keyOf? operand = some key) :
      Tests (.dictionary keys texts) ⟨position, op, .utf8 operand⟩ keys (op.holds · key)

theorem Tests.not_misses {column : Column δ} {predicate : Predicate} {α : Type} {segments : Segments (δ α) α}
    {test : α → Bool} (h : column.Tests predicate segments test) : ¬ column.Misses predicate := by
  cases h with
  | float64 | int32 | utf8 => exact id
  | @dictionary keys texts position op operand key hkey =>
    intro hmisses
    have hnone : texts.keyOf? operand = none := hmisses
    rw [hkey] at hnone
    cases hnone

/-- A filter is refused, or no row can be left and it is settled, or it walks the segments of the column. -/
theorem filter_cases (column : Column δ) (predicate : Predicate) (incoming : Candidates) :
    (¬ predicate.Applies column.columnType ∧
        ∃ e, column.filter predicate incoming = .settled (.error e)) ∨
      ((incoming.isEmpty = true ∨ column.Misses predicate) ∧
        column.filter predicate incoming = .settled (.ok .empty)) ∨
      ∃ (α : Type) (segments : Segments (δ α) α) (test : α → Bool), column.Tests predicate segments test ∧
        column.filter predicate incoming = segments.filter incoming test := by
  obtain ⟨position, op, operand⟩ := predicate
  unfold filter
  cases hsuits : Predicate.suits op column.columnType with
  | false => exact .inl ⟨fun happlies => Bool.false_ne_true (hsuits.symm.trans happlies.suits), _, rfl⟩
  | true =>
    cases hempty : incoming.isEmpty with
    | true => exact .inr (.inl ⟨.inl rfl, rfl⟩)
    | false =>
      cases column with
      | float64 segments =>
        cases operand with
        | float64 operand => exact .inr (.inr ⟨_, segments, _, .float64, rfl⟩)
        | int32 | utf8 => exact .inl ⟨fun happlies => Bool.false_ne_true happlies.fits, _, rfl⟩
      | int32 segments =>
        cases operand with
        | int32 operand => exact .inr (.inr ⟨_, segments, _, .int32, rfl⟩)
        | float64 | utf8 => exact .inl ⟨fun happlies => Bool.false_ne_true happlies.fits, _, rfl⟩
      | utf8 segments =>
        cases operand with
        | utf8 operand => exact .inr (.inr ⟨_, segments, _, .utf8, rfl⟩)
        | float64 | int32 => exact .inl ⟨fun happlies => Bool.false_ne_true happlies.fits, _, rfl⟩
      | dictionary keys texts =>
        cases operand with
        | float64 | int32 => exact .inl ⟨fun happlies => Bool.false_ne_true happlies.fits, _, rfl⟩
        | utf8 operand =>
          simp only
          cases hkey : texts.keyOf? operand with
          | none => exact .inr (.inl ⟨.inr hkey, rfl⟩)
          | some key => exact .inr (.inr ⟨_, keys, _, .dictionary hkey, rfl⟩)

end Column

/-- Whatever the candidates are and wherever the calls on the column may fail, a filter that succeeds leaves
    no rows or ascending ones, all of them among the candidates. -/
theorem Column.filter_narrows {δ : Type → Type} {column : Column δ} {predicate : Predicate}
    {incoming narrowed : Candidates} (h : (column.filter predicate incoming).result = .ok narrowed) :
    narrowed.Canonical ∧ narrowed.subsetOf incoming = true ∧
      ∀ rows, narrowed.rows? = some rows → ∀ row ∈ rows, incoming.contains row = true := by
  suffices hnarrows : narrowed.Narrows incoming from
    ⟨hnarrows.canonical, hnarrows.subset, hnarrows.contains⟩
  rcases column.filter_cases predicate incoming with
    ⟨-, e, hfilter⟩ | ⟨-, hfilter⟩ | ⟨α, segments, test, -, hfilter⟩
  · rw [hfilter] at h
    cases h
  · rw [hfilter] at h
    cases h
    exact Candidates.narrows_empty _
  · rw [hfilter] at h
    exact Segments.narrows_of_filter h

/-- Rows of a column in three segments, one of them without rows, by its texts. -/
theorem Column.filter_narrows_texts :
    let column : Column ChunkDecoder :=
      .dictionary (.ofChunks [[0, 1], [], [0, 0]]) ⟨["a", "b"]⟩
    let predicate : Predicate := ⟨0, .equal, .utf8 "a"⟩
    (column.filter predicate (.bounded [0, 1, 3])).result = .ok (.bounded [0, 3]) ∧
      (Candidates.bounded [0, 3]).Canonical ∧
      (Candidates.bounded [0, 3]).subsetOf (.bounded [0, 1, 3]) = true ∧
      ∀ rows, (Candidates.bounded [0, 3]).rows? = some rows →
        ∀ row ∈ rows, (Candidates.bounded [0, 1, 3]).contains row = true := by
  intro column predicate
  have hfilter : (column.filter predicate (.bounded [0, 1, 3])).result = .ok (.bounded [0, 3]) := by cbv
  exact ⟨hfilter, filter_narrows hfilter⟩

end Pushdown
