-- SUMMARY: When comparing keys is comparing the texts that they stand for.
import Pushdown.Proofs.Memory.Making

/-!
# Keys in place of texts

A filter on a dictionary column looks up one key for its operand and compares keys. That finds the rows whose
text is the operand if the dictionary translates the keys of the column: the key looked up for a text is the
one that stands for it. A dictionary in which no text is repeated does. One with a repeated text is accepted
as well, and then the rows whose key is not the first of that text are lost, so the condition is not only
sufficient but necessary.
-/

namespace Pushdown

/-- Looking up the key of a text, and the text of a key, are inverse on the keys. -/
def Dictionary.Translates (texts : Dictionary) (keys : List UInt32) : Prop :=
  ∀ key ∈ keys, ∀ text, texts.keyOf? text = some key ↔ texts.textOf key = .ok text

theorem Dictionary.Sound.translates {texts : Dictionary} (h : texts.Sound) {keys : List UInt32}
    (hkeys : ∀ key ∈ keys, key.toNat < texts.size) : texts.Translates keys := by
  intro key hkey text
  rw [keyOf?_eq_some h (hkeys key hkey), textOf_eq_ok]

/-- Filtering the column by equality keeps those of the candidate rows whose text is the operand. -/
def Column.FiltersTexts {δ : Type → Type} (column : Column δ) (texts : List String) : Prop :=
  ∀ position operand candidates, candidates.Within texts.length →
    (column.filter ⟨position, .equal, .utf8 operand⟩ candidates).result =
      .ok (.ofAscending ((candidates.listed texts.length).filter fun row => texts[row]? = some operand))

/-! ## Rows that a filter selects -/

namespace Column

variable {δ : Type → Type} {column : Column δ} {content : Content} {texts : List String}

/-- Rows of the candidates are kept by their texts if all rows of the column are. -/
theorem Serves.filtersTexts_iff (h : column.Serves (fun _ => False) content)
    (hfits : ∀ operand, (Operand.utf8 operand).fits content.columnType = true)
    (hsize : content.size = texts.length) :
    column.FiltersTexts texts ↔ ∀ position operand row, row < texts.length →
      content.selects ⟨position, .equal, .utf8 operand⟩ row = decide (texts[row]? = some operand) := by
  have hresult : ∀ (position : Nat) (operand : String) {candidates : Candidates},
      candidates.Within texts.length →
        (column.filter ⟨position, .equal, .utf8 operand⟩ candidates).result =
          .ok (.ofAscending ((candidates.listed texts.length).filter
            (content.selects ⟨position, .equal, .utf8 operand⟩))) := by
    intro position operand candidates hcandidates
    rw [← hsize] at hcandidates ⊢
    have hsuits : Predicate.suits (⟨position, .equal, .utf8 operand⟩ : Predicate).op content.columnType = true :=
      rfl
    obtain ⟨kept, hkept, rfl⟩ := (filter_ends h hsuits (hfits operand) hcandidates).exists_ok
    exact hkept
  constructor
  · intro hfilters position operand row hrow
    have hall := Candidates.within_unbounded texts.length
    have hsame := (hresult position operand hall).symm.trans (hfilters position operand _ hall)
    have hlisted := congrArg (Candidates.listed texts.length) (Except.ok.inj hsame)
    rw [Candidates.listed_ofAscending, Candidates.listed_ofAscending] at hlisted
    have hin : row ∈ Candidates.listed texts.length .unbounded := List.mem_range.mpr hrow
    have hkept := congrArg (row ∈ ·) hlisted
    simp only [List.mem_filter, and_iff_right hin, eq_iff_iff] at hkept
    exact Bool.eq_iff_iff.mpr hkept
  · intro hrows position operand candidates hcandidates
    rw [hresult position operand hcandidates]
    congr 2
    exact List.filter_congr fun row hrow => hrows position operand row (hcandidates.lt row hrow)

end Column

namespace Cells

variable {α : Type} [DecidableEq α]

/-- A test for one value. -/
theorem passes_ofValues {values : List α} {test : α → Bool} {value : α}
    (h : ∀ x, test x = decide (x = value)) (row : Nat) :
    passes (ofValues values) test row = decide (values[row]? = some value) := by
  rw [passes, value?_ofValues]
  cases values[row]? <;> simp [h]

end Cells

/-- A column of plain texts is filtered by its texts. -/
theorem filtersTexts_utf8 (chunks : List (List String)) :
    Column.FiltersTexts (.utf8 (.ofChunks chunks) : Column ChunkDecoder) chunks.flatten := by
  have hserves : Column.Serves (fun _ => False) (.utf8 (.ofChunks chunks) : Column ChunkDecoder)
      (.utf8 (.ofValues chunks.flatten)) := .utf8 (ColumnChunks.servesCells_ofChunks chunks)
  rw [hserves.filtersTexts_iff (fun _ => rfl) (Cells.length_ofValues _)]
  intro position operand row _
  exact Cells.passes_ofValues (fun text => Comparison.holds_equal_text text operand) row

/-! ## Keys -/

variable {keys : List UInt32} {texts : Dictionary} {resolved : List String}

/-- A filter selects the row if its key is the one of the operand. -/
theorem selects_key (position : Nat) (operand : String) {row : Nat} {key : UInt32}
    (hkey : keys[row]? = some key) :
    (Content.dictionary keys texts).selects ⟨position, .equal, .utf8 operand⟩ row =
      decide (texts.keyOf? operand = some key) := by
  show ((texts.keyOf? operand).any fun target =>
    (Cells.ofValues keys).passes (Comparison.equal.holds · target) row) = _
  cases texts.keyOf? operand with
  | none => simp
  | some target =>
    rw [Option.any_some, Cells.passes_ofValues fun x => Comparison.holds_equal_key x target, hkey]
    simp [eq_comm]

/-- The column is filtered by the texts of its keys exactly if the dictionary translates them. -/
theorem filtersTexts_dictionary_iff {chunks : List (List UInt32)}
    (hkeys : ∀ key ∈ chunks.flatten, key.toNat < texts.size)
    (hresolved : List.Forall₂ (fun key text => texts.textOf key = .ok text) chunks.flatten resolved) :
    Column.FiltersTexts (.dictionary (.ofChunks chunks) texts : Column ChunkDecoder) resolved ↔
      texts.Translates chunks.flatten := by
  have hserves : Column.Serves (fun _ => False) (.dictionary (.ofChunks chunks) texts : Column ChunkDecoder)
      (.dictionary chunks.flatten texts) := .dictionary (ColumnChunks.servesCells_ofChunks chunks) hkeys
  have hlength := hresolved.length_eq
  -- at a row of a key the two sides of the condition on rows are those of the condition on keys
  have hrow : ∀ {row : Nat} {key : UInt32} (position : Nat) (operand : String),
      chunks.flatten[row]? = some key →
        ((Content.dictionary chunks.flatten texts).selects ⟨position, .equal, .utf8 operand⟩ row =
            decide (resolved[row]? = some operand) ↔
          (texts.keyOf? operand = some key ↔ texts.textOf key = .ok operand)) := by
    intro row key position operand hkey
    obtain ⟨hlt, hget⟩ := List.getElem?_eq_some_iff.mp hkey
    have hlt' : row < resolved.length := hlength ▸ hlt
    have htext : texts.textOf key = .ok resolved[row] := hget ▸ hresolved.get hlt hlt'
    rw [selects_key position operand hkey, decide_eq_decide, htext, List.getElem?_eq_getElem hlt',
      Option.some_inj, Except.ok.injEq]
  rw [hserves.filtersTexts_iff (fun _ => rfl) hlength]
  constructor
  · intro hall key hkey operand
    obtain ⟨row, hfound⟩ := List.mem_iff_getElem?.mp hkey
    obtain ⟨hlt, -⟩ := List.getElem?_eq_some_iff.mp hfound
    exact (hrow 0 operand hfound).mp (hall 0 operand row (hlength ▸ hlt))
  · intro htranslates position operand row hlt
    have hfound := List.getElem?_eq_getElem (hlength.symm ▸ hlt)
    exact (hrow position operand hfound).mpr (htranslates _ (List.mem_of_getElem? hfound) operand)

/-- A dictionary column that is made has a text for every key, and filtering the column of these texts keeps
    the rows whose text is the operand. Filtering the dictionary column itself does so exactly if the
    dictionary translates its keys. -/
theorem filters_like_texts_iff {name : String} {chunks : List (List UInt32)} {column : MemoryColumn}
    (h : MemoryColumn.ofDictionary name chunks texts = .ok column) :
    ∃ source resolved, column.data.source = .ok source ∧
      (chunks.mapM fun chunk => chunk.mapM texts.textOf) = .ok resolved ∧
      Column.FiltersTexts (.utf8 (.ofChunks resolved) : Column ChunkDecoder) resolved.flatten ∧
      (source.FiltersTexts resolved.flatten ↔ texts.Translates chunks.flatten) := by
  obtain ⟨rfl, hkeys⟩ := MemoryColumn.ofDictionary_eq_ok.mp h
  have hchunks : ∀ chunk ∈ chunks, ∃ resolved, chunk.mapM texts.textOf = .ok resolved :=
    fun chunk hchunk => ⟨_, Dictionary.mapM_textOf fun key hkey =>
      hkeys key (List.mem_flatten.mpr ⟨chunk, hchunk, hkey⟩)⟩
  obtain ⟨resolved, hresolved⟩ := exists_mapM.mpr hchunks
  have hflatten : List.Forall₂ (fun key text => texts.textOf key = .ok text) chunks.flatten
      resolved.flatten :=
    List.rel_flatten ((mapM_eq_ok.mp hresolved).imp fun _ _ hchunk => mapM_eq_ok.mp hchunk)
  exact ⟨_, resolved, rfl, hresolved, filtersTexts_utf8 resolved, filtersTexts_dictionary_iff hkeys hflatten⟩

/-- Two texts, one of them in two rows. -/
theorem filters_like_distinct_texts :
    let texts : Dictionary := ⟨["a", "b"]⟩
    let column : MemoryColumn := ⟨"key", .dictionary [[0, 1], [0]] texts⟩
    MemoryColumn.ofDictionary "key" [[0, 1], [0]] texts = .ok column ∧
      ∃ source, column.data.source = .ok source ∧ source.FiltersTexts ["a", "b", "a"] := by
  intro texts column
  have hmade : MemoryColumn.ofDictionary "key" [[0, 1], [0]] texts = .ok column := rfl
  have htexts : texts.Sound := ⟨by decide, by simp [texts, Dictionary.size, UInt32.size]⟩
  obtain ⟨source, resolved, hsource, hresolved, -, hiff⟩ := filters_like_texts_iff hmade
  cases hresolved
  refine ⟨hmade, source, hsource, hiff.mpr (htexts.translates ?_)⟩
  simp [texts, Dictionary.size]

/-- A text that is repeated is found in the first of its rows only. -/
theorem repeated_text_loses_row :
    let column : MemoryColumn := ⟨"key", .dictionary [[0, 1]] ⟨["a", "a"]⟩⟩
    MemoryColumn.ofDictionary "key" [[0, 1]] ⟨["a", "a"]⟩ = .ok column ∧
      ([[0, 1]].mapM fun chunk => chunk.mapM (Dictionary.textOf ⟨["a", "a"]⟩)) = .ok [["a", "a"]] ∧
      (Column.filter (.utf8 (.ofChunks [["a", "a"]]) : Column ChunkDecoder) ⟨0, .equal, .utf8 "a"⟩
        .unbounded).result = .ok (.bounded [0, 1]) ∧
      ∃ source, column.data.source = .ok source ∧
        (source.filter ⟨0, .equal, .utf8 "a"⟩ .unbounded).result = .ok (.bounded [0]) := by
  intro column
  refine ⟨rfl, rfl, ?_, _, rfl, ?_⟩
  · exact filtersTexts_utf8 [["a", "a"]] 0 "a" .unbounded (Candidates.within_unbounded 2)
  · decide

end Pushdown
