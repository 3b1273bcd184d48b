-- SUMMARY: JSON texts are read in one way only.
import Mathlib
import Pushdown.Command.Json

/-!
# Reading JSON

Where a value ends is told by the value itself and by what may follow one. So the text of an array tells those of
its items, and the text of an object its names and the texts of their values. Strings, integers and truth values are
told by their texts. Double-precision numbers are not, as those that are not finite are all written alike.
-/

namespace Pushdown

namespace Json

/-! ## Values and what follows them -/

/-- The characters that numbers and names of constants are made of. -/
def isWordChar (c : Char) : Bool := c.isAlphanum || c = '.' || c = '+' || c = '-'

/-- What stands behind a value: nothing, a comma or the end of the array or object around it. -/
def Follows (rest : List Char) : Prop := ∀ c ∈ rest.head?, c = ',' ∨ c = ']' ∨ c = '\x7d'

/-- The text of a member of an object. -/
def memberText (name : String) (value : List Char) : List Char := (string name).toList ++ ':' :: value

def memberTexts (members : List (String × List Char)) : List (List Char) :=
  members.map fun (name, value) => memberText name value

/-- The texts of values. -/
inductive Value : List Char → Prop
  | word {first : Char} {chars : List Char} (h : ∀ c ∈ first :: chars, isWordChar c = true) : Value (first :: chars)
  | text (s : String) : Value (string s).toList
  | array {items : List (List Char)} (h : ∀ item ∈ items, Value item) :
      Value ('[' :: ([','].intercalate items ++ [']']))
  | object {members : List (String × List Char)} (h : ∀ member ∈ members, Value member.2) :
      Value ('\x7b' :: ([','].intercalate (memberTexts members) ++ ['\x7d']))

variable {rest rest' : List Char}

/-! ## Strings -/

/-- The characters that are not written as themselves. -/
def escaped : List Char := '"' :: '\\' :: (List.range 32).map Char.ofNat

theorem escapeChar_of_notMem {c : Char} (h : c ∉ escaped) : escapeChar c = [c] := by
  have hcontrol : ¬ c.toNat < 0x20 := fun hlt =>
    h (List.mem_cons_of_mem _ (List.mem_cons_of_mem _
      (List.mem_map.mpr ⟨c.toNat, List.mem_range.mpr hlt, Char.ofNat_toNat c⟩)))
  have hne (special : Char) (hspecial : special ∈ escaped) : c ≠ special := fun hsame => h (hsame ▸ hspecial)
  unfold escapeChar
  split
  case h_8 => exact if_neg hcontrol
  all_goals exact absurd rfl (hne _ (by decide))

theorem head?_escapeChar {c : Char} (h : c ∈ escaped) : (escapeChar c).head? = some '\\' := by
  have hall : (escaped.all fun c => (escapeChar c).head? = some '\\') = true := by decide +kernel
  simpa using List.all_eq_true.mp hall c h

/-- No escape is the beginning of another one. -/
theorem eq_of_escapeChar_starts {c c' : Char} (h : c ∈ escaped) (h' : c' ∈ escaped)
    (hstarts : escapeChar c <+: escapeChar c') : c = c' := by
  have hall : (escaped.all fun c => escaped.all fun c' => !(escapeChar c).isPrefixOf (escapeChar c') || c = c') =
      true := by decide +kernel
  have hpair := List.all_eq_true.mp (List.all_eq_true.mp hall c h) c' h'
  simpa [List.isPrefixOf_iff_prefix.mpr hstarts] using hpair

theorem exists_escapeChar (c : Char) : ∃ first chars, escapeChar c = first :: chars ∧ first ≠ '"' := by
  by_cases hc : c ∈ escaped
  · obtain ⟨chars, hchars⟩ := List.head?_eq_some_iff.mp (head?_escapeChar hc)
    exact ⟨'\\', chars, hchars, by decide⟩
  · refine ⟨c, [], escapeChar_of_notMem hc, ?_⟩
    rintro rfl
    exact hc List.mem_cons_self

theorem escapeChar_append_inj {c c' : Char} (h : escapeChar c ++ rest = escapeChar c' ++ rest') :
    c = c' ∧ rest = rest' := by
  have hbackslash : '\\' ∈ escaped := by decide
  by_cases hc : c ∈ escaped
  · by_cases hc' : c' ∈ escaped
    · obtain rfl : c = c' := by
        rcases List.prefix_or_prefix_of_prefix (List.prefix_append _ rest) (h ▸ List.prefix_append _ rest') with hle | hle
        · exact eq_of_escapeChar_starts hc hc' hle
        · exact (eq_of_escapeChar_starts hc' hc hle).symm
      exact ⟨rfl, List.append_cancel_left h⟩
    · obtain ⟨chars, hchars⟩ := List.head?_eq_some_iff.mp (head?_escapeChar hc)
      rw [hchars, escapeChar_of_notMem hc'] at h
      exact absurd ((List.cons.inj h).1 ▸ hbackslash) hc'
  · rw [escapeChar_of_notMem hc] at h
    by_cases hc' : c' ∈ escaped
    · obtain ⟨chars, hchars⟩ := List.head?_eq_some_iff.mp (head?_escapeChar hc')
      rw [hchars] at h
      exact absurd ((List.cons.inj h).1 ▸ hbackslash) hc
    · rw [escapeChar_of_notMem hc'] at h
      exact List.cons.inj h

theorem escaped_append_inj {cs cs' : List Char}
    (h : cs.flatMap escapeChar ++ '"' :: rest = cs'.flatMap escapeChar ++ '"' :: rest') : cs = cs' ∧ rest = rest' := by
  induction cs generalizing cs' with
  | nil =>
    cases cs' with
    | nil => exact ⟨rfl, (List.cons.inj h).2⟩
    | cons c' cs' =>
      obtain ⟨first, chars, hchars, hfirst⟩ := exists_escapeChar c'
      rw [List.flatMap_cons, hchars] at h
      exact absurd (List.cons.inj h).1.symm hfirst
  | cons c cs ih =>
    cases cs' with
    | nil =>
      obtain ⟨first, chars, hchars, hfirst⟩ := exists_escapeChar c
      rw [List.flatMap_cons, hchars] at h
      exact absurd (List.cons.inj h).1 hfirst
    | cons c' cs' =>
      rw [List.flatMap_cons, List.flatMap_cons, List.append_assoc, List.append_assoc] at h
      obtain ⟨rfl, hchars⟩ := escapeChar_append_inj h
      obtain ⟨rfl, hrest⟩ := ih hchars
      exact ⟨rfl, hrest⟩

theorem toList_string (s : String) : (string s).toList = '"' :: (s.toList.flatMap escapeChar ++ ['"']) := by
  rw [string, String.toList_ofList]
  rfl

/-- Where a string ends is told by the string alone. -/
theorem string_append_inj {s s' : String} (h : (string s).toList ++ rest = (string s').toList ++ rest') :
    s = s' ∧ rest = rest' := by
  rw [toList_string, toList_string, List.cons_append, List.cons_append, List.append_assoc, List.append_assoc] at h
  obtain ⟨hchars, hrest⟩ := escaped_append_inj (List.cons.inj h).2
  exact ⟨String.toList_inj.mp hchars, hrest⟩

theorem string_injective : Function.Injective string := fun _ _ h =>
  (string_append_inj (congrArg (fun text => String.toList text ++ []) h)).1

/-! ## Items -/

/-- The two texts tell where they end, whatever may follow them. -/
def Told (item item' : List Char) : Prop :=
  ∀ {rest rest' : List Char}, Follows rest → Follows rest' → item ++ rest = item' ++ rest' →
    item = item' ∧ rest = rest'

/-- What stands behind the first item. -/
def behind (close : Char) (rest : List Char) : List (List Char) → List Char
  | [] => close :: rest
  | item :: items => ',' :: (item ++ behind close rest items)

variable {close : Char} {items items' : List (List Char)}

theorem intercalate_append (item : List Char) (items : List (List Char)) (close : Char) (rest : List Char) :
    [','].intercalate (item :: items) ++ close :: rest = item ++ behind close rest items := by
  induction items generalizing item with
  | nil => rw [List.intercalate_singleton, behind]
  | cons next items ih =>
    rw [List.intercalate_cons_cons, List.append_assoc, ih, behind, List.append_assoc]
    rfl

theorem follows_behind (hclose : close = ']' ∨ close = '\x7d') (rest : List Char) (items : List (List Char)) :
    Follows (behind close rest items) := by
  cases items with
  | nil => simpa [behind, Follows] using .inr hclose
  | cons => simp [behind, Follows]

theorem behind_inj (hclose : close = ']' ∨ close = '\x7d')
    (htold : ∀ item ∈ items, ∀ item' ∈ items', Told item item')
    (h : behind close rest items = behind close rest' items') : items = items' ∧ rest = rest' := by
  -- behind an item stands a comma if there are more, and the closing bracket otherwise
  have hcomma : close ≠ ',' := by rcases hclose with rfl | rfl <;> decide
  induction items generalizing items' with
  | nil =>
    cases items' with
    | nil => exact ⟨rfl, (List.cons.inj h).2⟩
    | cons => exact absurd (List.cons.inj h).1 hcomma
  | cons item items ih =>
    cases items' with
    | nil => exact absurd (List.cons.inj h).1.symm hcomma
    | cons item' items' =>
      obtain ⟨rfl, hitems⟩ := htold item List.mem_cons_self item' List.mem_cons_self
        (follows_behind hclose rest items) (follows_behind hclose rest' items') (List.cons.inj h).2
      obtain ⟨rfl, hrest⟩ := ih (fun item hitem item' hitem' =>
        htold item (List.mem_cons_of_mem _ hitem) item' (List.mem_cons_of_mem _ hitem')) hitems
      exact ⟨rfl, hrest⟩

/-- Items between brackets are told by the text, if each of them is and none begins with a bracket that closes. -/
theorem items_inj (hclose : close = ']' ∨ close = '\x7d')
    (htold : ∀ item ∈ items, ∀ item' ∈ items', Told item item')
    (hstart : ∀ item ∈ items ++ items', ∃ first chars, item = first :: chars ∧ first ≠ close)
    (h : [','].intercalate items ++ [close] ++ rest = [','].intercalate items' ++ [close] ++ rest') :
    items = items' ∧ rest = rest' := by
  rw [List.append_assoc, List.append_assoc, List.singleton_append, List.singleton_append] at h
  cases items with
  | nil =>
    cases items' with
    | nil => exact ⟨rfl, (List.cons.inj h).2⟩
    | cons item' items' =>
      obtain ⟨first, chars, rfl, hfirst⟩ := hstart item' (by simp)
      rw [intercalate_append] at h
      exact absurd (List.cons.inj h).1.symm hfirst
  | cons item items =>
    cases items' with
    | nil =>
      obtain ⟨first, chars, rfl, hfirst⟩ := hstart item (by simp)
      rw [intercalate_append] at h
      exact absurd (List.cons.inj h).1 hfirst
    | cons item' items' =>
      rw [intercalate_append, intercalate_append] at h
      exact behind_inj hclose htold (congrArg (List.cons ',') h)

/-! ## Values -/

theorem not_isWordChar_of_follows (h : Follows rest) : rest.takeWhile isWordChar = [] := by
  cases rest with
  | nil => rfl
  | cons c rest =>
    have hc : isWordChar c = false := by
      rcases h c rfl with rfl | rfl | rfl <;> decide
    exact List.takeWhile_cons_of_neg (by simp [hc])

theorem takeWhile_word {chars : List Char} (h : ∀ c ∈ chars, isWordChar c = true) (hrest : Follows rest) :
    (chars ++ rest).takeWhile isWordChar = chars := by
  rw [List.takeWhile_append_of_pos h, not_isWordChar_of_follows hrest, List.append_nil]

/-- A value begins with none of the characters that may follow one. -/
theorem Value.start {t : List Char} (h : Value t) :
    ∃ first chars, t = first :: chars ∧ first ≠ ']' ∧ first ≠ '\x7d' := by
  cases h with
  | @word first chars h =>
    refine ⟨first, chars, rfl, ?_, ?_⟩
    · rintro rfl
      exact absurd (h _ List.mem_cons_self) (by decide)
    · rintro rfl
      exact absurd (h _ List.mem_cons_self) (by decide)
  | text s => exact ⟨_, _, toList_string s, by decide, by decide⟩
  | array => exact ⟨_, _, rfl, by decide, by decide⟩
  | object => exact ⟨_, _, rfl, by decide, by decide⟩

theorem start_of_values (h : ∀ item ∈ items, Value item) (h' : ∀ item ∈ items', Value item) :
    ∀ item ∈ items ++ items', ∃ first chars, item = first :: chars ∧ first ≠ ']' := by
  intro item hitem
  obtain ⟨first, chars, hfirst, hne, -⟩ := (List.forall_mem_append.mpr ⟨h, h'⟩ item hitem).start
  exact ⟨first, chars, hfirst, hne⟩

/-! ## Members -/

theorem start_of_members (members members' : List (String × List Char)) :
    ∀ item ∈ memberTexts members ++ memberTexts members', ∃ first chars, item = first :: chars ∧
      first ≠ '\x7d' := by
  intro item hitem
  rw [memberTexts, memberTexts, ← List.map_append] at hitem
  obtain ⟨⟨name, value⟩, -, rfl⟩ := List.mem_map.mp hitem
  have htext : memberText name value = '"' :: (name.toList.flatMap escapeChar ++ ['"'] ++ ':' :: value) := by
    rw [memberText, toList_string]
    rfl
  exact ⟨'"', _, htext, by decide⟩

theorem memberText_append_inj {name name' : String} {value value' : List Char}
    (h : memberText name value ++ rest = memberText name' value' ++ rest') :
    name = name' ∧ value ++ rest = value' ++ rest' := by
  rw [memberText, memberText, List.append_assoc, List.append_assoc] at h
  obtain ⟨rfl, hvalues⟩ := string_append_inj h
  exact ⟨rfl, (List.cons.inj hvalues).2⟩

theorem told_of_members {members members' : List (String × List Char)}
    (h : ∀ member ∈ members, ∀ member' ∈ members', Told member.2 member'.2) :
    ∀ item ∈ memberTexts members, ∀ item' ∈ memberTexts members', Told item item' := by
  intro item hitem item' hitem' rest rest' hrest hrest' heq
  obtain ⟨⟨name, value⟩, hmember, rfl⟩ := List.mem_map.mp hitem
  obtain ⟨⟨name', value'⟩, hmember', rfl⟩ := List.mem_map.mp hitem'
  obtain ⟨rfl, hvalues⟩ := memberText_append_inj heq
  obtain ⟨rfl, htail⟩ := h _ hmember _ hmember' hrest hrest' hvalues
  exact ⟨rfl, htail⟩

theorem memberTexts_injective : Function.Injective memberTexts := by
  refine List.map_injective_iff.mpr ?_
  rintro ⟨name, value⟩ ⟨name', value'⟩ h
  obtain ⟨rfl, hvalues⟩ := memberText_append_inj (congrArg (· ++ []) h)
  rw [List.append_cancel_right hvalues]

/-! The first character of a value tells what it is. -/

theorem Value.of_word {first : Char} {chars : List Char} (h : Value (first :: chars))
    (hfirst : isWordChar first = true) : ∀ c ∈ first :: chars, isWordChar c = true := by
  generalize ht : first :: chars = t at h
  cases h with
  | word hword => exact hword
  | text s =>
    rw [toList_string] at ht
    rw [(List.cons.inj ht).1] at hfirst
    cases hfirst
  | array | object =>
    rw [(List.cons.inj ht).1] at hfirst
    cases hfirst

theorem Value.of_quote {chars : List Char} (h : Value ('"' :: chars)) :
    ∃ s, '"' :: chars = (string s).toList := by
  generalize ht : '"' :: chars = t at h
  cases h with
  | text s => exact ⟨s, rfl⟩
  | word hword => exact absurd (hword '"' ((List.cons.inj ht).1 ▸ List.mem_cons_self)) (by decide)
  | array | object => exact absurd (List.cons.inj ht).1 (by decide)

theorem Value.of_bracket {chars : List Char} (h : Value ('[' :: chars)) :
    ∃ items, (∀ item ∈ items, Value item) ∧ chars = [','].intercalate items ++ [']'] := by
  generalize ht : '[' :: chars = t at h
  cases h with
  | array hitems => exact ⟨_, hitems, (List.cons.inj ht).2⟩
  | word hword => exact absurd (hword '[' ((List.cons.inj ht).1 ▸ List.mem_cons_self)) (by decide)
  | text s =>
    rw [toList_string] at ht
    exact absurd (List.cons.inj ht).1 (by decide)
  | object => exact absurd (List.cons.inj ht).1 (by decide)

theorem Value.of_brace {chars : List Char} (h : Value ('\x7b' :: chars)) :
    ∃ members : List (String × List Char), (∀ member ∈ members, Value member.2) ∧
      chars = [','].intercalate (memberTexts members) ++ ['\x7d'] := by
  generalize ht : '\x7b' :: chars = t at h
  cases h with
  | object hmembers => exact ⟨_, hmembers, (List.cons.inj ht).2⟩
  | word hword => exact absurd (hword '\x7b' ((List.cons.inj ht).1 ▸ List.mem_cons_self)) (by decide)
  | text s =>
    rw [toList_string] at ht
    exact absurd (List.cons.inj ht).1 (by decide)
  | array => exact absurd (List.cons.inj ht).1 (by decide)

/-- A value is read in one way only. -/
theorem Value.told {t t' : List Char} (h : Value t) (h' : Value t') : Told t t' := by
  -- both texts begin with the same character, so that the second is a value of the same kind
  induction h generalizing t' with
  | @word first chars hword =>
    intro rest rest' hrest hrest' heq
    obtain ⟨first', chars', rfl, -⟩ := h'.start
    obtain rfl : first = first' := (List.cons.inj heq).1
    -- what follows a word does not go on with it
    have hsame := congrArg (List.takeWhile isWordChar) heq
    rw [takeWhile_word hword hrest, takeWhile_word (h'.of_word (hword first List.mem_cons_self)) hrest'] at hsame
    rw [hsame] at heq
    exact ⟨hsame, List.append_cancel_left heq⟩
  | text s =>
    intro rest rest' hrest hrest' heq
    obtain ⟨first', chars', rfl, -⟩ := h'.start
    obtain rfl : '"' = first' := by
      rw [toList_string] at heq
      exact (List.cons.inj heq).1
    obtain ⟨s', hs'⟩ := h'.of_quote
    rw [hs'] at heq ⊢
    obtain ⟨rfl, htail⟩ := string_append_inj heq
    exact ⟨rfl, htail⟩
  | @array items hitems ih =>
    intro rest rest' hrest hrest' heq
    obtain ⟨first', chars', rfl, -⟩ := h'.start
    obtain rfl : '[' = first' := (List.cons.inj heq).1
    obtain ⟨items', hitems', rfl⟩ := h'.of_bracket
    obtain ⟨rfl, htail⟩ := items_inj (.inl rfl)
      (fun item hitem item' hitem' => ih item hitem (hitems' item' hitem')) (start_of_values hitems hitems')
      (List.cons.inj heq).2
    exact ⟨rfl, htail⟩
  | @object members hmembers ih =>
    intro rest rest' hrest hrest' heq
    obtain ⟨first', chars', rfl, -⟩ := h'.start
    obtain rfl : '\x7b' = first' := (List.cons.inj heq).1
    obtain ⟨members', hmembers', rfl⟩ := h'.of_brace
    obtain ⟨hsame, htail⟩ := items_inj (.inr rfl)
      (told_of_members fun member hmember member' hmember' => ih member hmember (hmembers' member' hmember'))
      (start_of_members members members') (List.cons.inj heq).2
    rw [hsame]
    exact ⟨rfl, htail⟩

/-! ## What is written -/

theorem value_of_all {chars : List Char} (hne : chars ≠ []) (h : chars.all isWordChar = true) : Value chars := by
  obtain ⟨first, rest, rfl⟩ := List.exists_cons_of_ne_nil hne
  exact .word (List.all_eq_true.mp h)

@[simp] theorem all_digitChars (n : Nat) : (Decimal.digitChars n).all isWordChar = true := by
  refine List.all_eq_true.mpr fun c hc => ?_
  have hdigit := Nat.isDigit_of_mem_toDigits (by decide) le_rfl hc
  simp [isWordChar, Char.isAlphanum, hdigit]

@[simp] theorem value_nat (n : Nat) : Value (nat n).toList := by
  have hchars : (nat n).toList = Decimal.digitChars n := Nat.toList_repr
  rw [hchars]
  exact value_of_all Nat.toDigits_ne_nil (all_digitChars n)

theorem toList_int_negSucc (n : Nat) : (int (.negSucc n)).toList = '-' :: Decimal.digitChars (n + 1) := by
  show ("-" ++ (n + 1).repr).toList = _
  rw [String.toList_append, Nat.toList_repr]
  rfl

@[simp] theorem value_int (n : Int) : Value (int n).toList := by
  cases n with
  | ofNat n => exact value_nat n
  | negSucc n =>
    rw [toList_int_negSucc]
    exact value_of_all (List.cons_ne_nil _ _) (by rw [List.all_cons, all_digitChars]; decide)

@[simp] theorem value_bool (b : Bool) : Value (bool b).toList := by
  cases b with
  | false => exact value_of_all (by decide) (by decide)
  | true => exact value_of_all (by decide) (by decide)

@[simp] theorem value_string (s : String) : Value (string s).toList := .text s

theorem all_positional {digits : List Char} (h : digits.all isWordChar = true) (exponent : Int) :
    (Decimal.positional layout digits exponent).all isWordChar = true := by
  have htake (n : Nat) : (digits.take n).all isWordChar = true :=
    List.all_eq_true.mpr fun c hc => List.all_eq_true.mp h c (List.mem_of_mem_take hc)
  have hdrop (n : Nat) : (digits.drop n).all isWordChar = true :=
    List.all_eq_true.mpr fun c hc => List.all_eq_true.mp h c (List.mem_of_mem_drop hc)
  have hzero : isWordChar '0' = true := by decide
  have hpoint : isWordChar '.' = true := by decide
  unfold Decimal.positional
  dsimp only
  split_ifs with hwhole hpart
  · simp [layout, h, hzero, hpoint, List.all_append]
  · rw [List.all_append, List.all_cons, htake, hdrop, hpoint]
    rfl
  · simp [h, hzero, hpoint, List.all_append]

theorem all_scientific {digits : List Char} (h : digits.all isWordChar = true) (leading : Int) :
    (Decimal.scientific layout digits leading).all isWordChar = true := by
  have hpoint : isWordChar '.' = true := by decide
  have hletter : isWordChar 'e' = true := by decide
  have hminus : isWordChar '-' = true := by decide
  have hplus : isWordChar '+' = true := by decide
  unfold Decimal.scientific
  dsimp only
  rw [List.all_append, List.all_cons, hletter, Bool.true_and, Bool.and_eq_true]
  constructor
  · split
    · simpa [hpoint] using h
    · exact h
  · split_ifs
    · rw [List.all_cons, hminus, all_digitChars]
      rfl
    · simp [layout, hplus]

theorem all_writeMagnitude (m : Decimal.Magnitude) : (layout.writeMagnitude m).all isWordChar = true := by
  unfold Decimal.Layout.writeMagnitude
  dsimp only
  split_ifs
  · exact all_positional (all_digitChars _) _
  · exact all_scientific (all_digitChars _) _

theorem writeMagnitude_ne_nil (m : Decimal.Magnitude) : layout.writeMagnitude m ≠ [] := by
  have hdigits : Decimal.digitChars m.digits ≠ [] := Nat.toDigits_ne_nil
  unfold Decimal.Layout.writeMagnitude Decimal.positional Decimal.scientific
  dsimp only
  split_ifs <;> simp [hdigits]

@[simp] theorem value_float (x : Binary64) : Value (float x).toList := by
  rw [float, String.toList_ofList]
  unfold Decimal.Layout.write
  split_ifs
  · exact value_of_all (by decide) (by decide)
  · exact value_of_all (by decide) (by decide)
  · exact value_of_all (by decide) (by decide)
  · exact value_of_all (List.cons_ne_nil _ _) (by rw [List.all_cons, all_writeMagnitude]; decide)
  · exact value_of_all (writeMagnitude_ne_nil _) (all_writeMagnitude _)

theorem toList_array (items : List String) :
    (array items).toList = '[' :: ([','].intercalate (items.map String.toList) ++ [']']) := by
  simp [array, String.toList_append, String.toList_intercalate]

theorem value_array {items : List String} (h : ∀ item ∈ items, Value item.toList) : Value (array items).toList := by
  rw [toList_array]
  refine .array fun item hitem => ?_
  obtain ⟨text, htext, rfl⟩ := List.mem_map.mp hitem
  exact h text htext

@[simp] theorem value_array_map {α : Type} {write : α → String} (h : ∀ entry, Value (write entry).toList)
    (entries : List α) : Value (array (entries.map write)).toList :=
  value_array (List.forall_mem_map.mpr fun entry _ => h entry)

theorem toList_object (fields : List (String × String)) :
    (object fields).toList = '\x7b' :: ([','].intercalate
      (memberTexts (fields.map fun (name, value) => (name, value.toList))) ++ ['\x7d']) := by
  simp [object, memberTexts, memberText, String.toList_append, String.toList_intercalate, Function.comp_def]

theorem value_object {fields : List (String × String)} (h : ∀ field ∈ fields, Value field.2.toList) :
    Value (object fields).toList := by
  rw [toList_object]
  refine .object fun member hmember => ?_
  obtain ⟨field, hfield, rfl⟩ := List.mem_map.mp hmember
  exact h field hfield

/-- Arrays with the same text have items with the same texts. -/
theorem array_inj {items items' : List String} (h : ∀ item ∈ items, Value item.toList)
    (h' : ∀ item ∈ items', Value item.toList) (heq : array items = array items') : items = items' := by
  have hitems := List.forall_mem_map.mpr h
  have hitems' := List.forall_mem_map.mpr h'
  have htexts := congrArg String.toList heq
  rw [toList_array, toList_array] at htexts
  obtain ⟨hsame, -⟩ := items_inj (.inl rfl)
    (fun item hitem item' hitem' => (hitems item hitem).told (hitems' item' hitem')) (start_of_values hitems hitems')
    (congrArg (· ++ []) (List.cons.inj htexts).2)
  exact List.map_injective_iff.mpr (fun _ _ => String.toList_inj.mp) hsame

theorem array_map_inj {α : Type} {write : α → String} (h : ∀ entry, Value (write entry).toList)
    {entries entries' : List α} (heq : array (entries.map write) = array (entries'.map write)) :
    entries.map write = entries'.map write :=
  array_inj (List.forall_mem_map.mpr fun entry _ => h entry) (List.forall_mem_map.mpr fun entry _ => h entry) heq

/-- Objects with the same text have the same names, in the same order, and values with the same texts. -/
theorem object_inj {fields fields' : List (String × String)} (h : ∀ field ∈ fields, Value field.2.toList)
    (h' : ∀ field ∈ fields', Value field.2.toList) (heq : object fields = object fields') : fields = fields' := by
  have htold : ∀ member ∈ fields.map fun (name, value) => (name, value.toList),
      ∀ member' ∈ fields'.map fun (name, value) => (name, value.toList), Told member.2 member'.2 := by
    intro member hmember member' hmember'
    obtain ⟨field, hfield, rfl⟩ := List.mem_map.mp hmember
    obtain ⟨field', hfield', rfl⟩ := List.mem_map.mp hmember'
    exact (h field hfield).told (h' field' hfield')
  have htexts := congrArg String.toList heq
  rw [toList_object, toList_object] at htexts
  obtain ⟨hsame, -⟩ := items_inj (.inr rfl) (told_of_members htold) (start_of_members _ _)
    (congrArg (· ++ []) (List.cons.inj htexts).2)
  refine List.map_injective_iff.mpr ?_ (memberTexts_injective hsame)
  rintro ⟨name, value⟩ ⟨name', value'⟩ h
  obtain ⟨rfl, hvalue⟩ := Prod.mk.inj h
  rw [String.toList_inj.mp hvalue]

/-! ## Texts of single values -/

theorem nat_injective : Function.Injective nat := fun _ _ h => Nat.repr_inj.mp h

/-- The text of a number that is not negative has no sign. -/
theorem int_ofNat_ne_negSucc (n m : Nat) : int n ≠ int (.negSucc m) := by
  intro h
  have hsign : '-' ∈ (int n).toList := by
    rw [h, toList_int_negSucc]
    exact List.mem_cons_self
  have hchars : (int n).toList = Nat.toDigits 10 n := Nat.toList_repr
  rw [hchars] at hsign
  exact absurd (Nat.isDigit_of_mem_toDigits (by decide) le_rfl hsign) (by decide)

theorem int_injective : Function.Injective int := by
  intro n m h
  cases n with
  | ofNat n =>
    cases m with
    | ofNat m => exact congrArg Int.ofNat (nat_injective h)
    | negSucc m => exact absurd h (int_ofNat_ne_negSucc n m)
  | negSucc n =>
    cases m with
    | ofNat m => exact absurd h.symm (int_ofNat_ne_negSucc m n)
    | negSucc m =>
      have htexts := congrArg String.toList h
      rw [toList_int_negSucc, toList_int_negSucc] at htexts
      have hdigits := nat_injective (String.toList_inj.mp
        (Nat.toList_repr.trans ((List.cons.inj htexts).2.trans Nat.toList_repr.symm)))
      rw [Nat.succ.inj hdigits]

theorem bool_injective : Function.Injective bool := by decide

end Json

end Pushdown
