-- SUMMARY: An interner gives every text one key, and the key it gives stays the key of the text.
import Pushdown.Proofs.Dictionary

/-!
# Giving out keys

The invariant of an interner is that its table of keys says what searching its dictionary says, and that no
text is in there twice. The dictionary only grows at its end, so a key that was given out still stands for
its text when all texts have come in. It lists the texts in the order in which each of them first came in.
-/

namespace Pushdown

namespace Dictionary

variable {d grown : Dictionary} {text : String} {key : UInt32}

theorem keyOf?_append (values added : List String) (text : String) :
    keyOf? ⟨values ++ added⟩ text = (keyOf? ⟨values⟩ text).or
      ((added.idxOf? text).map fun position => UInt32.ofNat (position + values.length)) := by
  rw [keyOf?, List.idxOf?, List.findIdx?_append, Option.map_or, Option.map_map]
  rfl

/-- Texts that are added at the end leave the keys of the others alone. -/
theorem keyOf?_of_grown (hgrown : d.values <+: grown.values) (h : d.keyOf? text = some key) :
    grown.keyOf? text = some key := by
  obtain ⟨added, hadded⟩ := hgrown
  obtain rfl : ⟨d.values ++ added⟩ = grown := congrArg Dictionary.mk hadded
  rw [keyOf?_append, h]
  rfl

/-- Keys that were found for texts are kept. -/
theorem map_keyOf?_of_grown (hgrown : d.values <+: grown.values) {texts : List String} {keys : List UInt32}
    (h : texts.map d.keyOf? = keys.map some) : texts.map grown.keyOf? = keys.map some := by
  induction texts generalizing keys with
  | nil => exact h
  | cons text texts ih =>
    cases keys with
    | nil => cases h
    | cons key keys =>
      obtain ⟨hkey, hkeys⟩ := List.cons.inj h
      exact congrArg₂ _ (keyOf?_of_grown hgrown hkey) (ih hkeys)

/-- The key that a search finds is a position of the dictionary, even where positions are too large for
    keys and wrap around. -/
theorem toNat_lt_of_keyOf? (h : d.keyOf? text = some key) : key.toNat < d.size := by
  obtain ⟨position, hposition, rfl⟩ := Option.map_eq_some_iff.mp h
  obtain ⟨hlt, -, -⟩ := List.idxOf?_eq_some_iff.mp hposition
  exact (Nat.mod_le _ _).trans_lt hlt

/-- The key that a search finds stands for the text. -/
theorem textOf_of_keyOf? (hd : d.size ≤ UInt32.size) (h : d.keyOf? text = some key) :
    key.toNat < d.size ∧ d.textOf key = .ok text := by
  obtain ⟨position, hposition, rfl⟩ := Option.map_eq_some_iff.mp h
  obtain ⟨hlt, hget, -⟩ := List.idxOf?_eq_some_iff.mp hposition
  have hkey : (UInt32.ofNat position).toNat = position := UInt32.toNat_ofNat_of_lt' (hlt.trans_le hd)
  refine ⟨by rw [hkey]; exact hlt, textOf_eq_ok.mpr ?_⟩
  rw [hkey, List.getElem?_eq_getElem hlt, hget]

/-- Keys that texts were found to have are positions of the dictionary. -/
theorem toNat_lt_of_map_keyOf? {texts : List String} {keys : List UInt32}
    (h : texts.map d.keyOf? = keys.map some) : ∀ key ∈ keys, key.toNat < d.size := by
  intro key hkey
  have hmem : some key ∈ texts.map d.keyOf? := h ▸ List.mem_map_of_mem hkey
  obtain ⟨text, -, hfound⟩ := List.mem_map.mp hmem
  exact toNat_lt_of_keyOf? hfound

/-- Keys that were found for texts stand for these texts. -/
theorem map_textOf (hd : d.size ≤ UInt32.size) {texts : List String} {keys : List UInt32}
    (h : texts.map d.keyOf? = keys.map some) : keys.map d.textOf = texts.map .ok := by
  induction texts generalizing keys with
  | nil =>
    obtain rfl := List.map_eq_nil_iff.mp h.symm
    rfl
  | cons text texts ih =>
    cases keys with
    | nil => cases h
    | cons key keys =>
      obtain ⟨hkey, hkeys⟩ := List.cons.inj h
      exact congrArg₂ _ (textOf_of_keyOf? hd hkey).2 (ih hkeys)

theorem forall₂_keyOf? {texts : List String} {keys : List UInt32} (h : texts.map d.keyOf? = keys.map some) :
    List.Forall₂ (fun text key => d.keyOf? text = some key) texts keys := by
  have hsame : List.Forall₂ (· = ·) (texts.map d.keyOf?) (keys.map some) := by
    rw [h]
    exact List.forall₂_refl _
  exact List.forall₂_map_right_iff.mp (List.forall₂_map_left_iff.mp hsame)

/-- Where the same text stands in two places, the same key was found for it. -/
theorem getElem?_eq_of_map_keyOf? {texts : List String} {keys : List UInt32}
    (h : texts.map d.keyOf? = keys.map some) {i j : Nat} (hsame : texts[i]? = texts[j]?) : keys[i]? = keys[j]? := by
  have hat : ∀ i : Nat, (texts[i]?).map d.keyOf? = (keys[i]?).map some := fun i => by
    rw [← List.getElem?_map, ← List.getElem?_map, h]
  refine Option.map_injective (Option.some_injective _) ?_
  rw [← hat, ← hat, hsame]

end Dictionary

/-- A text at the end of a list is left out by erasing repeats if it stands before. -/
theorem eraseDups_concat (texts : List String) (text : String) :
    (texts ++ [text]).eraseDups = if text ∈ texts then texts.eraseDups else texts.eraseDups ++ [text] := by
  rw [List.eraseDups_append]
  by_cases hmem : text ∈ texts
  · simp [List.removeAll, hmem]
  · simp [List.removeAll, hmem, List.eraseDups_cons]

/-- Texts that all stand before bring nothing new. -/
theorem eraseDups_append_of_subset {texts more : List String} (h : ∀ text ∈ more, text ∈ texts) :
    (texts ++ more).eraseDups = texts.eraseDups := by
  have hnone : more.removeAll texts = [] := by simpa [List.removeAll] using h
  rw [List.eraseDups_append, hnone, List.eraseDups_nil, List.append_nil]

/-- It makes no difference to erase repeats in a part first. -/
theorem eraseDups_append_eraseDups (texts more : List String) :
    (texts ++ more.eraseDups).eraseDups = (texts ++ more).eraseDups := by
  induction more using List.reverseRecOn with
  | nil => rfl
  | append_singleton more text ih =>
    rw [eraseDups_concat more, ← List.append_assoc, eraseDups_concat (texts ++ more)]
    by_cases hmem : text ∈ more
    · rw [if_pos hmem, if_pos (List.mem_append_right _ hmem), ih]
    · rw [if_neg hmem, ← List.append_assoc, eraseDups_concat, ih]
      simp only [List.mem_append, List.mem_eraseDups]

theorem eraseDups_eraseDups_append (texts more : List String) :
    (texts.eraseDups ++ more).eraseDups = (texts ++ more).eraseDups := by
  have hself : texts.eraseDups.eraseDups = texts.eraseDups := eraseDups_append_eraseDups [] texts
  have hsame : more.removeAll texts.eraseDups = more.removeAll texts := by simp [List.removeAll]
  rw [List.eraseDups_append, List.eraseDups_append, hself, hsame]

/-- Texts without repeats come in the order in which each of them is first seen. -/
theorem pairwise_idxOf_eraseDups (texts : List String) :
    texts.eraseDups.Pairwise fun text later => texts.idxOf text < texts.idxOf later := by
  induction texts using List.reverseRecOn with
  | nil => exact .nil
  | append_singleton texts text ih =>
    have hkept : ∀ seen ∈ texts.eraseDups, (texts ++ [text]).idxOf seen = texts.idxOf seen := fun seen hseen =>
      List.idxOf_append_of_mem (List.mem_eraseDups.mp hseen)
    have hbefore : texts.eraseDups.Pairwise fun seen later =>
        (texts ++ [text]).idxOf seen < (texts ++ [text]).idxOf later :=
      ih.imp_of_mem fun hseen hlater hlt => by rwa [hkept _ hseen, hkept _ hlater]
    rw [eraseDups_concat]
    by_cases hmem : text ∈ texts
    · rwa [if_pos hmem]
    · -- a new text is first seen behind all that were seen before
      rw [if_neg hmem, List.pairwise_append]
      refine ⟨hbefore, List.pairwise_singleton _ _, fun seen hseen later hlater => ?_⟩
      rw [List.mem_singleton.mp hlater, hkept seen hseen, List.idxOf_append_of_notMem hmem]
      exact Nat.lt_add_right _ (List.idxOf_lt_length_of_mem (List.mem_eraseDups.mp hseen))

theorem length_eraseDups (texts : List String) : texts.eraseDups.length = texts.toFinset.card := by
  have hsame : texts.eraseDups.toFinset = texts.toFinset := by
    ext text
    rw [List.mem_toFinset, List.mem_toFinset, List.mem_eraseDups]
  have hdistinct : texts.eraseDups.Nodup :=
    (pairwise_idxOf_eraseDups texts).imp fun hlt heq => absurd (congrArg texts.idxOf heq) hlt.ne
  rw [← hsame, List.toFinset_card_of_nodup hdistinct]

/-- Lists that are the same up to repeats stay so behind each other. -/
theorem eraseDups_append_congr {texts others more additions : List String}
    (h : texts.eraseDups = others.eraseDups) (hmore : more.eraseDups = additions.eraseDups) :
    (texts ++ more).eraseDups = (others ++ additions).eraseDups := by
  rw [← eraseDups_eraseDups_append, ← eraseDups_append_eraseDups, h, hmore, eraseDups_append_eraseDups,
    eraseDups_eraseDups_append]

namespace Interner

variable {i i' i'' : Interner} {texts more : List String} {keys others : List UInt32}

/-- The keys are those of the dictionary, in which no text is repeated. -/
structure Sound (i : Interner) : Prop where
  keys_eq : ∀ text, i.keys[text]? = i.toDictionary.keyOf? text
  distinct : i.toDictionary.values.Nodup

theorem sound_empty : empty.Sound where
  keys_eq text := by simp [empty, toDictionary, Dictionary.keyOf?]
  distinct := .nil

/-- Taking in the texts gave out the keys, and led to `i'`. -/
structure Interned (i : Interner) (texts : List String) (keys : List UInt32) (i' : Interner) : Prop where
  sound : i'.Sound
  grown : i.toDictionary.values <+: i'.toDictionary.values
  values_eq : ∀ {seen : List String}, i.toDictionary.values = seen.eraseDups →
    i'.toDictionary.values = (seen ++ texts).eraseDups
  keys_eq : texts.map i'.toDictionary.keyOf? = keys.map some

theorem Sound.interned_nil (h : i.Sound) : i.Interned [] [] i where
  sound := h
  grown := List.prefix_rfl
  values_eq hseen := by rwa [List.append_nil]
  keys_eq := rfl

theorem Interned.append (h : i.Interned texts keys i') (h' : i'.Interned more others i'') :
    i.Interned (texts ++ more) (keys ++ others) i'' where
  sound := h'.sound
  grown := h.grown.trans h'.grown
  values_eq hseen := by
    rw [← List.append_assoc]
    exact h'.values_eq (h.values_eq hseen)
  keys_eq := by
    rw [List.map_append, List.map_append, Dictionary.map_keyOf?_of_grown h'.grown h.keys_eq, h'.keys_eq]

theorem toList_push (i : Interner) (text : String) :
    (i.values.push text).toList = i.toDictionary.values ++ [text] := by
  simp [toDictionary]

/-- A new text gets the next key, and every other keeps its own. -/
theorem keyOf?_push {text : String} (hnew : text ∉ i.toDictionary.values) (other : String) :
    Dictionary.keyOf? ⟨(i.values.push text).toList⟩ other =
      if other = text then some (UInt32.ofNat i.values.size) else i.toDictionary.keyOf? other := by
  rw [toList_push, Dictionary.keyOf?_append]
  by_cases hother : other = text
  · subst hother
    rw [if_pos rfl, Dictionary.keyOf?_eq_none.mpr hnew]
    simp [toDictionary]
  · simp [hother, Ne.symm hother]

/-- A text that has a key is left where it is. -/
theorem Sound.interned_known (h : i.Sound) {text : String} {key : UInt32} (hkey : i.keys[text]? = some key) :
    i.Interned [text] [key] i := by
  have hmem : text ∈ i.toDictionary.values := by
    by_contra hnot
    rw [h.keys_eq, Dictionary.keyOf?_eq_none.mpr hnot] at hkey
    cases hkey
  refine ⟨h, List.prefix_rfl, fun {seen} hseen => ?_, by simp [← h.keys_eq, hkey]⟩
  rw [hseen, List.mem_eraseDups] at hmem
  rw [eraseDups_concat, if_pos hmem, hseen]

theorem Sound.interned_new (h : i.Sound) {text : String} (hkey : i.keys[text]? = none) :
    let key := UInt32.ofNat i.values.size
    i.Interned [text] [key] ⟨i.values.push text, i.keys.insert text key⟩ := by
  intro key
  have hnew : text ∉ i.toDictionary.values := by
    rw [← Dictionary.keyOf?_eq_none, ← h.keys_eq, hkey]
  have hkeyOf := keyOf?_push hnew
  refine ⟨⟨?_, ?_⟩, ?_, fun {seen} hseen => ?_, ?_⟩
  · intro other
    show (i.keys.insert text key)[other]? = _
    refine Eq.trans ?_ (hkeyOf other).symm
    by_cases hother : other = text
    · subst hother
      rw [Std.HashMap.getElem?_insert_self, if_pos rfl]
    · rw [Std.HashMap.getElem?_insert, if_neg (by simpa using Ne.symm hother), if_neg hother, h.keys_eq]
  · show (i.values.push text).toList.Nodup
    rw [toList_push]
    exact List.concat_eq_append ▸ h.distinct.concat hnew
  · show i.toDictionary.values <+: (i.values.push text).toList
    rw [toList_push]
    exact List.prefix_append ..
  · show (i.values.push text).toList = _
    rw [hseen, List.mem_eraseDups] at hnew
    rw [toList_push, hseen, eraseDups_concat, if_neg hnew]
  · exact congrArg (· :: []) ((hkeyOf text).trans (if_pos rfl))

/-- One text is found among the keys or gets the next one. -/
theorem Sound.intern (h : i.Sound) (text : String) :
    i.Interned [text] [(i.intern text).1] (i.intern text).2 := by
  unfold Interner.intern
  cases hkey : i.keys[text]? with
  | some key => exact h.interned_known hkey
  | none => exact h.interned_new hkey

/-- All texts are taken in one after the other. -/
theorem Sound.internAll (h : i.Sound) (texts : List String) :
    i.Interned texts (i.internAll texts).1 (i.internAll texts).2 := by
  induction texts generalizing i with
  | nil => exact h.interned_nil
  | cons text texts ih =>
    have hone := h.intern text
    exact hone.append (ih hone.sound)

/-! ## The finished dictionary -/

theorem values_internAll (texts : List String) :
    (empty.internAll texts).2.toDictionary.values = texts.eraseDups := by
  have hempty : empty.toDictionary.values = [].eraseDups := rfl
  exact (sound_empty.internAll texts).values_eq hempty

theorem sound_toDictionary {texts : List String} (h : texts.toFinset.card ≤ UInt32.size) :
    (empty.internAll texts).2.toDictionary.Sound where
  distinct := (sound_empty.internAll texts).sound.distinct
  addressable := by
    rw [Dictionary.size, values_internAll, length_eraseDups]
    exact h

/-- Texts that come in after each other, with no more different ones than there are keys, are listed in the order
    in which each is first seen. Whenever a text came in, it was given the one key that stands for it in the end.
    Every key of the dictionary is the key of a text, and a text that never came in has none. -/
theorem interns_in_order_of_first_sight {texts : List String} (h : texts.toFinset.card ≤ UInt32.size) :
    let keys := (empty.internAll texts).1
    let d := (empty.internAll texts).2.toDictionary
    d.values.Nodup ∧ (∀ text, text ∈ d.values ↔ text ∈ texts) ∧
      (d.values.Pairwise fun text later => texts.idxOf text < texts.idxOf later) ∧
      List.Forall₂ (fun text key => d.textOf key = .ok text ∧ d.keyOf? text = some key) texts keys ∧
      (∀ i j : Nat, texts[i]? = texts[j]? → keys[i]? = keys[j]?) ∧
      (∀ key, key.toNat < d.size → ∃ text, d.textOf key = .ok text ∧ d.keyOf? text = some key) ∧
      ∀ text, d.keyOf? text = none ↔ text ∉ texts := by
  intro keys d
  have hd : d.Sound := sound_toDictionary h
  have hvalues : d.values = texts.eraseDups := values_internAll texts
  have hkeys : texts.map d.keyOf? = keys.map some := (sound_empty.internAll texts).keys_eq
  refine ⟨hd.distinct, ?_, ?_, ?_, ?_, ?_, ?_⟩
  · intro text
    rw [hvalues, List.mem_eraseDups]
  · rw [hvalues]
    exact pairwise_idxOf_eraseDups texts
  · exact (Dictionary.forall₂_keyOf? hkeys).imp fun text key hkey =>
      ⟨(Dictionary.textOf_of_keyOf? hd.addressable hkey).2, hkey⟩
  · exact fun i j => Dictionary.getElem?_eq_of_map_keyOf? hkeys
  · intro key hkey
    have hget := List.getElem?_eq_getElem hkey
    exact ⟨_, Dictionary.textOf_of_lt hkey, (Dictionary.keyOf?_eq_some hd hkey).mpr hget⟩
  · intro text
    rw [Dictionary.keyOf?_eq_none, hvalues, List.mem_eraseDups]

/-- Three texts, two of which come in again. -/
theorem interns_repeated_texts :
    let texts := ["b", "a", "b", "c", "a"]
    let keys := (empty.internAll texts).1
    let d := (empty.internAll texts).2.toDictionary
    texts.toFinset.card ≤ UInt32.size ∧ d.values = ["b", "a", "c"] ∧
      keys[0]? = keys[2]? ∧ d.keyOf? "d" = none := by
  intro texts keys d
  have hfew : texts.toFinset.card ≤ UInt32.size := (List.toFinset_card_le texts).trans (by decide)
  obtain ⟨-, -, -, -, hsame, -, hnone⟩ := interns_in_order_of_first_sight hfew
  exact ⟨hfew, values_internAll texts, hsame 0 2 rfl, (hnone "d").mpr (by decide)⟩

end Interner

end Pushdown
