-- SUMMARY: A dictionary without repeated texts translates texts to keys and back.
import Mathlib
import Pushdown.Proofs.Outcome
import Pushdown.Dictionary

/-!
# Translating through a dictionary

A key is a position among the texts, written with 32 bits. As long as no text is repeated and every
position can be written, a text has one key, and comparing keys is comparing texts.
-/

namespace Pushdown

namespace Dictionary

variable {d : Dictionary} {text : String} {key : UInt32}

/-- No text is repeated, and every text has a key of its own. -/
structure Sound (d : Dictionary) : Prop where
  distinct : d.values.Nodup
  addressable : d.size ≤ UInt32.size

theorem textOf_of_lt (h : key.toNat < d.size) : d.textOf key = .ok (d.values.get ⟨key.toNat, h⟩) := by
  have hget : d.values[key.toNat]? = some (d.values.get ⟨key.toNat, h⟩) := List.getElem?_eq_getElem h
  rw [textOf, hget]

theorem textOf_eq_ok : d.textOf key = .ok text ↔ d.values[key.toNat]? = some text := by
  unfold textOf
  cases d.values[key.toNat]? with
  | none => simp
  | some found => simp

/-- The texts of keys are all found if the keys are positions of the dictionary. -/
theorem mapM_textOf {keys : List UInt32} (h : ∀ key ∈ keys, key.toNat < d.size) :
    keys.mapM d.textOf = .ok (keys.filterMap fun key => d.values[key.toNat]?) := by
  induction keys with
  | nil => rfl
  | cons key keys ih =>
    obtain ⟨hkey, hkeys⟩ := List.forall_mem_cons.mp h
    have hget : d.values[key.toNat]? = some (d.values.get ⟨key.toNat, hkey⟩) :=
      List.getElem?_eq_getElem hkey
    rw [List.mapM_cons, textOf_of_lt hkey, ih hkeys, List.filterMap_cons, hget]
    rfl

theorem keyOf?_eq_none : d.keyOf? text = none ↔ text ∉ d.values := by
  rw [keyOf?, Option.map_eq_none_iff, List.idxOf?_eq_none_iff]

theorem Sound.toNat_ofNat (hd : d.Sound) {position : Nat} (h : position < d.size) :
    (UInt32.ofNat position).toNat = position :=
  UInt32.toNat_ofNat_of_lt' (h.trans_le hd.addressable)

/-- The key of a text is the only one that stands for it. -/
theorem keyOf?_eq_some (hd : d.Sound) (hkey : key.toNat < d.size) :
    d.keyOf? text = some key ↔ d.values[key.toNat]? = some text := by
  constructor
  · intro h
    obtain ⟨position, hposition, rfl⟩ := Option.map_eq_some_iff.mp h
    obtain ⟨hlt, hget, -⟩ := List.idxOf?_eq_some_iff.mp hposition
    rw [hd.toNat_ofNat hlt, List.getElem?_eq_getElem hlt, hget]
  · intro h
    obtain ⟨position, hposition⟩ :=
      Option.isSome_iff_exists.mp (List.isSome_idxOf?.mpr (List.mem_of_getElem? h))
    obtain ⟨hlt, hget, -⟩ := List.idxOf?_eq_some_iff.mp hposition
    have hsame : d.values[position]? = d.values[key.toNat]? := by
      rw [h, List.getElem?_eq_getElem hlt, hget]
    have hposition' := (List.getElem?_inj hlt hd.distinct).mp hsame
    rw [keyOf?, hposition, hposition']
    simp

end Dictionary

end Pushdown
