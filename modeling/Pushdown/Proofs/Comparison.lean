-- SUMMARY: A comparison holds exactly where the values stand in that order, numbers by what they stand for.
import Pushdown.Proofs.Sheet

/-!
# What comparisons say

A comparison is decided by an `Ordering`. Here it is tied to the order of the values themselves: integers as
integers, texts by their code points, and double-precision numbers as the rational numbers that their parts stand
for. Both zeros stand for zero, so that they are equal. What is not a number stands in no order to anything. An
infinity counts as the power of two that is just out of reach of the finite numbers.

From this follows what a predicate says of a row: that there is a value in it, and that this value stands to the
operand as the comparison says. The rows that survive a query are those of which all its predicates say so.
-/

namespace Pushdown

namespace Comparison

/-- The relation that the comparison is named for. -/
def Relates {α : Type} [LT α] [LE α] : Comparison → α → α → Prop
  | .equal, x, y => x = y
  | .greater, x, y => y < x
  | .greaterEqual, x, y => y ≤ x
  | .less, x, y => x < y
  | .lessEqual, x, y => x ≤ y

theorem accepts_compare {α : Type} [LinearOrder α] (op : Comparison) (x y : α) :
    op.accepts (compare x y) = true ↔ op.Relates x y := by
  cases op with
  | equal => simp [accepts, Relates]
  | greater => simp [accepts, Relates, compare_gt_iff_gt]
  | less => simp [accepts, Relates, compare_lt_iff_lt]
  | greaterEqual => simp [accepts, Relates, Ordering.isGE_iff_ne_lt, compare_lt_iff_lt]
  | lessEqual => simp [accepts, Relates, Ordering.isLE_iff_ne_gt, compare_gt_iff_gt]

theorem holds_int32_iff (op : Comparison) (x y : Int32) : op.holds x y = true ↔ op.Relates x.toInt y.toInt := by
  have hcompare : compare x y = compare x.toInt y.toInt := by
    simp [compare, compareOfLessAndEq, Int32.lt_iff_toInt_lt, ← Int32.toInt_inj]
  rw [← accepts_compare, ← hcompare]
  rfl

theorem holds_text_iff (op : Comparison) (x y : String) : op.holds x y = true ↔ op.Relates x y :=
  accepts_compare op x y

end Comparison

/-! ## Double-precision numbers -/

namespace Binary64

/-- How many of the smallest steps lead from zero to the number that a magnitude stands for. -/
def stepsTo (magnitude : Nat) : Nat :=
  if magnitude / leadingBit = 0 then magnitude % leadingBit
  else (leadingBit + magnitude % leadingBit) * 2 ^ (magnitude / leadingBit - 1)

/-- The number that the parts stand for. -/
def Parts.value (p : Parts) : ℚ := p.significand * 2 ^ p.scale

/-- The number itself. -/
def value (x : Binary64) : ℚ := if x.isNegative then -x.parts.value else x.parts.value

theorem stepsTo_eq {field fraction : Nat} (h : fraction < leadingBit) :
    stepsTo (field * leadingBit + fraction) =
      if field = 0 then fraction else (leadingBit + fraction) * 2 ^ (field - 1) := by
  have hpos : 0 < leadingBit := by decide
  have hfield : (field * leadingBit + fraction) / leadingBit = field := by
    rw [Nat.mul_comm, Nat.mul_add_div hpos, Nat.div_eq_of_lt h, Nat.add_zero]
  have hfraction : (field * leadingBit + fraction) % leadingBit = fraction := by
    rw [Nat.mul_add_mod_of_lt h]
  rw [stepsTo, hfield, hfraction]

/-- A greater magnitude stands for a greater number. -/
theorem stepsTo_strictMono : StrictMono stepsTo := by
  refine strictMono_nat_of_lt_succ fun magnitude => ?_
  have hmod : magnitude % leadingBit < leadingBit := Nat.mod_lt _ (by decide)
  rw [← Nat.div_add_mod' magnitude leadingBit]
  generalize magnitude / leadingBit = field at hmod ⊢
  generalize magnitude % leadingBit = fraction at hmod ⊢
  rcases Nat.lt_or_ge (fraction + 1) leadingBit with hlt | hge
  -- one more in the fraction
  · rw [stepsTo_eq hmod, Nat.add_assoc, stepsTo_eq hlt]
    split
    · omega
    · exact Nat.mul_lt_mul_of_pos_right (by omega) (by positivity)
  -- the fraction is full, and the exponent goes up by one
  · obtain rfl : fraction = leadingBit - 1 := by omega
    have hcarry : field * leadingBit + (leadingBit - 1) + 1 = (field + 1) * leadingBit + 0 := by
      rw [Nat.add_one_mul]
      omega
    rw [stepsTo_eq hmod, hcarry, stepsTo_eq (by decide), if_neg (Nat.succ_ne_zero field), Nat.add_sub_cancel]
    cases field with
    | zero => decide
    | succ field =>
      rw [if_neg (Nat.succ_ne_zero field), Nat.add_sub_cancel, pow_succ, Nat.mul_comm (2 ^ field), ← Nat.mul_assoc]
      exact Nat.mul_lt_mul_of_pos_right (by decide) (by positivity)

theorem stepsTo_zero : stepsTo 0 = 0 := rfl

theorem value_parts (x : Binary64) : x.parts.value = stepsTo x.magnitude / 2 ^ 1074 := by
  unfold parts stepsTo Parts.value
  dsimp only
  split
  · rw [zpow_neg, ← div_eq_mul_inv]
    rfl
  · rename_i hfield
    obtain ⟨field, hfield⟩ := Nat.exists_eq_succ_of_ne_zero hfield
    have hscale : ((field + 1 : Nat) : ℤ) - 1075 = (field : Nat) - (1074 : Nat) := by omega
    rw [hfield, Nat.succ_eq_add_one, hscale, zpow_sub₀ two_ne_zero, zpow_natCast, zpow_natCast, ← mul_div_assoc]
    push_cast
    rfl

/-- The number of a magnitude with its sign. -/
def valueOf (key : ℤ) : ℚ :=
  (if key < 0 then -(stepsTo key.natAbs : ℚ) else stepsTo key.natAbs) / 2 ^ 1074

theorem valueOf_strictMono : StrictMono valueOf := by
  intro key other hlt
  refine div_lt_div_of_pos_right ?_ (by positivity)
  have hsteps {m n : Nat} (h : m < n) : (stepsTo m : ℚ) < stepsTo n := by
    exact_mod_cast stepsTo_strictMono h
  split_ifs with hkey hother hother
  · exact neg_lt_neg (hsteps (by omega))
  · have hpos := hsteps (show 0 < key.natAbs by omega)
    rw [stepsTo_zero, Nat.cast_zero] at hpos
    exact (neg_neg_of_pos hpos).trans_le (Nat.cast_nonneg _)
  · omega
  · exact hsteps (by omega)

theorem value_eq (x : Binary64) : x.value = valueOf x.orderKey := by
  unfold value orderKey valueOf
  rw [value_parts]
  cases x.isNegative with
  | false => simp [show ¬ (x.magnitude : ℤ) < 0 by omega]
  | true =>
    rcases Nat.eq_zero_or_pos x.magnitude with hzero | hpos
    · simp [hzero, stepsTo_zero]
    · simp [hpos, neg_div]

/-- Numbers are put in the order of what they stand for. -/
theorem compare?_eq_some {x y : Binary64} (hx : x.isNaN = false) (hy : y.isNaN = false) :
    compare? x y = some (compare x.value y.value) := by
  rw [compare?, hx, hy, if_neg (by simp), value_eq, value_eq, ← cmp_eq_compare, ← cmp_eq_compare,
    valueOf_strictMono.cmp_map_eq]

theorem compare?_eq_none {x y : Binary64} : compare? x y = none ↔ x.isNaN = true ∨ y.isNaN = true := by
  cases hx : x.isNaN <;> simp [compare?, hx]

/-- Both zeros, and only they, stand for zero. -/
theorem value_eq_zero_iff {x : Binary64} : x.value = 0 ↔ x.magnitude = 0 := by
  have hzero : valueOf 0 = 0 := by simp [valueOf, stepsTo_zero]
  rw [value_eq, ← hzero, valueOf_strictMono.injective.eq_iff, orderKey]
  split <;> omega

/-- The finite numbers stand for less than the infinities do. -/
theorem abs_value_lt_iff {x : Binary64} : |x.value| < 2 ^ 1024 ↔ x.isNaN = false ∧ x.isInfinite = false := by
  have habs : |x.value| = stepsTo x.magnitude / 2 ^ 1074 := by
    have hnonneg : (0 : ℚ) ≤ stepsTo x.magnitude / 2 ^ 1074 := by positivity
    unfold value
    rw [value_parts]
    split
    · rw [abs_neg, abs_of_nonneg hnonneg]
    · exact abs_of_nonneg hnonneg
  have hinfinite : stepsTo infiniteMagnitude = 2 ^ 1024 * 2 ^ 1074 := by
    have hbit : leadingBit + 0 = 2 ^ 52 := rfl
    rw [infiniteMagnitude, ← Nat.add_zero (_ * _), stepsTo_eq (by decide), if_neg (by decide), hbit, ← pow_add,
      ← pow_add]
  have hless : |x.value| < 2 ^ 1024 ↔ x.magnitude < infiniteMagnitude := by
    rw [habs, div_lt_iff₀ (by positivity), ← stepsTo_strictMono.lt_iff_lt, hinfinite]
    exact_mod_cast Iff.rfl
  rw [hless, isNaN, isInfinite, decide_eq_false_iff_not, decide_eq_false_iff_not]
  omega

end Binary64

theorem Comparison.holds_binary64_iff (op : Comparison) (x y : Binary64) :
    op.holds x y = true ↔ x.isNaN = false ∧ y.isNaN = false ∧ op.Relates x.value y.value := by
  show (Binary64.compare? x y).any op.accepts = true ↔ _
  by_cases hnumbers : x.isNaN = false ∧ y.isNaN = false
  · obtain ⟨hx, hy⟩ := hnumbers
    rw [Binary64.compare?_eq_some hx hy, Option.any_some, accepts_compare]
    simp [hx, hy]
  · have hnone : Binary64.compare? x y = none := by
      rw [Binary64.compare?_eq_none, ← Bool.not_eq_false, ← Bool.not_eq_false, ← not_and_or]
      exact hnumbers
    rw [hnone]
    exact iff_of_false (by simp) fun h => hnumbers ⟨h.1, h.2.1⟩

example : Comparison.equal.holds (⟨0⟩ : Binary64) ⟨0x8000000000000000⟩ = true := by decide

/-! ## Predicates -/

/-- The cell has a value of the operand's type that stands to the operand as the predicate says. -/
def Predicate.Accepts (predicate : Predicate) : Cell → Prop
  | .float64 x => ∃ y, predicate.operand = .float64 y ∧ x.isNaN = false ∧ y.isNaN = false ∧
      predicate.op.Relates x.value y.value
  | .int32 x => ∃ y, predicate.operand = .int32 y ∧ predicate.op.Relates x.toInt y.toInt
  | .utf8 x => ∃ y, predicate.operand = .utf8 y ∧ predicate.op.Relates x y

/-- The value of a row, if it has one. That of a dictionary column is the text behind its key. -/
def Content.value? (content : Content) (row : Nat) : Option Cell :=
  match content.plain with
  | .float64 cells => (cells.value? row).map .float64
  | .int32 cells => (cells.value? row).map .int32
  | .utf8 cells => (cells.value? row).map .utf8
  | .dictionary .. => none

/-- A row satisfies a predicate exactly if it has a value that the predicate accepts. -/
theorem Content.satisfies_iff {content : Content} {predicate : Predicate} {row : Nat} :
    content.satisfies predicate row = true ↔
      ∃ cell, content.value? row = some cell ∧ predicate.Accepts cell := by
  obtain ⟨column, op, operand⟩ := predicate
  unfold satisfies value? Cells.passes
  cases content.plain with
  | float64 cells =>
    cases operand with
    | float64 operand => simp [Option.any_eq_true, Predicate.Accepts, Comparison.holds_binary64_iff]
    | int32 | utf8 => simp [Predicate.Accepts]
  | int32 cells =>
    cases operand with
    | int32 operand => simp [Option.any_eq_true, Predicate.Accepts, Comparison.holds_int32_iff]
    | float64 | utf8 => simp [Predicate.Accepts]
  | utf8 cells =>
    cases operand with
    | utf8 operand => simp [Option.any_eq_true, Predicate.Accepts, Comparison.holds_text_iff]
    | float64 | int32 => simp [Predicate.Accepts]
  | dictionary => simp

/-- The survivors are the rows that have, for every predicate, a value that it accepts. -/
theorem Sheet.mem_survivors_iff {sheet : Sheet} {predicates : List Predicate} {row : Nat} :
    row ∈ sheet.survivors predicates ↔ row < sheet.rows ∧ ∀ predicate ∈ predicates,
      ∃ cell, (sheet.content predicate.column).value? row = some cell ∧ predicate.Accepts cell := by
  simp only [survivors, List.mem_filter, List.mem_range, List.all_eq_true, satisfies, Content.satisfies_iff]

end Pushdown
