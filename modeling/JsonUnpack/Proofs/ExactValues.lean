import JsonUnpack.Json.Number
import JsonUnpack.Proofs.NearestMagnitude
import Mathlib.Algebra.Order.Field.Basic
import Mathlib.Algebra.Order.Field.Power
import Mathlib.Algebra.Order.Field.Rat
import Mathlib.Data.Rat.Cast.Order
import Mathlib.Tactic.FieldSimp
import Mathlib.Tactic.Linarith

/-! The rational numbers that numbers of a document stand for. Floating-point numbers compare as
their values do, and nothing is left after the point of those that are integers. An integer that is
rounded to a floating-point number keeps its value as long as it has at most 53 bits, and a larger
one is rounded to an integer that is large as well. -/
namespace JsonUnpack

namespace Magnitude

/-- The value of a magnitude: its significand counts units of 2^-1074, scaled. -/
def toRat (x : Magnitude) : ℚ := x.significand * 2 ^ ((x.scale : ℤ) - 1074)

private theorem units_in_one : unitsInOne = 2 ^ places := Nat.one_shiftLeft places

private theorem one_pos : 0 < unitsInOne := by
  rw [units_in_one]
  exact Nat.two_pow_pos places

theorem toRat_eq (x : Magnitude) : x.toRat = x.units / unitsInOne := by
  have one : (unitsInOne : ℚ) = 2 ^ (places : ℤ) := by
    rw [units_in_one, Nat.cast_pow, zpow_natCast, Nat.cast_ofNat]
  have units : (x.units : ℚ) = x.significand * 2 ^ (x.scale : ℤ) := by
    rw [units_eq, Nat.cast_mul, Nat.cast_pow, zpow_natCast, Nat.cast_ofNat]
  rw [units, one, mul_div_assoc, ← zpow_sub₀ two_ne_zero]
  rfl

private theorem toRat_eq_iff {x : Magnitude} {n : Nat} :
    x.toRat = n ↔ x.units = n * unitsInOne := by
  have one : (unitsInOne : ℚ) ≠ 0 := Nat.cast_ne_zero.mpr one_pos.ne'
  rw [toRat_eq, div_eq_iff one]
  exact_mod_cast Iff.rfl

theorem toRat_nonneg (x : Magnitude) : 0 ≤ x.toRat := by
  rw [toRat_eq]
  exact div_nonneg (Nat.cast_nonneg _) (Nat.cast_nonneg _)

/-- A natural number of at most 53 bits is the value of a magnitude. -/
theorem exists_toRat_eq {n : Nat} (small : n < 2 ^ 53) : ∃ x : Magnitude, x.toRat = n := by
  refine ⟨scaled n places small (by decide), toRat_eq_iff.mpr ?_⟩
  rw [units_scaled, Nat.shiftLeft_eq, units_in_one]

/-- When the significand fills its 53 bits before the point, there is no room for a fraction. -/
theorem whole_of_large {x : Magnitude} (large : 2 ^ 52 ≤ x.toRat) : ∃ n : Nat, x.toRat = n := by
  have units : 2 ^ 52 * unitsInOne ≤ x.units := by
    rw [toRat_eq, le_div_iff₀ (Nat.cast_pos.mpr one_pos)] at large
    exact_mod_cast large
  rw [units_eq, units_in_one] at units
  have scaled : places ≤ x.scale := by
    have wide : 2 ^ 52 * 2 ^ places < 2 ^ 52 * 2 ^ (x.scale + 1) := by
      calc 2 ^ 52 * 2 ^ places ≤ x.significand * 2 ^ x.scale := units
        _ < 2 ^ 53 * 2 ^ x.scale := Nat.mul_lt_mul_of_pos_right x.significand_lt (Nat.two_pow_pos _)
        _ = 2 ^ 52 * 2 ^ (x.scale + 1) := by rw [Nat.pow_succ]; omega
    have powers := Nat.lt_of_mul_lt_mul_left wide
    exact Nat.le_of_lt_succ ((Nat.pow_lt_pow_iff_right (by decide)).mp powers)
  refine ⟨x.significand * 2 ^ (x.scale - places), toRat_eq_iff.mpr ?_⟩
  rw [units_eq, units_in_one, Nat.mul_assoc, ← Nat.pow_add, Nat.sub_add_cancel scaled]

end Magnitude

namespace Binary64

/-- The value of a floating-point number. Both zeros are zero. -/
def toRat (x : Binary64) : ℚ := if x.negative then -x.magnitude.toRat else x.magnitude.toRat

theorem toRat_eq_units (x : Binary64) : x.toRat = x.units / Magnitude.unitsInOne := by
  rw [toRat, units, Magnitude.toRat_eq]
  split
  · rw [Int.cast_neg, Int.cast_natCast, neg_div]
  · rw [Int.cast_natCast]

/-- Numbers compare as their values do. -/
theorem lt_iff {x y : Binary64} : x < y ↔ x.toRat < y.toRat := by
  rw [toRat_eq_units, toRat_eq_units, div_lt_div_iff_of_pos_right
    (Nat.cast_pos.mpr Magnitude.one_pos), Int.cast_lt]
  exact Iff.rfl

@[simp] theorem toRat_neg (x : Binary64) : (-x).toRat = -x.toRat := by
  change (if !x.negative then -x.magnitude.toRat else x.magnitude.toRat) = -x.toRat
  rw [toRat]
  cases x.negative with
  | true => exact (neg_neg _).symm
  | false => rfl

private theorem natAbs_units (x : Binary64) : x.units.natAbs = x.magnitude.units := by
  rw [units]
  split
  · rw [Int.natAbs_neg, Int.natAbs_natCast]
  · exact Int.natAbs_natCast _

/-- Nothing is left after the point exactly if the value is an integer. -/
theorem fract_equals_zero_iff {x : Binary64} :
    x.fract.equals .zero = true ↔ ∃ i : ℤ, x.toRat = i := by
  have none : zero.units = 0 := by decide
  have one : (Magnitude.unitsInOne : ℚ) ≠ 0 := Nat.cast_ne_zero.mpr Magnitude.one_pos.ne'
  calc x.fract.equals .zero = true
    _ ↔ x.magnitude.units % Magnitude.unitsInOne = 0 := by
      rw [equals, none, decide_eq_true_eq, ← Int.natAbs_eq_zero, natAbs_units,
        ← Magnitude.units_fract]
      exact Iff.rfl
    _ ↔ (Magnitude.unitsInOne : ℤ) ∣ x.units := by
      rw [Int.natCast_dvd, natAbs_units, Nat.dvd_iff_mod_eq_zero]
    _ ↔ ∃ i : ℤ, x.toRat = i := by
      rw [dvd_iff_exists_eq_mul_left]
      refine exists_congr fun i => ?_
      rw [toRat_eq_units, div_eq_iff one]
      exact_mod_cast Iff.rfl

/-- A floating-point number is what an integer is rounded to: none is nearer, and if another one is
as near, then this one has an even significand. -/
structure Rounds (n : ℤ) (x : Binary64) : Prop where
  nearest : ∀ y : Binary64, |x.toRat - n| ≤ |y.toRat - n|
  even : ∀ y : Binary64, |y.toRat - n| = |x.toRat - n| → y.toRat ≠ x.toRat →
    x.magnitude.significand % 2 = 0

private def missBy (n : ℤ) (x : Binary64) : Nat := (x.units - n * Magnitude.unitsInOne).natAbs

private theorem distance_eq (n : ℤ) (x : Binary64) :
    |x.toRat - n| = x.missBy n / Magnitude.unitsInOne := by
  have one : (0 : ℚ) < Magnitude.unitsInOne := Nat.cast_pos.mpr Magnitude.one_pos
  have difference : x.toRat - n =
      ((x.units - n * Magnitude.unitsInOne : ℤ) : ℚ) / Magnitude.unitsInOne := by
    rw [toRat_eq_units]
    push_cast
    field_simp
  rw [difference, abs_div, abs_of_pos one, missBy, Nat.cast_natAbs, Int.cast_abs]

private theorem distance_le_iff {n : ℤ} {x y : Binary64} :
    |x.toRat - n| ≤ |y.toRat - n| ↔ x.missBy n ≤ y.missBy n := by
  rw [distance_eq, distance_eq, div_le_div_iff_of_pos_right (Nat.cast_pos.mpr Magnitude.one_pos),
    Nat.cast_le]

private theorem units_of_integer (n : ℤ) : n * Magnitude.unitsInOne =
    if n < 0 then -((n.natAbs * Magnitude.unitsInOne : Nat) : ℤ)
    else (n.natAbs * Magnitude.unitsInOne : Nat) := by
  rw [Int.natCast_mul]
  split
  · rename_i negative
    rw [Int.ofNat_natAbs_of_nonpos (Int.le_of_lt negative), Int.neg_mul, Int.neg_neg]
  · rename_i negative
    rw [Int.natAbs_of_nonneg (Int.not_lt.mp negative)]

/-- Rounding the magnitude of an integer and giving it the sign rounds the integer. -/
theorem rounds_of_magnitude {n : ℤ} {m : Magnitude} (found : Magnitude.ofNat? n.natAbs = some m) :
    Rounds n ⟨n < 0, m⟩ := by
  have nearest := Magnitude.nearest_units Nat.one_pos found
  have signed := units_of_integer n
  have own : missBy n ⟨n < 0, m⟩ =
      JsonUnpack.missBy (n.natAbs * Magnitude.unitsInOne) 1 m.units := by
    simp only [missBy, units, JsonUnpack.missBy, decide_eq_true_eq]
    omega
  have other : ∀ y : Binary64, JsonUnpack.missBy (n.natAbs * Magnitude.unitsInOne) 1
      y.magnitude.units ≤ missBy n y := by
    intro y
    simp only [missBy, units, JsonUnpack.missBy]
    omega
  constructor
  · intro y
    rw [distance_le_iff, own]
    exact Nat.le_trans (nearest y.magnitude).1 (other y)
  · intro y tie apart
    have equal : missBy n y = missBy n ⟨n < 0, m⟩ := by
      apply Nat.le_antisymm
      · exact distance_le_iff.mp (le_of_eq tie)
      · exact distance_le_iff.mp (le_of_eq tie.symm)
    have units_ne : y.units ≠ units ⟨n < 0, m⟩ := by
      intro same
      rw [toRat_eq_units, toRat_eq_units, same] at apart
      exact apart rfl
    have least := (nearest y.magnitude).1
    have above := other y
    apply (nearest y.magnitude).2
    · omega
    · intro same
      have zero := (nearest .zero).1
      have none : Magnitude.zero.units = 0 := Nat.zero_shiftLeft 0
      simp only [missBy, units, JsonUnpack.missBy, decide_eq_true_eq] at *
      omega

/-- An integer that a 64-bit word holds is rounded to the floating-point number that it is taken
as. -/
theorem rounds_ofInt {n : ℤ} (held : n.natAbs < UInt64.size) : Rounds n (ofInt n held) :=
  rounds_of_magnitude (Option.some_get _).symm

/-- An integer that is the value of a floating-point number is rounded to that value. -/
theorem Rounds.exact {n : ℤ} {x y : Binary64} (rounds : Rounds n x) (exact : y.toRat = n) :
    x.toRat = n := by
  have nearest := rounds.nearest y
  rw [exact, sub_self, abs_zero] at nearest
  exact sub_eq_zero.mp (abs_nonpos_iff.mp nearest)

private theorem abs_toRat (x : Binary64) : |x.toRat| = x.magnitude.toRat := by
  rw [toRat]
  split
  · rw [abs_neg, abs_of_nonneg x.magnitude.toRat_nonneg]
  · rw [abs_of_nonneg x.magnitude.toRat_nonneg]

theorem exists_toRat_eq {n : ℤ} (small : n.natAbs < 2 ^ 53) :
    ∃ x : Binary64, x.toRat = n := by
  obtain ⟨m, exact⟩ := Magnitude.exists_toRat_eq small
  refine ⟨⟨n < 0, m⟩, ?_⟩
  rw [toRat, exact, Nat.cast_natAbs]
  by_cases negative : n < 0
  · rw [if_pos (decide_eq_true negative), abs_of_neg negative, Int.cast_neg, neg_neg]
  · rw [if_neg (by simpa using negative), abs_of_nonneg (not_lt.mp negative)]

/-- An integer of at most 53 bits keeps its value. -/
theorem toRat_ofInt {n : ℤ} (small : n.natAbs < 2 ^ 53) (held : n.natAbs < UInt64.size) :
    (ofInt n held).toRat = n := by
  obtain ⟨y, exact⟩ := exists_toRat_eq small
  exact (rounds_ofInt held).exact exact

/-- An integer of more than 53 bits is rounded to an integer of 53 bits or more. -/
theorem Rounds.large {n : ℤ} {x : Binary64} (rounds : Rounds n x) (large : 2 ^ 53 ≤ |n|) :
    ∃ i : ℤ, x.toRat = i ∧ 2 ^ 52 ≤ |i| := by
  obtain ⟨bound, size, between⟩ : ∃ bound : ℤ, bound.natAbs = 2 ^ 52 ∧
      |bound - n| = |n| - 2 ^ 52 := by
    rcases abs_cases n with ⟨same, _⟩ | ⟨same, _⟩
    · refine ⟨2 ^ 52, rfl, ?_⟩
      rw [abs_sub_comm, same, abs_of_nonneg]
      omega
    · refine ⟨-2 ^ 52, rfl, ?_⟩
      rw [same, abs_of_nonneg] <;> omega
  obtain ⟨y, value⟩ := @exists_toRat_eq bound (by omega)
  have near : |x.toRat - n| ≤ |(n : ℚ)| - 2 ^ 52 := by
    have nearest := rounds.nearest y
    rw [value] at nearest
    exact_mod_cast nearest.trans_eq (by exact_mod_cast between)
  have far := abs_sub_abs_le_abs_sub (n : ℚ) x.toRat
  rw [abs_sub_comm, abs_toRat] at far
  have filled : 2 ^ 52 ≤ x.magnitude.toRat := by linarith
  obtain ⟨k, whole⟩ := Magnitude.whole_of_large filled
  obtain ⟨i, exact⟩ : ∃ i : ℤ, x.toRat = i := by
    rw [toRat, whole]
    split
    · exact ⟨-k, by rw [Int.cast_neg, Int.cast_natCast]⟩
    · exact ⟨k, rfl⟩
  refine ⟨i, exact, ?_⟩
  rw [← abs_toRat, exact] at filled
  exact_mod_cast filled

end Binary64

namespace Json.Number

/-- The value of a number, whichever way it is held. -/
def toRat : Number → ℚ
  | whole n => n.val
  | float x => x.toRat

end Json.Number

end JsonUnpack
