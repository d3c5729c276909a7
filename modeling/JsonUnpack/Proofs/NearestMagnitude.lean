import JsonUnpack.Binary64
import Mathlib.Algebra.Order.Ring.Int

/-! Rounding answers the nearest magnitude, and of two that are equally near the one with an even
significand. Every magnitude is on the grid whose step is the scale that rounding chooses, or it
lies below the first 53-bit significand of that grid; so it is enough to be nearest among the grid
points, which is what rounding a quotient does. -/
namespace JsonUnpack

/-- How far so many units are from `num / den` units, in parts of a unit of which there are
`den`. -/
def missBy (num den units : Nat) : Nat := ((units * den : Nat) - (num : Int)).natAbs

private theorem miss_of_le {num den k : Nat} (below : k ≤ num / den) :
    missBy num den k = (num / den - k) * den + num % den := by
  have split := Nat.div_add_mod' num den
  have parts : k * den + (num / den - k) * den = num / den * den := by
    rw [← Nat.add_mul, Nat.add_sub_of_le below]
  unfold missBy
  omega

private theorem miss_of_lt {num den k : Nat} (positive : 0 < den) (above : num / den < k) :
    missBy num den k = (k - num / den - 1) * den + (den - num % den) := by
  have split := Nat.div_add_mod' num den
  have remainder := Nat.mod_lt num positive
  have parts : num / den * den + den + (k - num / den - 1) * den = k * den := by
    rw [← Nat.succ_mul, ← Nat.add_mul]
    congr 1
    omega
  unfold missBy
  omega

private theorem nearest_quotient {num den : Nat} (positive : 0 < den) (k : Nat) :
    missBy num den (nearestQuotient num den) ≤ missBy num den k ∧
    (missBy num den k = missBy num den (nearestQuotient num den) → k ≠ nearestQuotient num den →
      nearestQuotient num den % 2 = 0) := by
  have remainder := Nat.mod_lt num positive
  have floor : missBy num den (num / den) = num % den := by
    rw [miss_of_le (Nat.le_refl _), Nat.sub_self, Nat.zero_mul, Nat.zero_add]
  have ceiling : missBy num den (num / den + 1) = den - num % den := by
    rw [miss_of_lt positive (Nat.lt_add_one _), Nat.add_sub_cancel_left, Nat.sub_self,
      Nat.zero_mul, Nat.zero_add]
  have lower : k < num / den → den ≤ missBy num den k := by
    intro below
    rw [miss_of_le (Nat.le_of_lt below)]
    exact Nat.le_add_right_of_le (Nat.le_mul_of_pos_left den (Nat.sub_pos_of_lt below))
  have higher : num / den + 1 < k → den < missBy num den k := by
    intro above
    rw [miss_of_lt positive (Nat.lt_of_succ_lt above)]
    have whole := Nat.le_mul_of_pos_left den (n := k - num / den - 1) (by omega)
    omega
  have place : k < num / den ∨ k = num / den ∨ k = num / den + 1 ∨ num / den + 1 < k := by omega
  unfold nearestQuotient
  dsimp only
  split
  · rw [floor]
    rcases place with below | rfl | rfl | above
    · have := lower below
      omega
    · omega
    · omega
    · have := higher above
      omega
  · rw [ceiling]
    rcases place with below | rfl | rfl | above
    · have := lower below
      omega
    · omega
    · omega
    · have := higher above
      omega

private theorem miss_lt_of_lt {num den a b : Nat} (positive : 0 < den) (less : a < b)
    (below : b ≤ num / den) : missBy num den b < missBy num den a := by
  rw [miss_of_le below, miss_of_le (Nat.le_trans (Nat.le_of_lt less) below)]
  apply Nat.add_lt_add_right
  apply Nat.mul_lt_mul_of_pos_right _ positive
  omega

namespace Magnitude

variable {num den : Nat}

theorem units_eq (x : Magnitude) : x.units = x.significand * 2 ^ x.scale := Nat.shiftLeft_eq ..

private def step (num den : Nat) : Nat := 2 ^ scaleFor (num / den)

private def point (num den : Nat) : Nat := nearestQuotient num (den * step num den)

private theorem miss_on_grid (k : Nat) :
    missBy num den (k * step num den) = missBy num (den * step num den) k := by
  rw [missBy, missBy, Nat.mul_assoc, Nat.mul_comm (step num den)]

private theorem rounded_to_point {x : Magnitude} (rounded : ofUnits? num den = some x) :
    x.units = point num den * step num den ∧
      (point num den % 2 = 0 → x.significand % 2 = 0) := by
  rw [ofUnits?] at rounded
  simp only [Nat.shiftLeft_eq] at rounded
  change (if carry : point num den = 0x20000000000000 then _ else _) = _ at rounded
  split at rounded
  · rename_i carry
    split at rounded
    · cases rounded
      rw [units_eq, carry]
      refine ⟨?_, fun _ => (by decide : 0x10000000000000 % 2 = 0)⟩
      dsimp only
      rw [Nat.pow_succ, step]
      omega
    · cases rounded
  · split at rounded
    · cases rounded
      exact ⟨units_eq _, id⟩
    · cases rounded

private theorem on_grid_or_less (y : Magnitude) :
    (∃ k, y.units = k * step num den) ∨
      y.units < (num / den) >>> scaleFor (num / den) * step num den := by
  by_cases coarse : scaleFor (num / den) ≤ y.scale
  · left
    refine ⟨y.significand * 2 ^ (y.scale - scaleFor (num / den)), ?_⟩
    rw [units_eq, step, Nat.mul_assoc, ← Nat.pow_add, Nat.sub_add_cancel coarse]
  · right
    have large := (le_shifted (num / den)).resolve_left (by omega)
    calc y.units = y.significand * 2 ^ y.scale := units_eq y
      _ < 2 ^ 53 * 2 ^ y.scale := Nat.mul_lt_mul_of_pos_right y.significand_lt (Nat.two_pow_pos _)
      _ = 2 ^ 52 * 2 ^ (y.scale + 1) := by rw [Nat.pow_succ]; omega
      _ ≤ 2 ^ 52 * step num den :=
        Nat.mul_le_mul_left _ (Nat.pow_le_pow_right (by decide) (by omega))
      _ ≤ _ := Nat.mul_le_mul_right _ large

/-- No magnitude is nearer than the one that rounding answers. If another one is as near, the answer
has an even significand. -/
theorem nearest_units (positive : 0 < den) {x : Magnitude} (rounded : ofUnits? num den = some x)
    (y : Magnitude) :
    missBy num den x.units ≤ missBy num den y.units ∧
    (missBy num den y.units = missBy num den x.units → y.units ≠ x.units →
      x.significand % 2 = 0) := by
  obtain ⟨chosen, even⟩ := rounded_to_point rounded
  have coarse : 0 < den * step num den := Nat.mul_pos positive (Nat.two_pow_pos _)
  have least := @nearest_quotient num _ coarse
  rw [chosen, miss_on_grid]
  rcases @on_grid_or_less num den y with ⟨k, onGrid⟩ | less
  · rw [onGrid, miss_on_grid]
    refine ⟨(least k).1, ?_⟩
    intro tie other
    apply even
    apply (least k).2 tie
    rintro rfl
    exact other rfl
  · have floor : (num / den) >>> scaleFor (num / den) * step num den ≤ num / den := by
      rw [Nat.shiftRight_eq_div_pow]
      exact Nat.div_mul_le_self _ _
    have nearer := miss_lt_of_lt positive less floor
    rw [miss_on_grid] at nearer
    have strictly := Nat.lt_of_le_of_lt (least _).1 nearer
    refine ⟨Nat.le_of_lt strictly, ?_⟩
    intro tie
    exact absurd tie.symm (Nat.ne_of_lt strictly)

end Magnitude

end JsonUnpack
