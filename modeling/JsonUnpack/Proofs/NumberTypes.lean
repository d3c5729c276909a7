import JsonUnpack.Cpp
import JsonUnpack.Proofs.ExactValues

/-! The C++ type of a number follows from its value, however the number is held: as an integer, or
as the floating-point number that the integer is rounded to. -/
namespace JsonUnpack

namespace Cpp.LeafType

open Json (Number Value Whole)

private theorem int64_of_lt {n : Whole} (less : n.val < 2 ^ 63) :
    (Number.whole n).int64? = some (.ofInt n.val) := if_pos less

private theorem int64_of_not_lt {n : Whole} (large : ¬ n.val < 2 ^ 63) :
    (Number.whole n).int64? = none := if_neg large

private theorem of_int64 (i : Int64) :
    ofInt64 i = if -32000 < i.toInt ∧ i.toInt < 32000 then int else long := by
  have lower : (-intBound).toInt = -32000 := by decide
  have upper : intBound.toInt = 32000 := by decide
  have inside : -intBound < i ∧ i < intBound ↔ -32000 < i.toInt ∧ i.toInt < 32000 := by
    rw [Int64.lt_iff_toInt_lt, Int64.lt_iff_toInt_lt, lower, upper]
  exact if_congr inside rfl rfl

private theorem of_binary64_integer {x : Binary64} {i : ℤ} (value : x.toRat = i) :
    ofBinary64 x = if -32000 < i ∧ i < 32000 then int else long := by
  have bound : floatBound.toRat = (32000 : ℤ) := Binary64.toRat_ofInt (by decide) _
  have inside : -floatBound < x ∧ x < floatBound ↔ -32000 < i ∧ i < 32000 := by
    rw [Binary64.lt_iff, Binary64.lt_iff, Binary64.toRat_neg, bound, value, ← Int.cast_neg,
      Int.cast_lt, Int.cast_lt]
  have whole : x.fract.equals .zero = true := Binary64.fract_equals_zero_iff.mpr ⟨i, value⟩
  rw [ofBinary64, whole, Bool.not_true, if_neg Bool.false_ne_true]
  exact if_congr inside rfl rfl

private theorem of_binary64_fraction {x : Binary64} (fraction : ¬ ∃ i : ℤ, x.toRat = i) :
    ofBinary64 x = float := by
  have left : x.fract.equals .zero = false :=
    Bool.eq_false_iff.mpr (mt Binary64.fract_equals_zero_iff.mp fraction)
  rw [ofBinary64, left]
  rfl

/-- A number with an integer value has one type, whichever way it is taken: as a signed word, as an
unsigned word past the signed ones or as a floating-point number. -/
theorem of_integer {n : Number} {i : ℤ} (value : n.toRat = i) :
    ofNumber n = if -32000 < i ∧ i < 32000 then int else long := by
  cases n with
  | whole n =>
    obtain rfl : n.val = i := Int.cast_injective value
    by_cases signed : n.val < 2 ^ 63
    · rw [ofNumber, int64_of_lt signed]
      change ofInt64 _ = _
      rw [of_int64, Int64.toInt_ofInt_of_le n.property.1 signed]
    · have unsigned : (Number.whole n).isUInt64 = true :=
        decide_eq_true (le_trans (by norm_num) (not_lt.mp signed))
      have large : ¬ (-32000 < n.val ∧ n.val < 32000) := by omega
      rw [ofNumber, int64_of_not_lt signed, if_neg large]
      exact if_pos unsigned
  | float x => exact of_binary64_integer value

/-- A number without an integer value is held as a floating-point number, and typed as one. -/
theorem of_fraction {n : Number} (fraction : ¬ ∃ i : ℤ, n.toRat = i) : ofNumber n = float := by
  cases n with
  | whole n => exact absurd ⟨n.val, rfl⟩ fraction
  | float x => exact of_binary64_fraction fraction

private theorem of_large {n : Number} {i : ℤ} (value : n.toRat = i) (large : 32000 ≤ |i|) :
    ofNumber n = long := by
  rw [of_integer value, if_neg]
  intro small
  exact absurd (abs_lt.mpr small) (not_lt.mpr large)

private theorem type_cases (n : Number) :
    (ofNumber n = float ∧ ¬ ∃ i : ℤ, n.toRat = i) ∨
    (∃ i : ℤ, n.toRat = i ∧ ofNumber n = int ∧ -32000 < i ∧ i < 32000) ∨
    (∃ i : ℤ, n.toRat = i ∧ ofNumber n = long ∧ 32000 ≤ |i|) := by
  by_cases whole : ∃ i : ℤ, n.toRat = i
  · obtain ⟨i, value⟩ := whole
    by_cases small : -32000 < i ∧ i < 32000
    · exact .inr (.inl ⟨i, value, (of_integer value).trans (if_pos small), small⟩)
    · exact .inr (.inr ⟨i, value, (of_integer value).trans (if_neg small),
        not_lt.mp fun less => small (abs_lt.mp less)⟩)
  · exact .inl ⟨of_fraction whole, whole⟩

private theorem ranges_apart {n : Number} {i j : ℤ} (value : n.toRat = i) (other : n.toRat = j)
    (small : -32000 < i ∧ i < 32000) (large : 32000 ≤ |j|) : False := by
  obtain rfl : i = j := Int.cast_injective (value.symm.trans other)
  exact absurd (abs_lt.mpr small) (not_lt.mpr large)

private theorem type_of_rounded {n : Whole} {x : Binary64} (rounds : Binary64.Rounds n.val x) :
    ofNumber (.float x) = ofNumber (.whole n) := by
  have own : (Number.whole n).toRat = n.val := rfl
  by_cases small : n.val.natAbs < 2 ^ 53
  · have same : (Number.float x).toRat = n.val := by
      obtain ⟨y, exact⟩ := Binary64.exists_toRat_eq small
      exact rounds.exact exact
    rw [of_integer same, of_integer own]
  · have wide : 2 ^ 53 ≤ |n.val| := by
      rw [Int.abs_eq_natAbs]
      exact_mod_cast not_lt.mp small
    obtain ⟨i, value, large⟩ := rounds.large wide
    have rounded : ofNumber (.float x) = long := of_large value (le_trans (by norm_num) large)
    rw [rounded, of_large own (le_trans (by norm_num) wide)]

/-- The type of a number follows from its value: with a fraction it is `float`, an integer strictly
inside the bounds of `int` is `int`, and any other integer is `long`. So an integer keeps its type
when it is held as the floating-point number that it is rounded to. -/
theorem type_of_value :
    (∀ n : Number,
      (ofValue? (.ofNumber n) = some float ↔ ¬ ∃ i : ℤ, n.toRat = i) ∧
      (ofValue? (.ofNumber n) = some int ↔ ∃ i : ℤ, n.toRat = i ∧ -32000 < i ∧ i < 32000) ∧
      (ofValue? (.ofNumber n) = some long ↔ ∃ i : ℤ, n.toRat = i ∧ 32000 ≤ |i|)) ∧
    ∀ n : Whole, (∃ x, Binary64.Rounds n.val x) ∧ ∀ x, Binary64.Rounds n.val x →
      ofValue? (.ofNumber (.float x)) = ofValue? (.ofNumber (.whole n)) := by
  constructor
  · intro n
    have typed : ofValue? (.ofNumber n) = some (ofNumber n) := rfl
    rw [typed]
    rcases type_cases n with ⟨type, fraction⟩ | ⟨i, value, type, small⟩ | ⟨i, value, type, large⟩
    · rw [type]
      refine ⟨iff_of_true rfl fraction, iff_of_false nofun ?_, iff_of_false nofun ?_⟩
      all_goals
        rintro ⟨i, value, _⟩
        exact fraction ⟨i, value⟩
    · rw [type]
      refine ⟨iff_of_false nofun (not_not_intro ⟨i, value⟩), iff_of_true rfl ⟨i, value, small⟩,
        iff_of_false nofun ?_⟩
      rintro ⟨j, other, large⟩
      exact ranges_apart value other small large
    · rw [type]
      refine ⟨iff_of_false nofun (not_not_intro ⟨i, value⟩), iff_of_false nofun ?_,
        iff_of_true rfl ⟨i, value, large⟩⟩
      rintro ⟨j, other, small⟩
      exact ranges_apart other value small large
  · intro n
    have held : n.val.natAbs < UInt64.size := by
      have bounds := n.property
      unfold UInt64.size
      omega
    refine ⟨⟨_, Binary64.rounds_ofInt held⟩, ?_⟩
    intro x rounds
    exact congrArg some (type_of_rounded rounds)

/-- An integer half way between two floating-point numbers is held as neither. -/
theorem type_of_value_at_tie :
    let x : Binary64 := ⟨false, 0x10000000000000, 1075, by decide, by decide, by decide⟩
    Binary64.Rounds 0x20000000000001 x ∧ ofValue? (.ofNumber (.float x)) =
      ofValue? (.ofNumber (.whole ⟨0x20000000000001, by decide, by decide⟩)) := by
  intro x
  have rounds : Binary64.Rounds 0x20000000000001 x :=
    Binary64.rounds_of_magnitude (by decide +kernel)
  exact ⟨rounds, (type_of_value.2 ⟨0x20000000000001, by decide, by decide⟩).2 x rounds⟩

end Cpp.LeafType

end JsonUnpack
