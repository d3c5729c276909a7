/-! Finite binary floating-point numbers with 53 significant bits, held exactly. A magnitude is a
whole number of the smallest positive one, 2^-1074, so every operation is arithmetic on natural
numbers followed by one rounding to the nearest magnitude, a tie going to the even significand. The
decimal text of a magnitude has the fewest digits that round back to it and, among those, the digits
nearest to it. -/
namespace JsonUnpack

/-- A quotient rounded to the nearest natural number, a tie going to the even neighbour. -/
def nearestQuotient (num den : Nat) : Nat :=
  let twice := 2 * (num % den)
  if twice < den ∨ (twice = den ∧ num / den % 2 = 0) then num / den else num / den + 1

theorem div_le_nearestQuotient (num den : Nat) : num / den ≤ nearestQuotient num den := by
  unfold nearestQuotient
  dsimp only
  split <;> omega

theorem nearestQuotient_le (num den : Nat) : nearestQuotient num den ≤ num / den + 1 := by
  unfold nearestQuotient
  dsimp only
  split <;> omega

/-- The number `significand * 2 ^ scale` of units of 2^-1074. The significand fills its 53 bits
whenever the scale could be lowered, so each magnitude has one representation. -/
structure Magnitude where
  significand : Nat
  scale : Nat
  significand_lt : significand < 0x20000000000000
  scale_le : scale ≤ 2045
  normal : scale = 0 ∨ 0x10000000000000 ≤ significand
  deriving DecidableEq

namespace Magnitude

/-- The magnitude counted in units of 2^-1074. -/
def units (x : Magnitude) : Nat := x.significand <<< x.scale

/-- The binary places after the point that a unit takes. -/
def places : Nat := 1074

/-- The units that make one. -/
def unitsInOne : Nat := 1 <<< places

/-- No units at all. -/
def zero : Magnitude := ⟨0, 0, by decide, by decide, .inl rfl⟩

/-- The scale at which a number with this whole part has a significand of at most 53 bits. -/
def scaleFor (whole : Nat) : Nat := whole.log2 - 52

private theorem shifted_lt (whole : Nat) : whole >>> scaleFor whole < 0x20000000000000 := by
  rw [Nat.shiftRight_eq_div_pow]
  apply Nat.div_lt_of_lt_mul
  refine Nat.lt_of_lt_of_le Nat.lt_log2_self ?_
  refine Nat.le_trans (Nat.pow_le_pow_right (by decide) ?_) (Nat.le_of_eq (Nat.pow_add 2 _ 53))
  unfold scaleFor
  omega

theorem le_shifted (whole : Nat) :
    scaleFor whole = 0 ∨ 0x10000000000000 ≤ whole >>> scaleFor whole := by
  by_cases large : 52 < whole.log2
  · right
    have nonzero : whole ≠ 0 := by
      intro zero
      rw [zero, Nat.log2_zero] at large
      cases large
    rw [Nat.shiftRight_eq_div_pow, Nat.le_div_iff_mul_le (Nat.two_pow_pos _)]
    refine Nat.le_trans (Nat.le_of_eq (Nat.pow_add 2 52 _).symm) ?_
    refine Nat.le_trans (Nat.pow_le_pow_right (by decide) ?_) (Nat.log2_self_le nonzero)
    unfold scaleFor
    omega
  · left
    unfold scaleFor
    omega

theorem div_shiftLeft (num den scale : Nat) :
    num / den <<< scale = (num / den) >>> scale := by
  rw [Nat.shiftLeft_eq, Nat.shiftRight_eq_div_pow, Nat.div_div_eq_div_mul]

private theorem rounded_le (num den : Nat) :
    nearestQuotient num (den <<< scaleFor (num / den)) ≤ 0x20000000000000 := by
  apply Nat.le_trans (nearestQuotient_le ..)
  rw [div_shiftLeft]
  exact shifted_lt (num / den)

private theorem le_rounded (num den : Nat) : scaleFor (num / den) = 0 ∨
    0x10000000000000 ≤ nearestQuotient num (den <<< scaleFor (num / den)) := by
  refine (le_shifted (num / den)).imp id fun large => Nat.le_trans large ?_
  rw [← div_shiftLeft]
  exact div_le_nearestQuotient ..

/-- The magnitude nearest to `num / den` units, unless it lies past the largest one. A significand
that rounds up to 54 bits is the least one at the next scale. -/
def ofUnits? (num den : Nat) : Option Magnitude :=
  let scale := scaleFor (num / den)
  let significand := nearestQuotient num (den <<< scale)
  if carry : significand = 0x20000000000000 then
    if room : scale + 1 ≤ 2045 then
      some ⟨0x10000000000000, scale + 1, by decide, room, .inr (Nat.le_refl _)⟩
    else none
  else if room : scale ≤ 2045 then
    some ⟨significand, scale, Nat.lt_of_le_of_ne (rounded_le num den) carry, room,
      le_rounded num den⟩
  else none

/-- The magnitude nearest to a natural number. -/
def ofNat? (n : Nat) : Option Magnitude := ofUnits? (n * unitsInOne) 1

private theorem isSome_ofNat {n : Nat} (held : n < UInt64.size) : (ofNat? n).isSome := by
  have wide : n * unitsInOne < 2 ^ (64 + places) := by
    rw [unitsInOne, Nat.one_shiftLeft, Nat.pow_add]
    exact Nat.mul_lt_mul_of_pos_right held (Nat.two_pow_pos places)
  have room : scaleFor (n * unitsInOne / 1) + 1 ≤ 2045 := by
    rw [scaleFor, Nat.div_one]
    by_cases zero : n * unitsInOne = 0
    · rw [zero, Nat.log2_zero]
      decide
    · have bits := (Nat.log2_lt zero).mpr wide
      unfold places at bits
      omega
  rw [ofNat?, ofUnits?]
  split
  · rfl
  · rw [dif_pos (Nat.le_of_succ_le room)]
    rfl

/-- The magnitude nearest to a natural number that a 64-bit word holds. -/
def ofNat (n : Nat) (held : n < UInt64.size) : Magnitude := (ofNat? n).get (isSome_ofNat held)

/-- The rounded product. -/
def mul? (x y : Magnitude) : Option Magnitude := ofUnits? (x.units * y.units) unitsInOne

/-- The rounded quotient. -/
def div? (x y : Magnitude) : Option Magnitude := ofUnits? (x.units * unitsInOne) y.units

private theorem filled_lt (significand : Nat) (scale : Nat)
    (short : significand < 0x20000000000000) :
    significand <<< min scale (52 - significand.log2) < 0x20000000000000 := by
  rw [Nat.shiftLeft_eq]
  by_cases zero : significand = 0
  · rw [zero, Nat.zero_mul]
    decide
  · have bits := (Nat.log2_lt (k := 53) zero).mpr short
    calc significand * 2 ^ min scale (52 - significand.log2)
      _ < 2 ^ (significand.log2 + 1) * 2 ^ min scale (52 - significand.log2) :=
        Nat.mul_lt_mul_of_pos_right Nat.lt_log2_self (Nat.two_pow_pos _)
      _ = 2 ^ (significand.log2 + 1 + min scale (52 - significand.log2)) := (Nat.pow_add ..).symm
      _ ≤ 2 ^ 53 := Nat.pow_le_pow_right (by decide) (by omega)

private theorem le_filled {significand : Nat} (scale : Nat) (positive : significand ≠ 0)
    (short : significand < 0x20000000000000) :
    scale - min scale (52 - significand.log2) = 0 ∨
      0x10000000000000 ≤ significand <<< min scale (52 - significand.log2) := by
  have bits := (Nat.log2_lt (k := 53) positive).mpr short
  rcases Nat.le_total scale (52 - significand.log2) with low | high
  · left
    omega
  · right
    rw [Nat.min_eq_right high, Nat.shiftLeft_eq]
    calc 2 ^ 52
      _ = 2 ^ significand.log2 * 2 ^ (52 - significand.log2) := by
        rw [← Nat.pow_add]
        congr 1
        omega
      _ ≤ significand * 2 ^ (52 - significand.log2) :=
        Nat.mul_le_mul_right _ (Nat.log2_self_le positive)

/-- The number `significand * 2 ^ scale` of units, whatever bits the significand leaves free. -/
def scaled (significand scale : Nat) (short : significand < 0x20000000000000)
    (room : scale ≤ 2045) : Magnitude :=
  let shift := min scale (52 - significand.log2)
  if positive : significand ≠ 0 then
    ⟨significand <<< shift, scale - shift, filled_lt significand scale short,
      Nat.le_trans (Nat.sub_le ..) room, le_filled scale positive short⟩
  else zero

theorem units_scaled {significand scale : Nat} (short : significand < 0x20000000000000)
    (room : scale ≤ 2045) :
    (scaled significand scale short room).units = significand <<< scale := by
  rw [scaled]
  split
  · rw [units, ← Nat.shiftLeft_add, Nat.add_sub_of_le (Nat.min_le_left ..)]
  · rename_i empty
    rw [Decidable.not_not.mp empty, Nat.zero_shiftLeft]
    exact Nat.zero_shiftLeft 0

/-- What a magnitude has after the point. -/
def fract (x : Magnitude) : Magnitude :=
  scaled (x.significand % 1 <<< (places - x.scale)) x.scale
    (Nat.lt_of_le_of_lt (Nat.mod_le ..) x.significand_lt) x.scale_le

theorem units_fract (x : Magnitude) : x.fract.units = x.units % unitsInOne := by
  rw [fract, units_scaled, units, unitsInOne, Nat.one_shiftLeft, Nat.one_shiftLeft,
    Nat.shiftLeft_eq, Nat.shiftLeft_eq]
  rcases Nat.le_total x.scale places with low | high
  · rw [← Nat.mul_mod_mul_right, ← Nat.pow_add, Nat.sub_add_cancel low]
  · rw [Nat.sub_eq_zero_of_le high, Nat.pow_zero, Nat.mod_one, Nat.zero_mul]
    refine (Nat.mod_eq_zero_of_dvd ?_).symm
    exact Nat.dvd_mul_left_of_dvd (Nat.pow_dvd_pow 2 high) x.significand

end Magnitude

/-- A finite floating-point number. Zero has two signs, which print differently. -/
structure Binary64 where
  negative : Bool
  magnitude : Magnitude
  deriving DecidableEq

namespace Binary64

/-- Zero without a sign. -/
def zero : Binary64 := ⟨false, .zero⟩

/-- The number nearest to an integer that a 64-bit word holds. -/
def ofInt (n : Int) (held : n.natAbs < UInt64.size) : Binary64 := ⟨n < 0, .ofNat n.natAbs held⟩

instance : Neg Binary64 := ⟨fun x => ⟨!x.negative, x.magnitude⟩⟩

/-- The number counted in units of 2^-1074. Either zero has none. -/
def units (x : Binary64) : Int := if x.negative then -x.magnitude.units else x.magnitude.units

/-- Whether two numbers compare as equal; the two zeros do. -/
def equals (x y : Binary64) : Bool := x.units = y.units

instance : LT Binary64 := ⟨fun x y => x.units < y.units⟩

instance (x y : Binary64) : Decidable (x < y) := inferInstanceAs (Decidable (x.units < y.units))

/-- What a number has after the point, with the sign of the number. Where that is nothing it is zero
without a sign. -/
def fract (x : Binary64) : Binary64 :=
  ⟨x.negative && x.magnitude.fract ≠ .zero, x.magnitude.fract⟩

end Binary64

/-- The decimal notation of a natural number. -/
def decimalDigits (n : Nat) : List Char := Nat.toDigits 10 n

theorem digit_of_mem {n : Nat} {c : Char} (member : c ∈ Nat.toDigits 10 n) : c.isDigit = true :=
  Nat.isDigit_of_mem_toDigits (by decide) (by decide) member

theorem digits_start (n : Nat) : ∃ d more, Nat.toDigits 10 n = d :: more ∧ d.isDigit = true := by
  rcases digits : Nat.toDigits 10 n with _ | ⟨d, more⟩
  · exact absurd digits Nat.toDigits_ne_nil
  · refine ⟨d, more, rfl, digit_of_mem (n := n) ?_⟩
    rw [digits]
    exact List.mem_cons_self

/-- The notation of a number other than zero has no zeros in front. -/
theorem digits_lead {n : Nat} (positive : 0 < n) :
    ∃ d more, Nat.toDigits 10 n = d :: more ∧ d ≠ '0' := by
  induction n using Nat.strongRecOn with
  | ind n ih =>
    rw [Nat.toDigits_eq_if (by decide)]
    split
    · rename_i small
      have nonzero : ∀ m < 10, 0 < m → Nat.digitChar m ≠ '0' := by decide
      exact ⟨_, [], rfl, nonzero n small positive⟩
    · obtain ⟨d, more, digits, nonzero⟩ := ih (n / 10) (by omega) (by omega)
      exact ⟨d, more ++ [Nat.digitChar (n % 10)], by rw [digits, List.cons_append], nonzero⟩

/-- Reading further digits makes a number no smaller. -/
theorem le_ofDigitChars (digits : List Char) (n : Nat) : n ≤ Nat.ofDigitChars 10 digits n := by
  rw [Nat.ofDigitChars_eq_ofDigitChars_zero]
  have grown := Nat.one_le_pow digits.length 10 (by decide)
  calc n = 1 * n := (Nat.one_mul n).symm
    _ ≤ 10 ^ digits.length * n := Nat.mul_le_mul_right n grown
    _ ≤ _ := Nat.le_add_right _ _

/-- A power of ten. -/
def tenTo (exponent : Nat) : Nat := Nat.pow 10 exponent

/-- The number `d.ddd * 10 ^ lead`, written by its digits. -/
structure Decimal where
  digits : List Char
  lead : Int

namespace Magnitude

/-- The grids a magnitude is placed on have the steps `10 ^ (place - 340)`. The finest one is needed
for sixteen digits after the leading digit of the smallest magnitude, which stands at 10^-324. -/
def gridOffset : Nat := 340

/-- The place of the leading digit. -/
def leadPlace (x : Magnitude) : Nat :=
  (decimalDigits (x.units * tenTo 324 / unitsInOne)).length + 15

/-- Whether `coefficient` steps of a grid are rounded to this magnitude. -/
def isNearestTo (x : Magnitude) (coefficient place : Nat) : Bool :=
  ofUnits? (coefficient * tenTo place * unitsInOne) (tenTo gridOffset) = some x

/-- A grid point that is rounded to this magnitude: of its two neighbours the nearer one, if that
one is, and the other one next. -/
def gridPoint? (x : Magnitude) (place : Nat) : Option Nat :=
  let num := x.units * tenTo gridOffset
  let den := unitsInOne * tenTo place
  let near := nearestQuotient num den
  let far := 2 * (num / den) + 1 - near
  [near, far].find? fun point => x.isNearestTo point place

/-- The decimal of a grid point and its place, without the zeros at its end. -/
def decimalAt (found : Nat × Nat) : Decimal :=
  let digits := decimalDigits found.1
  { digits := (digits.reverse.dropWhile (· = '0')).reverse
    lead := digits.length - 1 + found.2 - gridOffset }

/-- The shortest decimal: the coarsest grid with a point decides. Seventeen digits always suffice,
so the digits kept for want of a point are never used. -/
def shortest (x : Magnitude) : Decimal :=
  let found := (List.range 17).findSome? fun n =>
    let place := x.leadPlace - n
    (x.gridPoint? place).map fun point => (point, place)
  decimalAt (found.getD (x.units, x.leadPlace))

end Magnitude

end JsonUnpack
