import JsonUnpack.Json.Fault
import JsonUnpack.Json.Number

/-! Number literals. Digits are collected into a 64-bit significand and a power of ten, and the two
are combined with one rounding for each operation. A literal that is not whole is therefore not
always read as the nearest floating-point number. -/
namespace JsonUnpack.Json

/-- A literal as a significand times a power of ten. It is whole if it has neither point nor
exponent and all its digits fit. -/
structure Numeral where
  negative : Bool
  significand : Nat
  exponent : Int
  whole : Bool
  significand_lt : significand < UInt64.size

/-- The value of a decimal digit. -/
def digitValue (c : Char) : Nat := c.toNat - '0'.toNat

/-- Appends digits to a significand as long as it stays below 2^64, and answers the digits from the
first one that does not fit as well. -/
def absorb (significand : Nat) : List Char → Nat × List Char
  | [] => (significand, [])
  | d :: rest =>
    let next := 10 * significand + digitValue d
    if next < UInt64.size then absorb next rest else (significand, d :: rest)

theorem absorb_lt {significand : Nat} (fits : significand < UInt64.size) (digits : List Char) :
    (absorb significand digits).1 < UInt64.size := by
  fun_induction absorb significand digits <;> simp_all

/-- A 64-bit significand times a power of ten. A factor past 10^308 is out of range, and a divisor
past 10^308 is divided by in two steps; past 10^616 nothing is left. -/
def timesPowerOfTen? (significand : Nat) (exponent : Int) : Option Magnitude := do
  let factor ← Magnitude.ofNat? significand
  let power := exponent.natAbs
  if 0 ≤ exponent then
    if power ≤ 308 then factor.mul? (← Magnitude.ofNat? (tenTo power))
    else if significand = 0 then some .zero
    else none
  else if power ≤ 308 then factor.div? (← Magnitude.ofNat? (tenTo power))
  else if power ≤ 616 then
    let quotient ← factor.div? (← Magnitude.ofNat? (tenTo 308))
    quotient.div? (← Magnitude.ofNat? (tenTo (power - 308)))
  else some .zero

/-- The number a literal stands for, unless it is too large. A negative whole literal is an integer
only if it is not zero and a signed word holds it. -/
def Numeral.number? (numeral : Numeral) : Option Number :=
  if numeral.whole && !numeral.negative then
    some (.ofNat numeral.significand numeral.significand_lt)
  else if held : numeral.whole ∧ 0 < numeral.significand ∧
      numeral.significand ≤ 0x8000000000000000 then
    some (.whole ⟨-numeral.significand, by omega, by omega⟩)
  else
    (timesPowerOfTen? numeral.significand numeral.exponent).map fun magnitude =>
      .float ⟨numeral.negative, magnitude⟩

/-- Reads the digits before the point: a single zero, or digits that start with another one. -/
def wholeDigits : List Char → Reading (List Char)
  | [] => .error (.before .endInValue [])
  | d :: rest =>
    if d = '0' then
      if rest.head?.any Char.isDigit then .error (.on .invalidNumber rest) else .ok ([d], rest)
    else if d.isDigit then .ok (d :: rest.takeWhile Char.isDigit, rest.dropWhile Char.isDigit)
    else .error (.on .invalidNumber (d :: rest))

/-- Reads the digits after the point, of which there is at least one. -/
def fractionDigits (text : List Char) : Reading (List Char) :=
  match text with
  | [] => .error (.on .endInValue [])
  | d :: _ =>
    if d.isDigit then .ok (text.takeWhile Char.isDigit, text.dropWhile Char.isDigit)
    else .error (.on .invalidNumber text)

/-- The largest exponent of a literal that is not zero. -/
def greatestExponent : Nat := 0x7FFFFFFF

/-- Reads on in an exponent whose digits so far make `sofar`. A bounded exponent that grows too
large is reported at the digit that makes it so. -/
def moreExponent (bounded : Bool) (sofar : Nat) : List Char → Reading Nat
  | [] => .ok (sofar, [])
  | d :: rest =>
    if d.isDigit then
      let next := 10 * sofar + digitValue d
      if bounded && greatestExponent < next then .error (.before .numberOutOfRange rest)
      else moreExponent bounded next rest
    else .ok (sofar, d :: rest)

/-- Reads the digits of an exponent, of which there is at least one. -/
def exponentDigits (bounded : Bool) (text : List Char) : Reading Nat :=
  match text with
  | [] => .error (.before .endInValue [])
  | d :: _ =>
    if d.isDigit then moreExponent bounded 0 text else .error (.on .invalidNumber text)

/-- Reads what follows the letter of an exponent. Only an exponent that makes a number larger is
bounded, and none is bounded for a significand of zero. -/
def signedExponent (significand : Nat) : List Char → Reading Int
  | '-' :: text => (exponentDigits false text).map fun (n : Nat) => -(n : Int)
  | '+' :: text => (exponentDigits (significand ≠ 0) text).map Int.ofNat
  | text => (exponentDigits (significand ≠ 0) text).map Int.ofNat

/-- Reads an exponent if there is one. -/
def exponent? (significand : Nat) : List Char → Reading (Option Int)
  | 'e' :: text => (signedExponent significand text).map some
  | 'E' :: text => (signedExponent significand text).map some
  | text => .ok (none, text)

/-- Reads a literal after its sign. A digit before the point that does not fit still counts as a
power of ten; one after the point is without effect. -/
def numeral (negative : Bool) (text : List Char) : Reading Numeral :=
  (wholeDigits text).andThen fun digits rest =>
    let whole := absorb 0 digits
    have whole_lt : whole.1 < UInt64.size := absorb_lt (by decide) digits
    match rest with
    | '.' :: rest => (fractionDigits rest).andThen fun digits rest =>
      let all := absorb whole.1 digits
      let point : Int := whole.2.length - (digits.length - all.2.length)
      (exponent? all.1 rest).map fun exponent =>
        ⟨negative, all.1, point + exponent.getD 0, false, absorb_lt whole_lt digits⟩
    | rest => (exponent? whole.1 rest).map fun exponent =>
      ⟨negative, whole.1, whole.2.length + exponent.getD 0, whole.2.isEmpty && exponent.isNone,
        whole_lt⟩

/-- Reads a number after its sign. One that is too large is reported at its end. -/
def number (negative : Bool) (text : List Char) : Reading Number :=
  (numeral negative text).andThen fun numeral rest =>
    match numeral.number? with
    | some number => .ok (number, rest)
    | none => .error (.before .numberOutOfRange rest)

theorem length_wholeDigits {text rest digits : List Char}
    (read : wholeDigits text = .ok (digits, rest)) : rest.length < text.length := by
  unfold wholeDigits at read
  split at read
  · simp at read
  · rename_i d tail
    have := (List.dropWhile_sublist Char.isDigit (l := tail)).length_le
    split at read
    · split at read <;> simp at read
      simp [← read.2]
    · split at read <;> simp at read
      simp [← read.2]
      omega

private theorem length_fractionDigits {text rest digits : List Char}
    (read : fractionDigits text = .ok (digits, rest)) : rest.length ≤ text.length := by
  unfold fractionDigits at read
  split at read
  · simp at read
  · split at read <;> simp at read
    rw [← read.2]
    exact (List.dropWhile_sublist _).length_le

private theorem length_moreExponent {bounded : Bool} {sofar n : Nat} {text rest : List Char}
    (read : moreExponent bounded sofar text = .ok (n, rest)) : rest.length ≤ text.length := by
  fun_induction moreExponent bounded sofar text with
  | case1 => simp at read; simp [read.2]
  | case2 => simp at read
  | case3 _ _ _ _ _ _ ih =>
    have := ih read
    simp
    omega
  | case4 => simp at read; simp [← read.2]

private theorem length_exponentDigits {bounded : Bool} {n : Nat} {text rest : List Char}
    (read : exponentDigits bounded text = .ok (n, rest)) : rest.length ≤ text.length := by
  unfold exponentDigits at read
  split at read
  · simp at read
  · split at read
    · exact length_moreExponent read
    · simp at read

private theorem length_signedExponent {significand : Nat} {n : Int} {text rest : List Char}
    (read : signedExponent significand text = .ok (n, rest)) : rest.length ≤ text.length := by
  unfold signedExponent at read
  split at read <;> obtain ⟨digits, readDigits, -⟩ := Reading.map_eq_ok.1 read
  all_goals
    have := length_exponentDigits readDigits
    grind

private theorem length_exponent? {significand : Nat} {n : Option Int} {text rest : List Char}
    (read : exponent? significand text = .ok (n, rest)) : rest.length ≤ text.length := by
  unfold exponent? at read
  split at read
  · obtain ⟨_, readSigned, -⟩ := Reading.map_eq_ok.1 read
    have := length_signedExponent readSigned
    simp
    omega
  · obtain ⟨_, readSigned, -⟩ := Reading.map_eq_ok.1 read
    have := length_signedExponent readSigned
    simp
    omega
  · simp at read
    simp [read.2]

private theorem length_numeral {negative : Bool} {text rest : List Char} {n : Numeral}
    (read : numeral negative text = .ok (n, rest)) : rest.length < text.length := by
  obtain ⟨digits, tail, readWhole, read⟩ := Reading.andThen_eq_ok.1 read
  have := length_wholeDigits readWhole
  dsimp only at read
  split at read
  · obtain ⟨fraction, after, readFraction, read⟩ := Reading.andThen_eq_ok.1 read
    obtain ⟨_, readExponent, -⟩ := Reading.map_eq_ok.1 read
    have := length_fractionDigits readFraction
    have := length_exponent? readExponent
    simp at *
    omega
  · obtain ⟨_, readExponent, -⟩ := Reading.map_eq_ok.1 read
    have := length_exponent? readExponent
    omega

theorem length_number {negative : Bool} {text rest : List Char} {n : Number}
    (read : number negative text = .ok (n, rest)) : rest.length < text.length := by
  obtain ⟨numeral, tail, readNumeral, read⟩ := Reading.andThen_eq_ok.1 read
  have := length_numeral readNumeral
  split at read <;> simp at read
  simpa [← read.2]

end JsonUnpack.Json
