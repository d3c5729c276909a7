import JsonUnpack.Binary64

/-! Numbers of a document. A literal without point or exponent is a whole number as long as a signed
or an unsigned 64-bit word holds it; every other number is a floating-point number. -/
namespace JsonUnpack.Json

/-- The integers that a signed or an unsigned 64-bit word holds. -/
abbrev Whole := { n : Int // -0x8000000000000000 ≤ n ∧ n ≤ 0xFFFFFFFFFFFFFFFF }

inductive Number
  | whole (n : Whole)
  | float (x : Binary64)
  deriving DecidableEq

/-- The decimal notation of an integer. -/
def integerText : Int → List Char
  | .ofNat n => decimalDigits n
  | .negSucc n => '-' :: decimalDigits (n + 1)

/-- The least exponent of a leading digit that is written positionally. -/
def leastPositional : Int := -5

/-- The greatest exponent of a leading digit that is written positionally. -/
def greatestPositional : Int := 15

/-- The text of a floating-point number other than zero. In positional notation there is a digit on
either side of the point. In scientific notation there is a point only between digits, and the
exponent always has a sign. -/
def decimalText (d : Decimal) : List Char :=
  if leastPositional ≤ d.lead ∧ d.lead < 0 then
    '0' :: '.' :: List.replicate (-d.lead - 1).toNat '0' ++ d.digits
  else if 0 ≤ d.lead ∧ d.lead ≤ greatestPositional then
    let width := d.lead.toNat + 1
    if d.digits.length ≤ width then
      d.digits ++ List.replicate (width - d.digits.length) '0' ++ ['.', '0']
    else d.digits.take width ++ '.' :: d.digits.drop width
  else
    let mantissa := match d.digits with
      | first :: second :: rest => first :: '.' :: second :: rest
      | short => short
    let sign := if d.lead < 0 then '-' else '+'
    mantissa ++ 'e' :: sign :: decimalDigits d.lead.natAbs

/-- The text of a floating-point number. Zero has no leading digit and is written `0.0`, with its
sign. -/
def floatText (x : Binary64) : List Char :=
  let unsigned := if x.magnitude = .zero then ['0', '.', '0'] else decimalText x.magnitude.shortest
  if x.negative then '-' :: unsigned else unsigned

namespace Number

/-- A natural number that a 64-bit word holds. -/
def ofNat (n : Nat) (fits : n < UInt64.size) : Number :=
  .whole ⟨n, by omega, Int.ofNat_le.2 (Nat.le_of_lt_succ fits)⟩

/-- The number as a signed 64-bit word, if it is held as an integer that such a word holds. -/
def int64? : Number → Option Int64
  | whole n => if n.val < 0x8000000000000000 then some (.ofInt n.val) else none
  | float _ => none

/-- Whether a number is held as an integer that an unsigned 64-bit word holds. -/
def isUInt64 : Number → Bool
  | whole n => 0 ≤ n.val
  | float _ => false

/-- The number as a floating-point number; an integer is rounded to the nearest one. -/
def toBinary64 : Number → Binary64
  | whole n => .ofInt n.val (by have bounds := n.property; unfold UInt64.size; omega)
  | float x => x

def text : Number → List Char
  | whole n => integerText n.val
  | float x => floatText x

end Number

end JsonUnpack.Json
