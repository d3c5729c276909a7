import JsonUnpack.Json.Value

/-! What a program takes from C++: text inside a string literal, and the type that holds a value
without children. -/
namespace JsonUnpack.Cpp

/-- Puts a backslash in front of every occurrence of one character. -/
def guardAll (special : Char) : List Char → List Char
  | [] => []
  | c :: rest =>
    if c = special then '\\' :: c :: guardAll special rest else c :: guardAll special rest

/-- Escapes characters for a literal. Backslashes go first: the ones that guard quotes are not to be
guarded themselves. -/
def escapeChars (text : List Char) : List Char := guardAll '"' (guardAll '\\' text)

/-- Escapes a text for a literal. -/
def escape (text : String) : String := .ofList (escapeChars text.toList)

/-- A string literal with both its quotes. -/
def literal (text : String) : String := "\"" ++ escape text ++ "\""

open Json (Number Scalar Value)

inductive LeafType
  | string
  | float
  | int
  | long
  | bool
  deriving DecidableEq

namespace LeafType

/-- An `int` may be as narrow as 16 bits, so it is used strictly inside these bounds only. -/
def intBound : Int64 := 32000

/-- The type of a signed word. -/
def ofInt64 (i : Int64) : LeafType := if -intBound < i ∧ i < intBound then int else long

/-- The bound as a floating-point number. -/
def floatBound : Binary64 := .ofInt intBound.toInt (by decide)

/-- The type of a floating-point number. -/
def ofBinary64 (x : Binary64) : LeafType :=
  if !x.fract.equals .zero then float
  else if -floatBound < x ∧ x < floatBound then int
  else long

/-- A number is taken as a signed word if it can be. An unsigned word past the signed ones is too
large for an `int`, and what is left are floating-point numbers. -/
def ofNumber (n : Number) : LeafType :=
  match n.int64? with
  | some i => ofInt64 i
  | none => if n.isUInt64 then long else ofBinary64 n.toBinary64

def ofScalar : Scalar → LeafType
  | .bool _ => bool
  | .number n => ofNumber n
  | .string _ => string

/-- Null, arrays and objects have no type of their own. -/
def ofValue? : Value → Option LeafType
  | .scalar s => some (ofScalar s)
  | _ => none

/-- The spelling of a type in C++. -/
def text : LeafType → String
  | string => "const char*"
  | float => "float"
  | int => "int"
  | long => "long"
  | bool => "bool"

end LeafType

end JsonUnpack.Cpp
