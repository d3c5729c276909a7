/-! Where and why reading stops. Readers work on the characters that are still unread, so a fault
remembers those; its line and column follow from the whole text once that is at hand. -/
namespace JsonUnpack.Json

/-- The number of bytes that UTF-8 spends on these characters. -/
def utf8Length : List Char → Nat
  | [] => 0
  | c :: rest => c.utf8Size + utf8Length rest

/-- A place in a text: lines count from one, and columns count the bytes of the line before it. -/
structure Position where
  line : Nat
  column : Nat
  deriving DecidableEq

namespace Position

def start : Position := ⟨1, 0⟩

def advance (position : Position) (c : Char) : Position :=
  if c = '\n' then ⟨position.line + 1, 0⟩
  else ⟨position.line, position.column + c.utf8Size⟩

/-- The place a number of bytes further on, which may be inside a character. -/
def walk (position : Position) (bytes : Nat) : List Char → Position
  | [] => position
  | c :: rest =>
    if c.utf8Size ≤ bytes then (position.advance c).walk (bytes - c.utf8Size) rest
    else ⟨position.line, position.column + bytes⟩

end Position

/-- Why reading stopped, with `unread` left of the text. The place reported for it is `ahead` bytes
after the start of `unread`, or the end of the text if that comes first. -/
structure Fault (κ : Type) where
  cause : κ
  unread : List Char
  ahead : Nat

namespace Fault

variable {κ : Type}

/-- A fault reported where the unread text starts. -/
def before (cause : κ) (unread : List Char) : Fault κ := ⟨cause, unread, 0⟩

/-- A fault reported just after the first unread byte, which is the offending one. -/
def on (cause : κ) (unread : List Char) : Fault κ := ⟨cause, unread, 1⟩

/-- The same fault with its cause described otherwise. -/
def map {κ' : Type} (describe : κ → κ') (fault : Fault κ) : Fault κ' :=
  ⟨describe fault.cause, fault.unread, fault.ahead⟩

/-- The place of a fault in the text it was found in. -/
def position (fault : Fault κ) (text : List Char) : Position :=
  let unread := utf8Length fault.unread
  Position.start.walk (utf8Length text - unread + min fault.ahead unread) text

/-- The wording of a fault in a given text. -/
def message (describe : κ → String) (fault : Fault κ) (text : String) : String :=
  let position := fault.position text.toList
  describe fault.cause ++ " at line " ++ Nat.repr position.line ++ " column "
    ++ Nat.repr position.column

end Fault

/-- What can be wrong with the text of a document. -/
inductive Cause
  | endInValue
  | endInArray
  | endInObject
  | endInString
  | expectedWord
  | expectedValue
  | expectedColon
  | expectedCommaInArray
  | expectedCommaInObject
  | keyNotString
  | trailingComma
  | trailingCharacters
  | nestedTooDeep
  | invalidNumber
  | numberOutOfRange
  | controlCharacter
  | invalidEscape
  | unpairedSurrogate
  | missingSurrogate
  deriving DecidableEq

def Cause.message : Cause → String
  | endInValue => "EOF while parsing a value"
  | endInArray => "EOF while parsing a list"
  | endInObject => "EOF while parsing an object"
  | endInString => "EOF while parsing a string"
  | expectedWord => "expected ident"
  | expectedValue => "expected value"
  | expectedColon => "expected `:`"
  | expectedCommaInArray => "expected `,` or `]`"
  | expectedCommaInObject => "expected `,` or `\x7d`"
  | keyNotString => "key must be a string"
  | trailingComma => "trailing comma"
  | trailingCharacters => "trailing characters"
  | nestedTooDeep => "recursion limit exceeded"
  | invalidNumber => "invalid number"
  | numberOutOfRange => "number out of range"
  | controlCharacter => "control character (\\u0000-\\u001F) found while parsing a string"
  | invalidEscape => "invalid escape"
  | unpairedSurrogate => "lone leading surrogate in hex escape"
  | missingSurrogate => "unexpected end of hex escape"

/-- What a reader answers: a result and the text after it, or why there is none. -/
abbrev Reading (α : Type) := Except (Fault Cause) (α × List Char)

namespace Reading

variable {α β : Type}

/-- The result of a reading seen through a function. -/
def map (f : α → β) : Reading α → Reading β
  | .ok (result, rest) => .ok (f result, rest)
  | .error fault => .error fault

/-- Reads on after a reading that succeeded. -/
def andThen (reading : Reading α) (next : α → List Char → Reading β) : Reading β :=
  match reading with
  | .ok (result, rest) => next result rest
  | .error fault => .error fault

theorem map_eq_ok {f : α → β} {reading : Reading α} {b : β} {rest : List Char} :
    reading.map f = .ok (b, rest) ↔ ∃ a, reading = .ok (a, rest) ∧ f a = b := by
  cases reading with
  | error fault => simp only [map, reduceCtorEq, false_and, exists_false]
  | ok found =>
    simp only [map, Except.ok.injEq, Prod.mk.injEq]
    constructor
    · rintro ⟨rfl, rfl⟩
      exact ⟨found.1, rfl, rfl⟩
    · rintro ⟨a, rfl, rfl⟩
      exact ⟨rfl, rfl⟩

theorem andThen_eq_ok {reading : Reading α} {next : α → List Char → Reading β}
    {b : β} {rest : List Char} : reading.andThen next = .ok (b, rest) ↔
      ∃ a after, reading = .ok (a, after) ∧ next a after = .ok (b, rest) := by
  cases reading with
  | error fault => simp only [andThen, reduceCtorEq, false_and, exists_false]
  | ok found =>
    simp only [andThen, Except.ok.injEq]
    constructor
    · intro read
      exact ⟨found.1, found.2, rfl, read⟩
    · rintro ⟨a, after, rfl, read⟩
      exact read

end Reading

/-- Blanks may stand between any two tokens. -/
def isBlank (c : Char) : Bool := c = ' ' || c = '\t' || c = '\n' || c = '\r'

/-- The text from its first character that is not blank. -/
def skipBlanks (text : List Char) : List Char := text.dropWhile isBlank

theorem length_skipBlanks_le (text : List Char) : (skipBlanks text).length ≤ text.length :=
  (List.dropWhile_sublist isBlank).length_le

theorem length_lt_of_skipBlanks_eq_cons {text rest : List Char} {c : Char}
    (start : skipBlanks text = c :: rest) : rest.length < text.length := by
  have := length_skipBlanks_le text
  rw [start] at this
  exact this

end JsonUnpack.Json
