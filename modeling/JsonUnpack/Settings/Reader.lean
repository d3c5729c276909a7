import JsonUnpack.Json.Skip
import JsonUnpack.Settings
import JsonUnpack.Text.Printable

/-! Settings from the text of a configuration. An object may leave settings out and may hold keys of
others; an array gives the settings in their order and may end early. -/
namespace JsonUnpack.Settings

open Json (Composite Fault Scalar Value)

/-- What stands where something else was asked for. -/
inductive Found
  | null
  | scalar (s : Scalar)
  | composite (kind : Composite)
  deriving DecidableEq

def Found.ofValue : Value → Found
  | .null => null
  | .scalar s => scalar s
  | .array _ => composite .array
  | .object _ => composite .object

def Found.text : Found → String
  | null => "null"
  | scalar (.bool b) => "boolean `" ++ (Scalar.bool b).compact ++ "`"
  | scalar (.number (.whole n)) => "integer `" ++ .ofList (Json.integerText n.val) ++ "`"
  | scalar (.number (.float x)) => "floating point `" ++ .ofList (Json.floatText x) ++ "`"
  | scalar (.string s) => "string " ++ Text.shown s
  | composite .array => "sequence"
  | composite .object => "map"

/-- What can be wrong with a configuration. -/
inductive Cause
  | malformed (cause : Json.Cause)
  | notSettings (found : Found)
  | notNumber (found : Found)
  | negative (n : Int)
  | repeated (setting : Setting)
  | tooLong (length : Nat)
  deriving DecidableEq

def Cause.message : Cause → String
  | malformed cause => cause.message
  | notSettings found => "invalid type: " ++ found.text ++ ", expected struct GeneratorConfig"
  | notNumber found => "invalid type: " ++ found.text ++ ", expected usize"
  | negative n =>
    "invalid value: integer `" ++ .ofList (Json.integerText n) ++ "`, expected usize"
  | repeated setting => "duplicate field `" ++ setting.key ++ "`"
  | tooLong length =>
    "invalid length " ++ Nat.repr length ++ ", expected fewer elements in array"

/-- The value of a setting: an integer that is not negative. -/
def ofValue : Value → Except Cause UInt64
  | .scalar (.number (.whole n)) =>
    if n.val < 0 then .error (.negative n.val) else .ok (.ofNat n.val.toNat)
  | value => .error (.notNumber (.ofValue value))

/-- What reading a part of a configuration answers. -/
abbrev Answer (α : Type) := Except (Fault Cause) (α × List Char)

/-- A reading that is part of reading a configuration. -/
def part {α : Type} (reading : Json.Reading α) : Answer α :=
  reading.mapError (Fault.map .malformed)

/-- Reads the value of a setting. One of the wrong type is reported after it, and an array or object
in front of its bracket. -/
def settingValue (text : List Char) : Answer UInt64 :=
  match Json.skipBlanks text with
  | '[' :: rest => .error (.before (.notNumber (.composite .array)) ('[' :: rest))
  | '\x7b' :: rest => .error (.before (.notNumber (.composite .object)) ('\x7b' :: rest))
  | start =>
    match part (Json.childless start) with
    | .error fault => .error fault
    | .ok (value, rest) =>
      match ofValue value with
      | .ok n => .ok (n, rest)
      | .error cause => .error (.before cause rest)

/-- Reads the value of a setting after its key. -/
def settingMember (text : List Char) : Answer UInt64 :=
  match part (Json.colon text) with
  | .error fault => .error fault
  | .ok ((), rest) => settingValue rest

/-- Passes over the value of a key that is no setting. -/
def otherMember (text : List Char) : Answer Unit :=
  part ((Json.colon text).andThen fun _ rest => Json.skip rest)

/-- The place of a repeated key: the text goes on after the blanks that follow it, and after a brace
that comes next. -/
def afterRepeated (text : List Char) : List Char :=
  match Json.skipBlanks text with
  | '\x7d' :: rest => rest
  | rest => rest

theorem part_eq_ok {α : Type} {reading : Json.Reading α} {a : α} {rest : List Char} :
    part reading = .ok (a, rest) ↔ reading = .ok (a, rest) := by
  cases reading with
  | error fault => constructor <;> nofun
  | ok => exact ⟨fun read => Except.ok.inj read ▸ rfl, fun read => Except.ok.inj read ▸ rfl⟩

theorem length_settingValue {text rest : List Char} {n : UInt64}
    (read : settingValue text = .ok (n, rest)) : rest.length < text.length := by
  have := Json.length_skipBlanks_le text
  unfold settingValue at read
  split at read
  · simp at read
  · simp at read
  · split at read
    · simp at read
    · rename_i readChildless
      have := Json.length_childless (part_eq_ok.1 readChildless)
      split at read <;> simp at read
      grind

theorem length_settingMember {text rest : List Char} {n : UInt64}
    (read : settingMember text = .ok (n, rest)) : rest.length < text.length := by
  unfold settingMember at read
  split at read
  · simp at read
  · rename_i readColon
    have := Json.length_colon (part_eq_ok.1 readColon)
    have := length_settingValue read
    omega

theorem length_otherMember {text rest : List Char} (read : otherMember text = .ok ((), rest)) :
    rest.length < text.length := by
  obtain ⟨_, _, readColon, readSkip⟩ := Json.Reading.andThen_eq_ok.1 (part_eq_ok.1 read)
  have := Json.length_colon readColon
  have := Json.length_skip readSkip
  omega

/-- Reads the members of a configuration, after the opening brace or after a member. A setting that
comes again is reported before its value is looked at. -/
def fromMembers (choices : Choices) (first : Bool) (text : List Char) : Answer Choices :=
  match next : Json.nextKey first text with
  | .error fault => .error (fault.map .malformed)
  | .ok (none, rest) => .ok (choices, rest)
  | .ok (some key, rest) =>
    have : rest.length < text.length := Json.length_nextKey next
    match Setting.ofKey? key with
    | some setting =>
      if (choices.get setting).isSome then
        .error (.before (.repeated setting) (afterRepeated rest))
      else
        match read : settingMember rest with
        | .error fault => .error fault
        | .ok (n, after) =>
          have := length_settingMember read
          fromMembers (choices.set setting (some n)) false after
    | none =>
      match read : otherMember rest with
      | .error fault => .error fault
      | .ok ((), after) =>
        have := length_otherMember read
        fromMembers choices false after
termination_by text.length

/-- Reads the end of a configuration that lists all settings. -/
def closeArray (text : List Char) : Json.Reading Unit :=
  match Json.skipBlanks text with
  | [] => .error (.on .endInArray [])
  | ']' :: rest => .ok ((), rest)
  | ',' :: rest =>
    match Json.skipBlanks rest with
    | ']' :: rest => .error (.on .trailingComma (']' :: rest))
    | rest => .error (.on .trailingCharacters rest)
  | rest => .error (.on .trailingCharacters rest)

/-- Reads the elements of a configuration, one for each setting that is still to come. -/
def fromElements (choices : Choices) (first : Bool) : List Setting → List Char → Answer Choices
  | [], text => part ((closeArray text).map fun _ => choices)
  | setting :: later, text =>
    match part (Json.nextElement first text) with
    | .error fault => .error fault
    | .ok (false, rest) => .ok (choices, rest)
    | .ok (true, start) =>
      match settingValue start with
      | .error fault => .error fault
      | .ok (n, rest) => fromElements (choices.set setting (some n)) false later rest

/-- Reads a configuration at the start of a text. -/
def configuration (text : List Char) : Answer Choices :=
  match Json.skipBlanks text with
  | '[' :: rest => fromElements .none true Setting.all rest
  | '\x7b' :: rest => fromMembers .none true rest
  | start =>
    match part (Json.childless start) with
    | .error fault => .error fault
    | .ok (value, rest) => .error (.before (.notSettings (.ofValue value)) rest)

/-- Reads the settings that the text of a configuration chooses. -/
def readChoices (text : String) : Except (Fault Cause) Choices :=
  match configuration text.toList with
  | .error fault => .error fault
  | .ok (choices, rest) => Json.finish .malformed choices rest

/-- The settings chosen by the members of a configuration whose keys are distinct. -/
def chooseMembers (choices : Choices) : List (String × Value) → Except Cause Choices
  | [] => .ok choices
  | (key, value) :: rest =>
    match Setting.ofKey? key with
    | none => chooseMembers choices rest
    | some setting =>
      match ofValue value with
      | .error cause => .error cause
      | .ok n => chooseMembers (choices.set setting (some n)) rest

/-- The settings chosen by the elements of a configuration; those left over are not looked at. -/
def chooseElements (choices : Choices) : List Setting → List Value → Except Cause Choices
  | setting :: later, item :: rest =>
    match ofValue item with
    | .error cause => .error cause
    | .ok n => chooseElements (choices.set setting (some n)) later rest
  | _, _ => .ok choices

/-- The settings that a configuration chooses that has been read as a document. -/
def choose : Value → Except Cause Choices
  | .object members => chooseMembers .none members
  | .array items =>
    match chooseElements .none Setting.all items with
    | .error cause => .error cause
    | .ok choices =>
      if Setting.all.length < items.length then .error (.tooLong items.length) else .ok choices
  | value => .error (.notSettings (.ofValue value))

end JsonUnpack.Settings
