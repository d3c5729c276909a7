import JsonUnpack.Json.Number
import JsonUnpack.Json.Quoted

/-! Documents as trees. An object keeps its members in document order; a key that comes again takes
the new value and keeps its old position, so no object has a key twice. The compact text of a value
has no blanks, has the members in their order, and its strings have no more escapes than they
need. -/
namespace JsonUnpack.Json

/-- The values that a single variable can hold. -/
inductive Scalar
  | bool (b : Bool)
  | number (n : Number)
  | string (s : String)
  deriving DecidableEq

inductive Value
  | null
  | scalar (s : Scalar)
  | array (items : List Value)
  | object (members : List (String × Value))
  deriving Inhabited

/-- The two kinds of value that have children. -/
inductive Composite
  | array
  | object
  deriving DecidableEq

/-- Sets a member: an existing key keeps its position, a new one goes last. -/
def setMember (key : String) (value : α) : List (String × α) → List (String × α)
  | [] => [(key, value)]
  | (other, old) :: rest =>
    if other = key then (key, value) :: rest else (other, old) :: setMember key value rest

/-- The members left of a list of pairs in which keys may repeat. -/
def membersOf (pairs : List (String × α)) : List (String × α) :=
  pairs.foldl (fun members (key, value) => setMember key value members) []

namespace Value

/-- A string value. -/
def ofString (s : String) : Value := .scalar (.string s)

/-- A number value. -/
def ofNumber (n : Number) : Value := .scalar (.number n)

mutual

/-- How deep arrays and objects are nested; an empty one counts as one level. -/
def nesting : Value → Nat
  | null => 0
  | scalar _ => 0
  | array items => itemsNesting items + 1
  | object members => membersNesting members + 1

def itemsNesting : List Value → Nat
  | [] => 0
  | item :: rest => max item.nesting (itemsNesting rest)

def membersNesting : List (String × Value) → Nat
  | [] => 0
  | (_, value) :: rest => max value.nesting (membersNesting rest)

end

/-- No object anywhere in a value has two members with one key. -/
inductive KeysDistinct : Value → Prop
  | null : KeysDistinct null
  | scalar (s : Scalar) : KeysDistinct (scalar s)
  | array {items : List Value} (each : ∀ item ∈ items, KeysDistinct item) :
    KeysDistinct (array items)
  | object {members : List (String × Value)} (own : (members.map Prod.fst).Nodup)
    (each : ∀ member ∈ members, KeysDistinct member.2) : KeysDistinct (object members)

@[simp] theorem keysDistinct_null : null.KeysDistinct := .null

@[simp] theorem keysDistinct_scalar (s : Scalar) : (scalar s).KeysDistinct := .scalar s

@[simp] theorem keysDistinct_array {items : List Value} :
    (array items).KeysDistinct ↔ ∀ item ∈ items, item.KeysDistinct := by
  constructor
  · rintro ⟨⟩
    assumption
  · exact .array

@[simp] theorem keysDistinct_object {members : List (String × Value)} :
    (object members).KeysDistinct ↔
      (members.map Prod.fst).Nodup ∧ ∀ member ∈ members, member.2.KeysDistinct := by
  constructor
  · rintro ⟨⟩
    constructor <;> assumption
  · exact fun ⟨own, each⟩ => .object own each

end Value

/-- A document: the keys of each of its objects are distinct. -/
structure Document where
  value : Value
  distinct : value.KeysDistinct

instance : Coe Document Value := ⟨Document.value⟩

/-- Parts of a text with a comma between each two. -/
def commaSeparated : List (List Char) → List Char
  | [] => []
  | [part] => part
  | part :: rest => part ++ ',' :: commaSeparated rest

namespace Scalar

def compactChars : Scalar → List Char
  | bool true => ['t', 'r', 'u', 'e']
  | bool false => ['f', 'a', 'l', 's', 'e']
  | number n => n.text
  | string s => quoted s.toList

/-- The text of a value without children. -/
def compact (s : Scalar) : String := .ofList s.compactChars

end Scalar

namespace Value

mutual

def compactChars : Value → List Char
  | null => ['n', 'u', 'l', 'l']
  | scalar s => s.compactChars
  | array items => '[' :: commaSeparated (itemTexts items) ++ [']']
  | object members => '\x7b' :: commaSeparated (memberTexts members) ++ ['\x7d']

def itemTexts : List Value → List (List Char)
  | [] => []
  | item :: rest => item.compactChars :: itemTexts rest

def memberTexts : List (String × Value) → List (List Char)
  | [] => []
  | (key, value) :: rest => (quoted key.toList ++ ':' :: value.compactChars) :: memberTexts rest

end

/-- The text of a value with nothing between its tokens. -/
def compact (v : Value) : String := .ofList v.compactChars

end Value

end JsonUnpack.Json
