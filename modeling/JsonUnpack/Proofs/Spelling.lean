import JsonUnpack.Json.Document
import Mathlib.Data.List.Basic
import Mathlib.Data.List.Induction

/-! The texts that spell a document. A text leaves open how its tokens are spaced, which characters
of a string are escaped and in what way, and whether an object gives a key more than once. The tree
that a text spells may therefore repeat keys, and the document is what is left of it when each key
has settled on one value. -/
namespace JsonUnpack.Json

/-- What may stand between any two tokens. -/
def Blanks (text : List Char) : Prop := ∀ c ∈ text, c ∈ [' ', '\t', '\n', '\r']

instance (text : List Char) : Decidable (Blanks text) := List.decidableBAll _ text

theorem blanks_nil : Blanks [] := nofun

/-! Numbers. -/

/-- The decimal digits of a natural number, with no zero in front. -/
structure SpellsNatural (n : Nat) (text : List Char) : Prop where
  written : text ≠ []
  digits : ∀ c ∈ text, c.isDigit = true
  lead : text.head? = some '0' → text = ['0']
  value : Nat.ofDigitChars 10 text 0 = n

/-- An integer in decimal. Zero has no sign. -/
inductive SpellsInteger : Int → List Char → Prop
  | natural {n : Nat} {text : List Char} (digits : SpellsNatural n text) : SpellsInteger n text
  | negative {n : Nat} {text : List Char} (digits : SpellsNatural n text) (nonzero : n ≠ 0) :
    SpellsInteger (-n) ('-' :: text)

/-! Strings. -/

/-- The letters that escape a character, each with that character. -/
def shortEscapes : List (Char × Char) :=
  [('"', '"'), ('\\', '\\'), ('/', '/'), ('b', '\x08'), ('f', '\x0c'), ('n', '\n'), ('r', '\r'),
    ('t', '\t')]

/-- A hexadecimal digit of either case. -/
def SpellsHexDigit (n : Nat) (c : Char) : Prop :=
  n < 0x10 ∧ (c = Nat.digitChar n ∨ c = (Nat.digitChar n).toUpper)

/-- A 16-bit number as four hexadecimal digits. -/
def SpellsUnit (n : Nat) : List Char → Prop
  | [a, b, c, d] => SpellsHexDigit (n / 0x1000) a ∧ SpellsHexDigit (n / 0x100 % 0x10) b ∧
    SpellsHexDigit (n / 0x10 % 0x10) c ∧ SpellsHexDigit (n % 0x10) d
  | _ => False

/-- A character of a string: as it is, by a letter, by its number, or by a pair of surrogates. -/
inductive SpellsChar (c : Char) : List Char → Prop
  | raw (shown : 0x20 ≤ c.toNat) (notQuote : c ≠ '"') (notBackslash : c ≠ '\\') : SpellsChar c [c]
  | short {letter : Char} (listed : (letter, c) ∈ shortEscapes) : SpellsChar c ['\\', letter]
  | unit {digits : List Char} (number : SpellsUnit c.toNat digits) :
    SpellsChar c ('\\' :: 'u' :: digits)
  | pair {high low : List Char} (beyond : 0x10000 ≤ c.toNat)
    (first : SpellsUnit (0xD800 + (c.toNat - 0x10000) / 0x400) high)
    (second : SpellsUnit (0xDC00 + (c.toNat - 0x10000) % 0x400) low) :
    SpellsChar c ('\\' :: 'u' :: high ++ '\\' :: 'u' :: low)

/-- A string without its quotes. -/
inductive SpellsText : List Char → List Char → Prop
  | nil : SpellsText [] []
  | cons {c : Char} {part text rest : List Char} (char : SpellsChar c part)
    (more : SpellsText text rest) : SpellsText (c :: text) (part ++ rest)

/-! Values. -/

/-- A key, up to and including its colon. -/
inductive SpellsLabel (key : String) : List Char → Prop
  | intro {before body after : List Char} (front : Blanks before)
    (spelled : SpellsText key.toList body) (back : Blanks after) :
    SpellsLabel key (before ++ '"' :: (body ++ '"' :: (after ++ [':'])))

/-- A member of an object and how it is spelled. -/
structure MemberSpelling where
  key : String
  label : List Char
  value : Value
  text : List Char

/-- A text spells a tree. Blanks may be added on either side of a value, which puts them around the
whole and next to every bracket and comma; those around a key come with its label. -/
inductive Spells : Value → List Char → Prop
  | null : Spells .null ['n', 'u', 'l', 'l']
  | true : Spells (.scalar (.bool true)) ['t', 'r', 'u', 'e']
  | false : Spells (.scalar (.bool false)) ['f', 'a', 'l', 's', 'e']
  | integer {n : Whole} {text : List Char} (spelled : SpellsInteger n.val text) :
    Spells (.scalar (.number (.whole n))) text
  | string {s : String} {body : List Char} (spelled : SpellsText s.toList body) :
    Spells (.scalar (.string s)) ('"' :: (body ++ ['"']))
  | array {gap : List Char} {items : List (Value × List Char)} (blank : Blanks gap)
    (each : ∀ item ∈ items, Spells item.1 item.2) :
    Spells (.array (items.map Prod.fst))
      ('[' :: (gap ++ (commaSeparated (items.map Prod.snd) ++ [']'])))
  | object {gap : List Char} {members : List MemberSpelling} (blank : Blanks gap)
    (labels : ∀ member ∈ members, SpellsLabel member.key member.label)
    (each : ∀ member ∈ members, Spells member.value member.text) :
    Spells (.object (members.map fun member => (member.key, member.value)))
      ('\x7b' :: (gap ++ (commaSeparated (members.map fun member => member.label ++ member.text) ++
        ['\x7d'])))
  | blanks {v : Value} {before text after : List Char} (front : Blanks before)
    (spelled : Spells v text) (back : Blanks after) : Spells v (before ++ (text ++ after))

/-! Repeated keys. -/

/-- The pairs left where keys repeat: where a key occurs first, the last pair with that key. -/
def lastValues {α : Type} (pairs : List (String × α)) : List (String × α) :=
  (pairs.map Prod.fst).eraseDups.filterMap fun key => pairs.reverse.find? (·.1 = key)

namespace Value

mutual

/-- The document that a tree stands for: no key of an object repeats in it. -/
def settled : Value → Value
  | null => null
  | scalar s => scalar s
  | array items => array (settledItems items)
  | object members => object (lastValues (settledMembers members))

def settledItems : List Value → List Value
  | [] => []
  | item :: rest => item.settled :: settledItems rest

def settledMembers : List (String × Value) → List (String × Value)
  | [] => []
  | (key, value) :: rest => (key, value.settled) :: settledMembers rest

end

theorem settledItems_eq_map (items : List Value) : settledItems items = items.map settled := by
  induction items with
  | nil => rfl
  | cons item rest ih => rw [settledItems, ih, List.map_cons]

theorem settledMembers_eq_map (members : List (String × Value)) :
    settledMembers members = members.map fun member => (member.1, member.2.settled) := by
  induction members with
  | nil => rfl
  | cons member rest ih => rw [settledMembers, ih, List.map_cons]

end Value

section

variable {α : Type}

private theorem membersOf_concat (pairs : List (String × α)) (key : String) (value : α) :
    membersOf (pairs ++ [(key, value)]) = setMember key value (membersOf pairs) := by
  rw [membersOf, List.foldl_append]
  rfl

private theorem eraseDups_concat (keys : List String) (key : String) :
    (keys ++ [key]).eraseDups =
      if key ∈ keys.eraseDups then keys.eraseDups else keys.eraseDups ++ [key] := by
  rw [List.eraseDups_append]
  by_cases known : key ∈ keys
  · have none : [key].removeAll keys = [] := by simp [List.removeAll, known]
    rw [if_pos (List.mem_eraseDups.mpr known), none]
    exact List.append_nil _
  · have kept : [key].removeAll keys = [key] := by simp [List.removeAll, known]
    rw [if_neg (known ∘ List.mem_eraseDups.mp), kept]
    rfl

private theorem keys_membersOf (pairs : List (String × α)) :
    (membersOf pairs).map Prod.fst = (pairs.map Prod.fst).eraseDups := by
  induction pairs using List.reverseRecOn with
  | nil => rfl
  | append_singleton pairs pair ih =>
    obtain ⟨key, value⟩ := pair
    rw [membersOf_concat, keys_setMember, ih, List.map_append]
    exact (eraseDups_concat _ key).symm

private theorem find_setMember (key other : String) (value : α) (members : List (String × α)) :
    (setMember key value members).find? (·.1 = other) =
      if key = other then some (key, value) else members.find? (·.1 = other) := by
  induction members with
  | nil =>
    rw [setMember, List.find?_singleton]
    simp
  | cons member members ih =>
    obtain ⟨first, old⟩ := member
    rw [setMember]
    by_cases same : first = key
    · subst same
      rw [if_pos rfl]
      by_cases found : first = other <;> simp [found]
    · rw [if_neg same, List.find?_cons, List.find?_cons, ih]
      by_cases found : key = other
      · subst found
        simp [same]
      · simp [found]

private theorem find_membersOf (pairs : List (String × α)) (key : String) :
    (membersOf pairs).find? (·.1 = key) = pairs.reverse.find? (·.1 = key) := by
  induction pairs using List.reverseRecOn with
  | nil => rfl
  | append_singleton pairs pair ih =>
    obtain ⟨other, value⟩ := pair
    rw [membersOf_concat, find_setMember, ih, List.reverse_concat, List.find?_cons]
    by_cases found : other = key <;> simp [found]

private theorem pairs_of_keys {pairs : List (String × α)}
    (distinct : (pairs.map Prod.fst).Nodup) :
    ((pairs.map Prod.fst).filterMap fun key => pairs.find? (·.1 = key)) = pairs := by
  induction pairs with
  | nil => rfl
  | cons pair pairs ih =>
    obtain ⟨new, distinct⟩ := List.nodup_cons.mp distinct
    have first : (pair :: pairs).find? (·.1 = pair.1) = some pair :=
      List.find?_cons_of_pos (decide_eq_true rfl)
    have later : ∀ key ∈ pairs.map Prod.fst,
        (pair :: pairs).find? (·.1 = key) = pairs.find? (·.1 = key) := by
      intro key member
      apply List.find?_cons_of_neg
      rw [decide_eq_true_eq]
      rintro rfl
      exact new member
    rw [List.map_cons, List.filterMap_cons, first, List.filterMap_congr later, ih distinct]

/-- Setting the members of an object one after the other leaves each key where it occurs first, with
its last value. -/
theorem membersOf_eq_lastValues (pairs : List (String × α)) :
    membersOf pairs = lastValues pairs := by
  have distinct : ((membersOf pairs).map Prod.fst).Nodup :=
    (membersOf_distinct (p := fun _ => True) fun _ _ => trivial).1
  rw [← pairs_of_keys distinct, keys_membersOf, lastValues]
  simp only [find_membersOf]

end

end JsonUnpack.Json
