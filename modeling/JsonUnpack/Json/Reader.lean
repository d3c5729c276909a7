import JsonUnpack.Json.Numeral
import JsonUnpack.Json.Quoted
import JsonUnpack.Json.Value

/-! Documents from text. The reader for the values inside a bracket is the reader for one bracket
less, so the depth that is allowed is what the recursion runs on; the loops over elements and
members run on the unread text, which every reader shortens. -/
namespace JsonUnpack.Json

/-- Reads the rest of a word after its first letter. -/
def word : List Char → List Char → Reading Unit
  | [], text => .ok ((), text)
  | _ :: _, [] => .error (.before .endInValue [])
  | letter :: letters, c :: rest =>
    if c = letter then word letters rest else .error (.on .expectedWord (c :: rest))

/-- Reads a value without children from a text that starts with it. -/
def childless : List Char → Reading Value
  | [] => .error (.on .endInValue [])
  | 'n' :: rest => (word ['u', 'l', 'l'] rest).map fun _ => .null
  | 't' :: rest => (word ['r', 'u', 'e'] rest).map fun _ => .scalar (.bool true)
  | 'f' :: rest => (word ['a', 'l', 's', 'e'] rest).map fun _ => .scalar (.bool false)
  | '"' :: rest => (string rest).map .ofString
  | '-' :: rest => (number true rest).map .ofNumber
  | c :: rest =>
    if c.isDigit then (number false (c :: rest)).map .ofNumber
    else .error (.on .expectedValue (c :: rest))

/-- Goes on to the next element of an array, the first one or one after a comma; or reads the
closing bracket, and then answers that there is none. -/
def nextElement (first : Bool) (text : List Char) : Reading Bool :=
  match skipBlanks text with
  | [] => .error (.on .endInArray [])
  | ']' :: rest => .ok (false, rest)
  | c :: rest =>
    if first then .ok (true, c :: rest)
    else if c = ',' then
      match skipBlanks rest with
      | [] => .error (.on .endInValue [])
      | ']' :: rest => .error (.on .trailingComma (']' :: rest))
      | c :: rest => .ok (true, c :: rest)
    else .error (.on .expectedCommaInArray (c :: rest))

/-- Reads the next key of an object, or the closing brace, and then answers that there is none. -/
def nextKey (first : Bool) (text : List Char) : Reading (Option String) :=
  match skipBlanks text with
  | [] => .error (.on .endInObject [])
  | '\x7d' :: rest => .ok (none, rest)
  | c :: rest =>
    if first then
      if c = '"' then (string rest).map some else .error (.on .keyNotString (c :: rest))
    else if c = ',' then
      match skipBlanks rest with
      | [] => .error (.on .endInValue [])
      | '"' :: rest => (string rest).map some
      | '\x7d' :: rest => .error (.on .trailingComma ('\x7d' :: rest))
      | rest => .error (.on .keyNotString rest)
    else .error (.on .expectedCommaInObject (c :: rest))

/-- Reads the colon between a key and its value. -/
def colon (text : List Char) : Reading Unit :=
  match skipBlanks text with
  | [] => .error (.on .endInObject [])
  | ':' :: rest => .ok ((), rest)
  | rest => .error (.on .expectedColon rest)

theorem length_word {letters text rest : List Char} (read : word letters text = .ok ((), rest)) :
    rest.length ≤ text.length := by
  fun_induction word letters text with
  | case1 => simp at read; simp [read]
  | case2 => simp at read
  | case3 _ _ _ ih =>
    have := ih read
    simp
    omega
  | case4 => simp at read

theorem length_childless {text rest : List Char} {v : Value}
    (read : childless text = .ok (v, rest)) : rest.length < text.length := by
  unfold childless at read
  split at read
  · simp at read
  · obtain ⟨_, readWord, -⟩ := Reading.map_eq_ok.1 read
    have := length_word readWord
    simp
    omega
  · obtain ⟨_, readWord, -⟩ := Reading.map_eq_ok.1 read
    have := length_word readWord
    simp
    omega
  · obtain ⟨_, readWord, -⟩ := Reading.map_eq_ok.1 read
    have := length_word readWord
    simp
    omega
  · obtain ⟨_, readString, -⟩ := Reading.map_eq_ok.1 read
    have := length_string readString
    simp
    omega
  · obtain ⟨_, readNumber, -⟩ := Reading.map_eq_ok.1 read
    have := length_number readNumber
    simp
    omega
  · split at read
    · obtain ⟨_, readNumber, -⟩ := Reading.map_eq_ok.1 read
      exact length_number readNumber
    · simp at read

theorem length_nextElement {first more : Bool} {text rest : List Char}
    (read : nextElement first text = .ok (more, rest)) : rest.length ≤ text.length := by
  have := length_skipBlanks_le text
  unfold nextElement at read
  split at read
  · simp at read
  · simp at read
    grind
  · rename_i c tail _ start
    have := length_skipBlanks_le tail
    grind

theorem length_nextKey {first : Bool} {key : Option String} {text rest : List Char}
    (read : nextKey first text = .ok (key, rest)) : rest.length < text.length := by
  have := length_skipBlanks_le text
  unfold nextKey at read
  split at read
  · simp at read
  · simp at read
    grind
  · rename_i c tail _ start
    have := length_skipBlanks_le tail
    split at read
    · split at read
      · obtain ⟨_, readString, -⟩ := Reading.map_eq_ok.1 read
        have := length_string readString
        grind
      · simp at read
    · split at read
      · split at read
        · simp at read
        · obtain ⟨_, readString, -⟩ := Reading.map_eq_ok.1 read
          have := length_string readString
          grind
        · simp at read
        · simp at read
      · simp at read

theorem length_colon {text rest : List Char} (read : colon text = .ok ((), rest)) :
    rest.length < text.length := by
  have := length_skipBlanks_le text
  unfold colon at read
  split at read <;> simp at read
  grind

/-- A reader that never succeeds without using up some of the text. -/
structure Reader (α : Type) where
  run : List Char → Reading α
  shortens : ∀ {text rest : List Char} {a : α}, run text = .ok (a, rest) → rest.length < text.length

/-- Reads the value of a member, after its key. -/
def Reader.member {α : Type} (value : Reader α) (text : List Char) : Reading α :=
  (colon text).andThen fun _ rest => value.run rest

theorem Reader.length_member {α : Type} {value : Reader α} {text rest : List Char} {a : α}
    (read : value.member text = .ok (a, rest)) : rest.length < text.length := by
  obtain ⟨_, _, readColon, readValue⟩ := Reading.andThen_eq_ok.1 read
  have := length_colon readColon
  have := value.shortens readValue
  omega

/-- Reads the elements of an array, after the opening bracket or after an element. -/
def elements {α : Type} (element : Reader α) (first : Bool) (text : List Char) :
    Reading (List α) :=
  match next : nextElement first text with
  | .error fault => .error fault
  | .ok (false, rest) => .ok ([], rest)
  | .ok (true, start) =>
    match read : element.run start with
    | .error fault => .error fault
    | .ok (a, rest) =>
      have : rest.length < text.length :=
        Nat.lt_of_lt_of_le (element.shortens read) (length_nextElement next)
      (elements element false rest).map (a :: ·)
termination_by text.length

/-- Reads the members of an object, after the opening brace or after a member. Repeated keys are
kept. -/
def members {α : Type} (value : Reader α) (first : Bool) (text : List Char) :
    Reading (List (String × α)) :=
  match next : nextKey first text with
  | .error fault => .error fault
  | .ok (none, rest) => .ok ([], rest)
  | .ok (some key, afterKey) =>
    match read : value.member afterKey with
    | .error fault => .error fault
    | .ok (a, rest) =>
      have : rest.length < text.length :=
        Nat.lt_trans (Reader.length_member read) (length_nextKey next)
      (members value false rest).map ((key, a) :: ·)
termination_by text.length

theorem length_elements {α : Type} {element : Reader α} {first : Bool} {text rest : List Char}
    {items : List α} (read : elements element first text = .ok (items, rest)) :
    rest.length ≤ text.length := by
  fun_induction elements element first text generalizing items with
  | case1 => simp at read
  | case2 _ _ _ next =>
    simp at read
    exact read.2 ▸ length_nextElement next
  | case3 => simp at read
  | case4 _ _ _ _ _ _ _ shorter ih =>
    obtain ⟨_, readRest, -⟩ := Reading.map_eq_ok.1 read
    exact Nat.le_trans (ih readRest) (Nat.le_of_lt shorter)

theorem length_members {α : Type} {value : Reader α} {first : Bool} {text rest : List Char}
    {pairs : List (String × α)} (read : members value first text = .ok (pairs, rest)) :
    rest.length ≤ text.length := by
  fun_induction members value first text generalizing pairs with
  | case1 => simp at read
  | case2 _ _ _ next =>
    simp at read
    exact read.2 ▸ Nat.le_of_lt (length_nextKey next)
  | case3 => simp at read
  | case4 _ _ _ _ _ _ _ _ shorter ih =>
    obtain ⟨_, readRest, -⟩ := Reading.map_eq_ok.1 read
    exact Nat.le_trans (ih readRest) (Nat.le_of_lt shorter)

/-- Reads a value whose children, if it may have any, are read by `child`. -/
def valueOver (child : Option (Reader Value)) (text : List Char) : Reading Value :=
  match skipBlanks text with
  | '[' :: rest =>
    match child with
    | none => .error (.on .nestedTooDeep ('[' :: rest))
    | some child => (elements child true rest).map .array
  | '\x7b' :: rest =>
    match child with
    | none => .error (.on .nestedTooDeep ('\x7b' :: rest))
    | some child => (members child true rest).map fun pairs => .object (membersOf pairs)
  | start => childless start

theorem length_valueOver {child : Option (Reader Value)} {text rest : List Char} {v : Value}
    (read : valueOver child text = .ok (v, rest)) : rest.length < text.length := by
  have := length_skipBlanks_le text
  unfold valueOver at read
  split at read
  · split at read
    · simp at read
    · obtain ⟨_, readItems, -⟩ := Reading.map_eq_ok.1 read
      have := length_elements readItems
      grind
  · split at read
    · simp at read
    · obtain ⟨_, readMembers, -⟩ := Reading.map_eq_ok.1 read
      have := length_members readMembers
      grind
  · have := length_childless read
    omega

/-- Reads a value in which at most `room` brackets are open at a time. -/
def value : Nat → Reader Value
  | 0 => ⟨valueOver none, length_valueOver⟩
  | room + 1 => ⟨valueOver (some (value room)), length_valueOver⟩

/-- The brackets that a document may have open at a time. -/
def nestingLimit : Nat := 127

/-- Only blanks may follow the value that a text holds. -/
def finish {κ α : Type} (describe : Cause → κ) (a : α) (rest : List Char) : Except (Fault κ) α :=
  match skipBlanks rest with
  | [] => .ok a
  | rest => .error (.on (describe .trailingCharacters) rest)

/-- Reads the value that a text holds. -/
def readValue (text : String) : Except (Fault Cause) Value :=
  match (value nestingLimit).run text.toList with
  | .ok (v, rest) => finish id v rest
  | .error fault => .error fault

end JsonUnpack.Json
