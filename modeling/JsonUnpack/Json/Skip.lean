import JsonUnpack.Json.Reader

/-! Passing over a value that nobody asks for. Its grammar is checked, but no number is evaluated,
no surrogates are joined and brackets may be nested to any depth: the ones that are open are kept on
a stack. -/
namespace JsonUnpack.Json

/-- Passes over at least one digit. -/
def skipDigits (text : List Char) : Reading Unit :=
  if text.head?.any Char.isDigit then .ok ((), text.dropWhile Char.isDigit)
  else .error (.on .invalidNumber text)

/-- Passes over an exponent if there is one. -/
def skipExponent : List Char → Reading Unit
  | [] => .ok ((), [])
  | c :: rest =>
    if c = 'e' ∨ c = 'E' then
      match rest with
      | '+' :: digits => skipDigits digits
      | '-' :: digits => skipDigits digits
      | digits => skipDigits digits
    else .ok ((), c :: rest)

/-- Passes over a number after its sign. Unlike in a number that is read, a digit missing at the end
of the text is a fault of the number. -/
def skipNumber : List Char → Reading Unit
  | [] => .error (.on .invalidNumber [])
  | text => (wholeDigits text).andThen fun _ rest =>
    match rest with
    | '.' :: digits => (skipDigits digits).andThen fun _ rest => skipExponent rest
    | rest => skipExponent rest

/-- Passes over the rest of an escape, after the backslash. -/
def skipEscape : List Char → Reading Unit
  | [] => .error (.before .endInString [])
  | letter :: rest =>
    if letter = 'u' then (hexEscape rest).map fun _ => ()
    else if (unescaped? letter).isSome then .ok ((), rest)
    else .error (.on .invalidEscape (letter :: rest))

theorem length_skipDigits {text rest : List Char} (read : skipDigits text = .ok ((), rest)) :
    rest.length ≤ text.length := by
  unfold skipDigits at read
  split at read <;> simp at read
  exact read ▸ (List.dropWhile_sublist _).length_le

theorem length_skipExponent {text rest : List Char} (read : skipExponent text = .ok ((), rest)) :
    rest.length ≤ text.length := by
  unfold skipExponent at read
  split at read
  · simp at read
    simp [read]
  · split at read
    · split at read
      all_goals
        have := length_skipDigits read
        grind
    · simp at read
      simp [← read]

theorem length_skipNumber {text rest : List Char} (read : skipNumber text = .ok ((), rest)) :
    rest.length < text.length := by
  unfold skipNumber at read
  split at read
  · simp at read
  · obtain ⟨_, _, readWhole, read⟩ := Reading.andThen_eq_ok.1 read
    have := length_wholeDigits readWhole
    split at read
    · obtain ⟨_, _, readFraction, read⟩ := Reading.andThen_eq_ok.1 read
      have := length_skipDigits readFraction
      have := length_skipExponent read
      grind
    · have := length_skipExponent read
      omega

theorem length_skipEscape {text rest : List Char} (read : skipEscape text = .ok ((), rest)) :
    rest.length < text.length := by
  unfold skipEscape at read
  split at read
  · simp at read
  · split at read
    · obtain ⟨_, readHex, -⟩ := Reading.map_eq_ok.1 read
      have := length_hexEscape readHex
      simp
      omega
    · split at read <;> simp at read
      simp [← read]

/-- Passes over the rest of a string, after the opening quote. A control character is reported where
it stands. -/
def skipString (text : List Char) : Reading Unit :=
  match text with
  | [] => .error (.before .endInString [])
  | '"' :: rest => .ok ((), rest)
  | '\\' :: rest =>
    match read : skipEscape rest with
    | .error fault => .error fault
    | .ok ((), after) =>
      have : after.length < rest.length := length_skipEscape read
      skipString after
  | c :: rest =>
    if c.toNat < 0x20 then .error (.before .controlCharacter (c :: rest)) else skipString rest
termination_by text.length
decreasing_by
  all_goals simp
  all_goals omega

theorem length_skipString {text rest : List Char} (read : skipString text = .ok ((), rest)) :
    rest.length < text.length := by
  fun_induction skipString text with
  | case1 => simp at read
  | case2 => simp at read; simp [read]
  | case3 => simp at read
  | case4 _ _ _ _ ih =>
    have := ih read
    simp
    omega
  | case5 => simp at read
  | case6 _ _ _ _ _ ih =>
    have := ih read
    simp
    omega

/-- Passes over a value without children, which the text starts with. -/
def skipChildless : List Char → Reading Unit
  | [] => .error (.on .endInValue [])
  | 'n' :: rest => word ['u', 'l', 'l'] rest
  | 't' :: rest => word ['r', 'u', 'e'] rest
  | 'f' :: rest => word ['a', 'l', 's', 'e'] rest
  | '"' :: rest => skipString rest
  | '-' :: rest => skipNumber rest
  | c :: rest =>
    if c.isDigit then skipNumber (c :: rest) else .error (.on .expectedValue (c :: rest))

/-- Passes over a key and its colon. -/
def skipKey (text : List Char) : Reading Unit :=
  match skipBlanks text with
  | [] => .error (.on .endInObject [])
  | '"' :: rest => (skipString rest).andThen fun _ rest => colon rest
  | rest => .error (.on .keyNotString rest)

theorem length_skipChildless {text rest : List Char}
    (read : skipChildless text = .ok ((), rest)) : rest.length < text.length := by
  unfold skipChildless at read
  split at read
  · simp at read
  · have := length_word read
    simp
    omega
  · have := length_word read
    simp
    omega
  · have := length_word read
    simp
    omega
  · have := length_skipString read
    simp
    omega
  · have := length_skipNumber read
    simp
    omega
  · split at read
    · exact length_skipNumber read
    · simp at read

theorem length_skipKey {text rest : List Char} (read : skipKey text = .ok ((), rest)) :
    rest.length < text.length := by
  have := length_skipBlanks_le text
  unfold skipKey at read
  split at read
  · simp at read
  · obtain ⟨_, _, readString, readColon⟩ := Reading.andThen_eq_ok.1 read
    have := length_skipString readString
    have := length_colon readColon
    grind
  · simp at read

/-- The fault of a text that ends inside a bracket. -/
def Composite.endInside : Composite → Cause
  | .array => .endInArray
  | .object => .endInObject

/-- The fault of a child that is followed by neither a comma nor the closing bracket. -/
def Composite.expectedComma : Composite → Cause
  | .array => .expectedCommaInArray
  | .object => .expectedCommaInObject

/-- The closing bracket. -/
def Composite.close : Composite → Char
  | .array => ']'
  | .object => '\x7d'

/-- Passes over what stands in front of a child: nothing in an array, a key in an object. -/
def skipLabel : Composite → List Char → Reading Unit
  | .array, text => .ok ((), text)
  | .object, text => skipKey text

theorem length_skipLabel {kind : Composite} {text rest : List Char}
    (read : skipLabel kind text = .ok ((), rest)) : rest.length ≤ text.length := by
  cases kind with
  | array => simp [skipLabel] at read; simp [read]
  | object => exact Nat.le_of_lt (length_skipKey read)

/-- The kind of value that a bracket opens. -/
def opened? : Char → Option Composite
  | '[' => some .array
  | '\x7b' => some .object
  | _ => none

mutual

/-- Passes over a value and then over what is left of the brackets around it, innermost first. -/
def skipValue (around : List Composite) (text : List Char) : Reading Unit :=
  match start : skipBlanks text with
  | [] => .error (.on .endInValue [])
  | c :: rest =>
    have shorter := length_lt_of_skipBlanks_eq_cons start
    match opened? c with
    | some kind =>
      match inside : skipBlanks rest with
      | [] => .error (.on kind.endInside [])
      | d :: after =>
        have := length_lt_of_skipBlanks_eq_cons inside
        if d = kind.close then skipRest around after
        else
          match label : skipLabel kind rest with
          | .error fault => .error fault
          | .ok ((), child) =>
            have := length_skipLabel label
            skipValue (kind :: around) child
    | none =>
      match read : skipChildless (c :: rest) with
      | .error fault => .error fault
      | .ok ((), after) =>
        have : after.length < text.length := Nat.lt_of_lt_of_le (length_skipChildless read) shorter
        skipRest around after
termination_by text.length

/-- Passes over what is left of the brackets around a value that has just ended. -/
def skipRest (around : List Composite) (text : List Char) : Reading Unit :=
  match around with
  | [] => .ok ((), text)
  | kind :: outer =>
    match start : skipBlanks text with
    | [] => .error (.on kind.endInside [])
    | c :: rest =>
      have := length_lt_of_skipBlanks_eq_cons start
      if c = ',' then
        match label : skipLabel kind rest with
        | .error fault => .error fault
        | .ok ((), child) =>
          have := length_skipLabel label
          skipValue (kind :: outer) child
      else if c = kind.close then skipRest outer rest
      else .error (.on kind.expectedComma (c :: rest))
termination_by text.length

end

mutual

theorem length_skipValue {around : List Composite} {text rest : List Char}
    (read : skipValue around text = .ok ((), rest)) : rest.length < text.length := by
  have shorter := length_skipBlanks_le text
  rw [skipValue] at read
  split at read
  · simp at read
  · rename_i c tail start
    dsimp only at read
    have := length_skipBlanks_le tail
    simp only [start, List.length_cons] at shorter
    split at read
    · split at read
      · simp at read
      · split at read
        · have := length_skipRest read
          grind
        · split at read
          · simp at read
          · rename_i label
            have := length_skipLabel label
            have := length_skipValue read
            grind
    · split at read
      · simp at read
      · rename_i childless
        have := length_skipChildless childless
        have := length_skipRest read
        grind
termination_by text.length
decreasing_by all_goals grind

theorem length_skipRest {around : List Composite} {text rest : List Char}
    (read : skipRest around text = .ok ((), rest)) : rest.length ≤ text.length := by
  have := length_skipBlanks_le text
  rw [skipRest.eq_def] at read
  split at read
  · simp at read
    simp [read]
  · split at read
    · simp at read
    · dsimp only at read
      split at read
      · split at read
        · simp at read
        · rename_i label
          have := length_skipLabel label
          have := length_skipValue read
          grind
      · split at read
        · have := length_skipRest read
          grind
        · simp at read
termination_by text.length
decreasing_by all_goals grind

end

/-- Passes over a value. -/
def skip (text : List Char) : Reading Unit := skipValue [] text

theorem length_skip {text rest : List Char} (read : skip text = .ok ((), rest)) :
    rest.length < text.length :=
  length_skipValue read

end JsonUnpack.Json
