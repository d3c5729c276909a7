import JsonUnpack.Json.Fault

/-! String literals. Writing escapes only what must be escaped; reading accepts every escape and
joins the two surrogates of a character outside the basic plane. -/
namespace JsonUnpack.Json

/-- The letter that escapes a character, where it has one. -/
def escapeLetter? : Char → Option Char
  | '"' => some '"'
  | '\\' => some '\\'
  | '\x08' => some 'b'
  | '\x0c' => some 'f'
  | '\n' => some 'n'
  | '\r' => some 'r'
  | '\t' => some 't'
  | _ => none

/-- One character of a string as it is written: the control characters that have no letter are
written in hexadecimal, and all characters that need no escape stand for themselves. -/
def quotedChar (c : Char) : List Char :=
  match escapeLetter? c with
  | some letter => ['\\', letter]
  | none =>
    if c.toNat < 0x20 then
      ['\\', 'u', '0', '0', Nat.digitChar (c.toNat / 16), Nat.digitChar (c.toNat % 16)]
    else [c]

/-- A string literal with both its quotes. -/
def quoted (text : List Char) : List Char := '"' :: text.flatMap quotedChar ++ ['"']

/-- The character that an escape letter stands for. -/
def unescaped? : Char → Option Char
  | '"' => some '"'
  | '\\' => some '\\'
  | '/' => some '/'
  | 'b' => some '\x08'
  | 'f' => some '\x0c'
  | 'n' => some '\n'
  | 'r' => some '\r'
  | 't' => some '\t'
  | _ => none

/-- The value of a hexadecimal digit of either case. -/
def hexDigit? (c : Char) : Option Nat :=
  if '0' ≤ c ∧ c ≤ '9' then some (c.toNat - '0'.toNat)
  else if 'a' ≤ c ∧ c ≤ 'f' then some (c.toNat - 'a'.toNat + 10)
  else if 'A' ≤ c ∧ c ≤ 'F' then some (c.toNat - 'A'.toNat + 10)
  else none

/-- The number that four hexadecimal digits make. -/
def hexNumber? (a b c d : Char) : Option Nat := do
  some ((((← hexDigit? a) * 16 + (← hexDigit? b)) * 16 + (← hexDigit? c)) * 16 + (← hexDigit? d))

/-- Reads the four digits after `\u`. They are taken as four bytes before they are looked at: a text
with fewer bytes has ended, and a byte that is no digit is reported after the fourth one. -/
def hexEscape : List Char → Reading Nat
  | a :: b :: c :: d :: rest =>
    match hexNumber? a b c d with
    | some number => .ok (number, rest)
    | none => .error ⟨.invalidEscape, a :: b :: c :: d :: rest, 4⟩
  | short =>
    if utf8Length short < 4 then .error (.before .endInString [])
    else .error ⟨.invalidEscape, short, 4⟩

def isHighSurrogate (n : Nat) : Bool := 0xD800 ≤ n ∧ n ≤ 0xDBFF

def isLowSurrogate (n : Nat) : Bool := 0xDC00 ≤ n ∧ n ≤ 0xDFFF

/-- The character that a pair of surrogates stands for. -/
def joinSurrogates (high low : Nat) : Char :=
  .ofNat (0x10000 + (high - 0xD800) * 0x400 + (low - 0xDC00))

/-- Reads the second surrogate, after `high`. -/
def lowSurrogate (high : Nat) : List Char → Reading Char
  | '\\' :: 'u' :: digits => (hexEscape digits).andThen fun low rest =>
    if isLowSurrogate low then .ok (joinSurrogates high low, rest)
    else .error (.before .unpairedSurrogate rest)
  | [] => .error (.before .endInString [])
  | ['\\'] => .error (.before .endInString [])
  | '\\' :: rest => .error (.on .missingSurrogate rest)
  | rest => .error (.on .missingSurrogate rest)

/-- Reads the rest of an escape, after the backslash. -/
def escape : List Char → Reading Char
  | [] => .error (.before .endInString [])
  | 'u' :: digits => (hexEscape digits).andThen fun number rest =>
    if isHighSurrogate number then lowSurrogate number rest
    else if isLowSurrogate number then .error (.before .unpairedSurrogate rest)
    else .ok (.ofNat number, rest)
  | letter :: rest =>
    match unescaped? letter with
    | some c => .ok (c, rest)
    | none => .error (.on .invalidEscape (letter :: rest))

theorem length_hexEscape {text rest : List Char} {n : Nat}
    (read : hexEscape text = .ok (n, rest)) : rest.length < text.length := by
  unfold hexEscape at read
  split at read <;> split at read <;> simp at read
  simp [← read.2]
  omega

theorem length_lowSurrogate {text rest : List Char} {high : Nat} {c : Char}
    (read : lowSurrogate high text = .ok (c, rest)) : rest.length < text.length := by
  unfold lowSurrogate at read
  split at read <;> try simp at read
  obtain ⟨low, after, readLow, read⟩ := Reading.andThen_eq_ok.1 read
  have := length_hexEscape readLow
  split at read <;> simp at read
  simp [← read.2]
  omega

theorem length_escape {text rest : List Char} {c : Char} (read : escape text = .ok (c, rest)) :
    rest.length < text.length := by
  unfold escape at read
  split at read
  · simp at read
  · obtain ⟨number, after, readNumber, read⟩ := Reading.andThen_eq_ok.1 read
    have := length_hexEscape readNumber
    split at read
    · have := length_lowSurrogate read
      simp
      omega
    · split at read <;> simp at read
      simp [← read.2]
      omega
  · split at read <;> simp at read
    simp [← read.2]

/-- Reads the rest of a string, after the opening quote. -/
def stringBody (text : List Char) : Reading (List Char) :=
  match text with
  | [] => .error (.before .endInString [])
  | '"' :: rest => .ok ([], rest)
  | '\\' :: rest =>
    match read : escape rest with
    | .error fault => .error fault
    | .ok (c, after) =>
      have : after.length < rest.length := length_escape read
      (stringBody after).map (c :: ·)
  | c :: rest =>
    if c.toNat < 0x20 then .error (.on .controlCharacter (c :: rest))
    else (stringBody rest).map (c :: ·)
termination_by text.length
decreasing_by
  all_goals simp
  all_goals omega

theorem length_stringBody {text rest s : List Char} (read : stringBody text = .ok (s, rest)) :
    rest.length < text.length := by
  fun_induction stringBody text generalizing s with
  | case1 => simp at read
  | case2 => simp at read; simp [read.2]
  | case3 => simp at read
  | case4 _ _ _ _ shorter ih =>
    obtain ⟨tail, readTail, -⟩ := Reading.map_eq_ok.1 read
    have := ih readTail
    simp
    omega
  | case5 => simp at read
  | case6 _ _ _ _ _ ih =>
    obtain ⟨tail, readTail, -⟩ := Reading.map_eq_ok.1 read
    have := ih readTail
    simp
    omega

/-- Reads the rest of a string, after the opening quote, as text. -/
def string (text : List Char) : Reading String := (stringBody text).map String.ofList

theorem length_string {text rest : List Char} {s : String} (read : string text = .ok (s, rest)) :
    rest.length < text.length := by
  obtain ⟨body, readBody, -⟩ := Reading.map_eq_ok.1 read
  exact length_stringBody readBody

end JsonUnpack.Json
