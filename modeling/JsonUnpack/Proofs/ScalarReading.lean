import JsonUnpack.Proofs.LineReading
import JsonUnpack.Proofs.Spelling

/-! Scalars are read from every text that spells them, as long as they are not floating-point
numbers. A string ends at its closing quote; a number ends before whatever comes next, so that has
to be something that may follow a value. -/
namespace JsonUnpack.Json

/-- A text that may follow a value: it has ended, or a blank, a comma or a closing bracket comes
next. -/
def Delimited (rest : List Char) : Prop :=
  ∀ c, rest.head? = some c → c ∈ [' ', '\t', '\n', '\r', ',', ']', '\x7d']

theorem delimited_nil : Delimited [] := nofun

theorem delimited_cons {c : Char} (closes : c = ',' ∨ c = ']' ∨ c = '\x7d') (rest : List Char) :
    Delimited (c :: rest) := by
  intro other same
  cases same
  rcases closes with rfl | rfl | rfl <;> decide

theorem delimited_blanks {gap rest : List Char} (blank : Blanks gap) (delimited : Delimited rest) :
    Delimited (gap ++ rest) := by
  cases gap with
  | nil => exact delimited
  | cons c gap =>
    intro other same
    cases same
    exact List.mem_append_left [',', ']', '\x7d'] (blank c List.mem_cons_self)

/-! Strings. -/

private theorem hex_digit {n : Nat} {c : Char} (spelled : SpellsHexDigit n c) :
    hexDigit? c = some n := by
  have digits : ∀ n < 0x10, hexDigit? (Nat.digitChar n) = some n ∧
      hexDigit? (Nat.digitChar n).toUpper = some n := by decide
  obtain ⟨small, rfl | rfl⟩ := spelled
  · exact (digits n small).1
  · exact (digits n small).2

theorem hex_escape {n : Nat} {digits : List Char} (spelled : SpellsUnit n digits)
    (rest : List Char) : hexEscape (digits ++ rest) = .ok (n, rest) := by
  unfold SpellsUnit at spelled
  split at spelled
  · rename_i a b c d
    obtain ⟨first, second, third, fourth⟩ := spelled
    have number : hexNumber? a b c d = some n := by
      rw [hexNumber?, hex_digit first, hex_digit second, hex_digit third, hex_digit fourth]
      change some (((n / 0x1000 * 16 + n / 0x100 % 0x10) * 16 + n / 0x10 % 0x10) * 16 +
        n % 0x10) = _
      congr 1
      omega
    rw [List.cons_append, List.cons_append, List.cons_append, List.cons_append, List.nil_append,
      hexEscape, number]
  · exact spelled.elim

private theorem escape_short {c letter : Char} (listed : (letter, c) ∈ shortEscapes)
    (rest : List Char) : escape (letter :: rest) = .ok (c, rest) := by
  simp only [shortEscapes, List.mem_cons, Prod.mk.injEq, List.not_mem_nil, or_false] at listed
  rcases listed with h | h | h | h | h | h | h | h <;> obtain ⟨rfl, rfl⟩ := h <;> rfl

private theorem not_surrogate (c : Char) :
    isHighSurrogate c.toNat = false ∧ isLowSurrogate c.toNat = false := by
  have valid : c.toNat < 0xD800 ∨ 0xDFFF < c.toNat ∧ c.toNat < 0x110000 := c.valid
  simp only [isHighSurrogate, isLowSurrogate, decide_eq_false_iff_not]
  omega

private theorem escape_unit {c : Char} {digits : List Char} (number : SpellsUnit c.toNat digits)
    (rest : List Char) : escape ('u' :: (digits ++ rest)) = .ok (c, rest) := by
  rw [escape, hex_escape number, Reading.andThen, (not_surrogate c).1, (not_surrogate c).2,
    Char.ofNat_toNat]
  rfl

private theorem escape_pair {c : Char} {high low : List Char} (beyond : 0x10000 ≤ c.toNat)
    (first : SpellsUnit (0xD800 + (c.toNat - 0x10000) / 0x400) high)
    (second : SpellsUnit (0xDC00 + (c.toNat - 0x10000) % 0x400) low) (rest : List Char) :
    escape ('u' :: (high ++ '\\' :: 'u' :: (low ++ rest))) = .ok (c, rest) := by
  have valid : c.toNat < 0xD800 ∨ 0xDFFF < c.toNat ∧ c.toNat < 0x110000 := c.valid
  have isHigh : isHighSurrogate (0xD800 + (c.toNat - 0x10000) / 0x400) = true := by
    simp only [isHighSurrogate, decide_eq_true_eq]
    omega
  have isLow : isLowSurrogate (0xDC00 + (c.toNat - 0x10000) % 0x400) = true := by
    simp only [isLowSurrogate, decide_eq_true_eq]
    omega
  have joined : joinSurrogates (0xD800 + (c.toNat - 0x10000) / 0x400)
      (0xDC00 + (c.toNat - 0x10000) % 0x400) = c := by
    have number : 0x10000 + (0xD800 + (c.toNat - 0x10000) / 0x400 - 0xD800) * 0x400 +
        (0xDC00 + (c.toNat - 0x10000) % 0x400 - 0xDC00) = c.toNat := by
      omega
    rw [joinSurrogates, number, Char.ofNat_toNat]
  rw [escape, hex_escape first, Reading.andThen, isHigh, if_pos rfl, lowSurrogate,
    hex_escape second, Reading.andThen, isLow, if_pos rfl, joined]

private theorem string_body_escape {text rest : List Char} {c : Char}
    (read : escape text = .ok (c, rest)) :
    stringBody ('\\' :: text) = (stringBody rest).map (c :: ·) := by
  rw [stringBody]
  split
  · rename_i fault failed
    rw [read] at failed
    cases failed
  · rename_i c' rest' found
    rw [read] at found
    cases found
    rfl

private theorem string_body_char {c : Char} {part : List Char} (spelled : SpellsChar c part)
    (rest : List Char) : stringBody (part ++ rest) = (stringBody rest).map (c :: ·) := by
  cases spelled with
  | raw shown notQuote notBackslash =>
    rw [List.singleton_append, stringBody, if_neg (Nat.not_lt_of_le shown)]
    · exact notQuote
    · exact notBackslash
  | short listed => exact string_body_escape (escape_short listed rest)
  | unit number => exact string_body_escape (escape_unit number rest)
  | pair beyond first second =>
    rw [List.append_assoc]
    exact string_body_escape (escape_pair beyond first second rest)

private theorem string_body_text {text body : List Char} (spelled : SpellsText text body)
    (rest : List Char) : stringBody (body ++ '"' :: rest) = .ok (text, rest) := by
  induction spelled with
  | nil => rw [List.nil_append, stringBody]
  | cons char more ih =>
    rw [List.append_assoc, string_body_char char, ih]
    rfl

/-- A string is read up to its closing quote, whatever follows. -/
theorem string_spelled {s : String} {body : List Char} (spelled : SpellsText s.toList body)
    (rest : List Char) : string (body ++ '"' :: rest) = .ok (s, rest) := by
  rw [string, string_body_text spelled, Reading.map, String.ofList_toList]

/-! Numbers. -/

/-- No digit comes next. -/
def NoDigit (rest : List Char) : Prop := ∀ c, rest.head? = some c → c.isDigit = false

theorem no_digit_follows {rest : List Char} (delimited : Delimited rest) : NoDigit rest := by
  intro c head
  have none : [' ', '\t', '\n', '\r', ',', ']', '\x7d'].all (fun c => !c.isDigit) = true := by
    decide
  simpa using List.all_eq_true.mp none c (delimited c head)

theorem whole_digits_read {n : Nat} {digits rest : List Char} (spelled : SpellsNatural n digits)
    (ends : NoDigit rest) : wholeDigits (digits ++ rest) = .ok (digits, rest) := by
  rcases start : digits with _ | ⟨d, more⟩
  · exact absurd start spelled.written
  · rw [List.cons_append, wholeDigits]
    by_cases zero : d = '0'
    · subst zero
      have alone : more = [] := (List.cons.inj (start ▸ spelled.lead (start ▸ rfl))).2
      have none : rest.head?.any Char.isDigit = false := by
        cases head : rest.head? with
        | none => rfl
        | some c => exact ends c head
      rw [if_pos rfl, alone, List.nil_append, none, if_neg Bool.false_ne_true]
    · have digit : ∀ c ∈ d :: more, c.isDigit = true := start ▸ spelled.digits
      obtain ⟨run, after⟩ := span_exact Char.isDigit more rest
        (fun c member => digit c (List.mem_cons_of_mem d member)) ends
      rw [if_neg zero, if_pos (digit d List.mem_cons_self), run, after]

private theorem absorb_all {digits : List Char} {n : Nat}
    (fits : Nat.ofDigitChars 10 digits n < UInt64.size) :
    absorb n digits = (Nat.ofDigitChars 10 digits n, []) := by
  induction digits generalizing n with
  | nil => rw [absorb, Nat.ofDigitChars_nil]
  | cons d digits ih =>
    rw [Nat.ofDigitChars_cons] at fits ⊢
    have next := Nat.lt_of_le_of_lt (le_ofDigitChars digits _) fits
    rw [absorb]
    exact (if_pos next).trans (ih fits)

private theorem exponent_delimited (significand : Nat) {rest : List Char}
    (delimited : Delimited rest) : exponent? significand rest = .ok (none, rest) := by
  rw [exponent?]
  · rintro text rfl
    exact absurd (delimited 'e' rfl) (by decide)
  · rintro text rfl
    exact absurd (delimited 'E' rfl) (by decide)

private theorem numeral_read (negative : Bool) {n : Nat} (fits : n < UInt64.size)
    {digits rest : List Char} (spelled : SpellsNatural n digits) (delimited : Delimited rest) :
    numeral negative (digits ++ rest) = .ok (⟨negative, n, 0, true, fits⟩, rest) := by
  have absorbed : absorb 0 digits = (n, []) := by
    rw [absorb_all (by rwa [spelled.value]), spelled.value]
  rw [numeral, whole_digits_read spelled (no_digit_follows delimited), Reading.andThen]
  dsimp only
  split
  · exact absurd (delimited '.' rfl) (by decide)
  · simp only [absorbed, exponent_delimited n delimited]
    rfl

private theorem number_read_natural {n : Nat} (fits : n < UInt64.size) {digits rest : List Char}
    (spelled : SpellsNatural n digits) (delimited : Delimited rest) :
    number false (digits ++ rest) = .ok (.ofNat n fits, rest) := by
  rw [number, numeral_read false fits spelled delimited]
  rfl

private theorem number_read_negative {n : Nat} (positive : 0 < n) (fits : n ≤ 0x8000000000000000)
    {digits rest : List Char} (spelled : SpellsNatural n digits) (delimited : Delimited rest) :
    number true (digits ++ rest) = .ok (.whole ⟨-n, by omega, by omega⟩, rest) := by
  have below : n < UInt64.size := Nat.lt_of_le_of_lt fits (by decide)
  have negative : (Numeral.mk true n 0 true below).number? =
      some (.whole ⟨-n, by omega, by omega⟩) := by
    rw [Numeral.number?]
    exact (if_neg Bool.false_ne_true).trans (dif_pos ⟨rfl, positive, fits⟩)
  rw [number, numeral_read true below spelled delimited, Reading.andThen, negative]

private theorem childless_digits {n : Nat} {digits : List Char} (spelled : SpellsNatural n digits)
    (rest : List Char) :
    childless (digits ++ rest) = (number false (digits ++ rest)).map .ofNumber := by
  rcases start : digits with _ | ⟨d, more⟩
  · exact absurd start spelled.written
  · have digit : d.isDigit = true := spelled.digits d (start ▸ List.mem_cons_self)
    rw [List.cons_append, childless, if_pos digit]
    all_goals
      rintro rfl
      cases digit

/-- An integer is read from its decimal notation. -/
theorem childless_integer {n : Whole} {text rest : List Char} (spelled : SpellsInteger n.val text)
    (delimited : Delimited rest) :
    childless (text ++ rest) = .ok (.scalar (.number (.whole n)), rest) := by
  obtain ⟨n, least, greatest⟩ := n
  change SpellsInteger n text at spelled
  cases spelled with
  | @natural n _ digits =>
    have fits : n < UInt64.size := by
      change n < 0x10000000000000000
      omega
    rw [childless_digits digits, number_read_natural fits digits delimited]
    rfl
  | @negative n _ digits nonzero =>
    have fits : n ≤ 0x8000000000000000 := by omega
    rw [List.cons_append, childless,
      number_read_negative (Nat.pos_of_ne_zero nonzero) fits digits delimited]
    rfl

end JsonUnpack.Json
