import JsonUnpack.Cpp

/-! What a compiler reads from a string literal. Escaping is one pass over the text, and scanning
undoes it and stops exactly at the closing quote, whatever follows. A scanner that is strict about
what it lets pass agrees with one that takes every escaped character as it is, so what is shown of
the strict one holds of both. -/
namespace JsonUnpack.Cpp

/-- What one character of a text becomes in a literal. -/
def escapedChar (c : Char) : List Char :=
  if c = '\\' then ['\\', '\\'] else if c = '"' then ['\\', '"'] else [c]

/-- Reads the rest of a literal after its opening quote: the text, and what follows the closing
quote. Only backslashes and quotes may be escaped, and every other character must be admitted. -/
def literalBody? (admitted : Char → Bool) : List Char → Option (List Char × List Char)
  | [] => none
  | '"' :: rest => some ([], rest)
  | '\\' :: c :: rest =>
    if c = '\\' ∨ c = '"' then
      (literalBody? admitted rest).map fun found => (c :: found.1, found.2)
    else none
  | c :: rest =>
    if admitted c then (literalBody? admitted rest).map fun found => (c :: found.1, found.2)
    else none

/-- Guarding quotes does not touch the backslashes that guard backslashes. -/
theorem escape_chars_eq_flatMap (text : List Char) :
    escapeChars text = text.flatMap escapedChar := by
  unfold escapeChars
  induction text with
  | nil => rfl
  | cons c rest ih =>
    rw [List.flatMap_cons, ← ih, guardAll, escapedChar]
    by_cases backslash : c = '\\'
    · subst backslash
      rfl
    · rw [if_neg backslash, if_neg backslash, guardAll]
      by_cases quote : c = '"'
      · subst quote
        rfl
      · rw [if_neg quote, if_neg quote]
        rfl

private theorem literal_body_cons {admitted : Char → Bool} {c : Char} (rest : List Char)
    (special : c = '\\' ∨ c = '"' ∨ admitted c = true) :
    literalBody? admitted (escapedChar c ++ rest) =
      (literalBody? admitted rest).map fun found => (c :: found.1, found.2) := by
  unfold escapedChar
  by_cases backslash : c = '\\'
  · subst backslash
    rfl
  · by_cases quote : c = '"'
    · subst quote
      rfl
    · have plain : admitted c = true := (special.resolve_left backslash).resolve_left quote
      rw [if_neg backslash, if_neg quote, List.singleton_append, literalBody?, if_pos plain]
      · exact quote
      · intro _ _ same _
        exact backslash same

/-- A scanner started after the opening quote reads back the text and stops at the closing quote. -/
theorem literal_body_escaped {admitted : Char → Bool} {text : List Char} (rest : List Char)
    (plain : ∀ c ∈ text, c = '\\' ∨ c = '"' ∨ admitted c = true) :
    literalBody? admitted (escapeChars text ++ '"' :: rest) = some (text, rest) := by
  rw [escape_chars_eq_flatMap]
  induction text with
  | nil => rfl
  | cons c text ih =>
    rw [List.flatMap_cons, List.append_assoc, literal_body_cons _ (plain c List.mem_cons_self),
      ih fun other member => plain other (List.mem_cons_of_mem _ member)]
    rfl

/-- What is read from a literal was admitted there, or was escaped. -/
theorem admitted_of_literal_body {admitted : Char → Bool} {text body rest : List Char}
    (scanned : literalBody? admitted text = some (body, rest)) :
    ∀ c ∈ body, c = '\\' ∨ c = '"' ∨ admitted c = true := by
  fun_induction literalBody? admitted text generalizing body with
  | case1 => cases scanned
  | case2 =>
    cases scanned
    exact nofun
  | case3 c tail escapable ih =>
    obtain ⟨⟨inner, after⟩, scannedTail, same⟩ := Option.map_eq_some_iff.mp scanned
    cases same
    refine List.forall_mem_cons.mpr ⟨?_, ih scannedTail⟩
    rw [← or_assoc]
    exact .inl escapable
  | case4 => cases scanned
  | case5 c tail _ _ plain ih =>
    obtain ⟨⟨inner, after⟩, scannedTail, same⟩ := Option.map_eq_some_iff.mp scanned
    cases same
    exact List.forall_mem_cons.mpr ⟨.inr (.inr plain), ih scannedTail⟩
  | case6 => cases scanned

/-- Scanning a literal uses up some of the text. -/
theorem length_literal_body {admitted : Char → Bool} {text body rest : List Char}
    (scanned : literalBody? admitted text = some (body, rest)) : rest.length < text.length := by
  fun_induction literalBody? admitted text generalizing body with
  | case1 => cases scanned
  | case2 => cases scanned; exact Nat.lt_succ_self _
  | case3 c tail escapable ih =>
    obtain ⟨⟨inner, after⟩, scannedTail, same⟩ := Option.map_eq_some_iff.mp scanned
    cases same
    exact Nat.lt_succ_of_lt (Nat.lt_succ_of_lt (ih scannedTail))
  | case4 => cases scanned
  | case5 c tail _ _ _ ih =>
    obtain ⟨⟨inner, after⟩, scannedTail, same⟩ := Option.map_eq_some_iff.mp scanned
    cases same
    exact Nat.lt_succ_of_lt (ih scannedTail)
  | case6 => cases scanned

/-- Reads the rest of a literal after its opening quote without asking what is in it: the character
after a backslash stands for itself, and the first quote without a backslash ends the literal. -/
def anyLiteralBody? : List Char → Option (List Char × List Char)
  | [] => none
  | '"' :: rest => some ([], rest)
  | '\\' :: c :: rest => (anyLiteralBody? rest).map fun found => (c :: found.1, found.2)
  | c :: rest => (anyLiteralBody? rest).map fun found => (c :: found.1, found.2)

/-- What a strict scanner reads is read by one that lets everything pass. -/
theorem any_literal_body {admitted : Char → Bool} {text : List Char}
    {found : List Char × List Char} (scanned : literalBody? admitted text = some found) :
    anyLiteralBody? text = some found := by
  fun_induction literalBody? admitted text generalizing found with
  | case1 => cases scanned
  | case2 => exact scanned
  | case3 c tail _ ih =>
    obtain ⟨inner, scannedTail, same⟩ := Option.map_eq_some_iff.mp scanned
    rw [anyLiteralBody?, ih scannedTail]
    exact congrArg some same
  | case4 => cases scanned
  | case5 c tail notQuote notEscape _ ih =>
    obtain ⟨inner, scannedTail, same⟩ := Option.map_eq_some_iff.mp scanned
    rw [anyLiteralBody?, ih scannedTail]
    · exact congrArg some same
    · exact notQuote
    · exact notEscape
  | case6 => cases scanned

private theorem toList_escape (text : String) :
    (escape text).toList = text.toList.flatMap escapedChar := by
  rw [escape, String.toList_ofList, escape_chars_eq_flatMap]

private theorem escape_append (text more : String) :
    escape (text ++ more) = escape text ++ escape more := by
  apply String.toList_inj.mp
  rw [String.toList_append, toList_escape, toList_escape, toList_escape, String.toList_append,
    List.flatMap_append]

private theorem scan_escaped (text rest : String) :
    anyLiteralBody? (escape text ++ "\"" ++ rest).toList = some (text.toList, rest.toList) := by
  have ended : (escape text ++ "\"" ++ rest).toList =
      escapeChars text.toList ++ '"' :: rest.toList := by
    simp [escape]
  have strict : literalBody? (fun _ => true) (escapeChars text.toList ++ '"' :: rest.toList) =
      some (text.toList, rest.toList) :=
    literal_body_escaped rest.toList fun _ _ => .inr (.inr rfl)
  rw [ended]
  exact any_literal_body strict

/-- Escaping backslashes and then quotes is one pass, in which the character alone decides what it
becomes; so a text may be escaped in parts. A scanner that knows nothing of what was escaped finds
the text again and the literal's end, even if the text ends in backslashes or more quotes follow. -/
theorem escape_is_exact (text : String) :
    escape text = .ofList (text.toList.flatMap escapedChar) ∧
    (∀ more, escape (text ++ more) = escape text ++ escape more) ∧
    ∀ rest : String,
      anyLiteralBody? (escape text ++ "\"" ++ rest).toList = some (text.toList, rest.toList) := by
  refine ⟨?_, escape_append text, scan_escaped text⟩
  rw [← toList_escape, String.ofList_toList]

end JsonUnpack.Cpp
