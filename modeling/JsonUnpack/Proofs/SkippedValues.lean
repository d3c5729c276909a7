import JsonUnpack.Json.Skip
import JsonUnpack.Proofs.SpellingReading

/-! Every well-formed value is passed over, however deep it is nested, and the text after it is
left. What is well-formed is a matter of form alone: a number may be too large for any word, and
surrogates need not come in pairs. Passing over a value puts its open brackets on a stack; the
induction is on the value, for all stacks, so the brackets around a value are the same before and
after it. -/
namespace JsonUnpack.Json

/-! The form of a value. -/

/-- At least one decimal digit. -/
structure Digits (text : List Char) : Prop where
  written : text ≠ []
  digits : ∀ c ∈ text, c.isDigit = true

/-- The point of a number and the digits after it, if it has a point. -/
inductive FractionForm : List Char → Prop
  | absent : FractionForm []
  | present {digits : List Char} (some : Digits digits) : FractionForm ('.' :: digits)

/-- The exponent of a number, if it has one. -/
inductive ExponentForm : List Char → Prop
  | absent : ExponentForm []
  | present {letter : Char} {sign digits : List Char} (isLetter : letter = 'e' ∨ letter = 'E')
    (isSign : sign = [] ∨ sign = ['+'] ∨ sign = ['-']) (some : Digits digits) :
    ExponentForm (letter :: (sign ++ digits))

/-- A number after its sign. -/
inductive NumberForm : List Char → Prop
  | intro {n : Nat} {digits point power : List Char} (whole : SpellsNatural n digits)
    (fraction : FractionForm point) (exponent : ExponentForm power) :
    NumberForm (digits ++ (point ++ power))

/-- A character of a string. An escaped number may be one half of a character. -/
inductive CharForm : List Char → Prop
  | raw {c : Char} (shown : 0x20 ≤ c.toNat) (notQuote : c ≠ '"') (notBackslash : c ≠ '\\') :
    CharForm [c]
  | short {letter c : Char} (listed : (letter, c) ∈ shortEscapes) : CharForm ['\\', letter]
  | unit {n : Nat} {digits : List Char} (number : SpellsUnit n digits) :
    CharForm ('\\' :: 'u' :: digits)

/-- A string without its quotes. -/
inductive StringForm : List Char → Prop
  | nil : StringForm []
  | cons {part rest : List Char} (char : CharForm part) (more : StringForm rest) :
    StringForm (part ++ rest)

/-- What stands in front of a child: nothing in an array, and in an object a key, up to and
including its colon. -/
inductive LabelForm : Composite → List Char → Prop
  | none : LabelForm .array []
  | key {before body after : List Char} (front : Blanks before) (form : StringForm body)
    (back : Blanks after) : LabelForm .object (before ++ '"' :: (body ++ '"' :: (after ++ [':'])))

/-- The opening bracket. -/
def Composite.opening : Composite → Char
  | .array => '['
  | .object => '\x7b'

/-- A value. The children of an array or object are given with what stands in front of each. -/
inductive ValueForm : List Char → Prop
  | null : ValueForm ['n', 'u', 'l', 'l']
  | true : ValueForm ['t', 'r', 'u', 'e']
  | false : ValueForm ['f', 'a', 'l', 's', 'e']
  | number {text : List Char} (form : NumberForm text) : ValueForm text
  | negative {text : List Char} (form : NumberForm text) : ValueForm ('-' :: text)
  | string {body : List Char} (form : StringForm body) : ValueForm ('"' :: (body ++ ['"']))
  | composite {kind : Composite} {gap : List Char} {children : List (List Char × List Char)}
    (blank : Blanks gap) (labels : ∀ child ∈ children, LabelForm kind child.1)
    (each : ∀ child ∈ children, ValueForm child.2) :
    ValueForm (kind.opening :: (gap ++
      (commaSeparated (children.map fun child => child.1 ++ child.2) ++ [kind.close])))
  | blanks {before text after : List Char} (front : Blanks before) (form : ValueForm text)
    (back : Blanks after) : ValueForm (before ++ (text ++ after))

/-! Numbers. -/

private theorem skip_digits {digits rest : List Char} (some : Digits digits) (ends : NoDigit rest) :
    skipDigits (digits ++ rest) = .ok ((), rest) := by
  have after := (span_exact Char.isDigit digits rest some.digits ends).2
  rcases start : digits with _ | ⟨d, more⟩
  · exact absurd start some.written
  · have digit : d.isDigit = true := some.digits d (start ▸ List.mem_cons_self)
    rw [start] at after
    rw [skipDigits, after]
    exact if_pos digit

private theorem Digits.head {digits rest tail : List Char} {c : Char} (some : Digits digits)
    (start : digits ++ rest = c :: tail) : c.isDigit = true := by
  cases digits with
  | nil => exact absurd rfl some.written
  | cons d more =>
    cases start
    exact some.digits c List.mem_cons_self

private theorem no_digit_cons {c : Char} (other : c.isDigit = false) (rest : List Char) :
    NoDigit (c :: rest) := by
  intro d head
  cases head
  exact other

private theorem no_digit_exponent {power rest : List Char} (form : ExponentForm power)
    (delimited : Delimited rest) : NoDigit (power ++ rest) := by
  cases form with
  | absent => exact no_digit_follows delimited
  | present isLetter =>
    apply no_digit_cons
    rcases isLetter with rfl | rfl <;> rfl

private theorem no_digit_fraction {point rest : List Char} (form : FractionForm point)
    (ends : NoDigit rest) : NoDigit (point ++ rest) := by
  cases form with
  | absent => exact ends
  | present => exact no_digit_cons rfl _

private theorem skip_exponent {power rest : List Char} (form : ExponentForm power)
    (delimited : Delimited rest) : skipExponent (power ++ rest) = .ok ((), rest) := by
  cases form with
  | absent =>
    cases rest with
    | nil => rfl
    | cons c rest =>
      apply if_neg
      rintro (rfl | rfl)
      · exact absurd (delimited 'e' rfl) (by decide)
      · exact absurd (delimited 'E' rfl) (by decide)
  | @present letter sign digits isLetter isSign some =>
    have skipped : skipDigits (digits ++ rest) = .ok ((), rest) :=
      skip_digits some (no_digit_follows delimited)
    rw [List.cons_append, List.append_assoc, skipExponent.eq_def]
    refine (if_pos isLetter).trans ?_
    rcases isSign with rfl | rfl | rfl
    · rw [List.nil_append]
      split
      · rename_i start
        cases some.head start
      · rename_i start
        cases some.head start
      · exact skipped
    · exact skipped
    · exact skipped

private theorem skip_number {text rest : List Char} (form : NumberForm text)
    (delimited : Delimited rest) : skipNumber (text ++ rest) = .ok ((), rest) := by
  obtain ⟨whole, fraction, exponent⟩ := form
  rename_i n digits point power
  have afterPoint : NoDigit (power ++ rest) := no_digit_exponent exponent delimited
  have written : digits ++ (point ++ (power ++ rest)) ≠ [] := by
    apply List.append_ne_nil_of_left_ne_nil
    exact whole.written
  rw [List.append_assoc, List.append_assoc, skipNumber.eq_2 _ written,
    whole_digits_read whole (no_digit_fraction fraction afterPoint), Reading.andThen]
  cases fraction with
  | present some =>
    refine (congrArg (Reading.andThen · _) (skip_digits some afterPoint)).trans ?_
    exact skip_exponent exponent delimited
  | absent =>
    dsimp only [List.nil_append]
    split
    · rename_i start
      cases exponent with
      | absent => exact absurd (delimited '.' (congrArg List.head? start)) (by decide)
      | present isLetter =>
        cases start
        exact absurd isLetter (by decide)
    · exact skip_exponent exponent delimited

/-! Strings and keys. -/

private theorem skip_string_escape {text rest : List Char}
    (read : skipEscape text = .ok ((), rest)) : skipString ('\\' :: text) = skipString rest := by
  rw [skipString]
  split
  · rename_i failed
    rw [read] at failed
    cases failed
  · rename_i found
    rw [read] at found
    cases found
    rfl

private theorem skip_string_char {part : List Char} (form : CharForm part) (rest : List Char) :
    skipString (part ++ rest) = skipString rest := by
  cases form with
  | raw shown notQuote notBackslash =>
    rw [List.singleton_append, skipString, if_neg (Nat.not_lt_of_le shown)]
    · exact notQuote
    · exact notBackslash
  | short listed =>
    apply skip_string_escape
    simp only [shortEscapes, List.mem_cons, Prod.mk.injEq, List.not_mem_nil, or_false] at listed
    rcases listed with h | h | h | h | h | h | h | h <;> obtain ⟨rfl, rfl⟩ := h <;> rfl
  | unit number =>
    apply skip_string_escape
    exact congrArg (Reading.map fun _ => ()) (hex_escape number rest)

private theorem skip_string {body : List Char} (form : StringForm body) (rest : List Char) :
    skipString (body ++ '"' :: rest) = .ok ((), rest) := by
  induction form with
  | nil => rw [List.nil_append, skipString]
  | cons char more ih => rw [List.append_assoc, skip_string_char char, ih]

private theorem skip_label {kind : Composite} {label given rest : List Char}
    (form : LabelForm kind label) (same : skipBlanks given = skipBlanks (label ++ rest)) :
    ∃ child, skipLabel kind given = .ok ((), child) ∧ skipBlanks child = skipBlanks rest := by
  cases form with
  | none => exact ⟨given, rfl, same⟩
  | @key before body after front form back =>
    have quote : skipBlanks given = '"' :: (body ++ '"' :: (after ++ ':' :: rest)) := by
      rw [same, List.append_assoc, skip_blanks_append front, List.cons_append, skip_no_blanks rfl]
      simp
    have found : skipBlanks (after ++ ':' :: rest) = ':' :: rest := by
      rw [skip_blanks_append back, skip_no_blanks rfl]
    refine ⟨rest, ?_, rfl⟩
    rw [skipLabel, skipKey, quote]
    refine (congrArg (Reading.andThen · _) (skip_string form _)).trans ?_
    rw [Reading.andThen, colon_found found]

/-! Values. -/

/-- A value is passed over up to blanks, whatever brackets are open around it. -/
def PassedOver (text : List Char) : Prop :=
  ∀ around given rest, Delimited rest → skipBlanks given = skipBlanks (text ++ rest) →
    ∃ after, skipValue around given = skipRest around after ∧ skipBlanks after = skipBlanks rest

variable {around : List Composite} {kind : Composite} {given : List Char}

private theorem skip_value_eq (around : List Composite) (text : List Char) :
    skipValue around text =
      match skipBlanks text with
      | [] => .error (.on .endInValue [])
      | c :: rest =>
        match opened? c with
        | some kind =>
          match skipBlanks rest with
          | [] => .error (.on kind.endInside [])
          | d :: after =>
            if d = kind.close then skipRest around after
            else (skipLabel kind rest).andThen fun _ child => skipValue (kind :: around) child
        | none => (skipChildless (c :: rest)).andThen fun _ after => skipRest around after := by
  rw [skipValue]
  split
  · rename_i start
    rw [start]
  · rename_i c rest start
    dsimp only
    rw [start]
    dsimp only
    cases opened? c with
    | none =>
      dsimp only
      split
      · rename_i failed
        rw [failed, Reading.andThen]
      · rename_i read
        rw [read, Reading.andThen]
    | some kind =>
      dsimp only
      split
      · rename_i inside
        rw [inside]
      · rename_i d after inside
        rw [inside]
        dsimp only
        congr 1
        split
        · rename_i failed
          rw [failed, Reading.andThen]
        · rename_i read
          rw [read, Reading.andThen]

private theorem skip_rest_eq (kind : Composite) (around : List Composite) (text : List Char) :
    skipRest (kind :: around) text =
      match skipBlanks text with
      | [] => .error (.on kind.endInside [])
      | c :: rest =>
        if c = ',' then
          (skipLabel kind rest).andThen fun _ child => skipValue (kind :: around) child
        else if c = kind.close then skipRest around rest
        else .error (.on kind.expectedComma (c :: rest)) := by
  rw [skipRest]
  split
  · rename_i start
    rw [start]
  · rename_i c rest start
    dsimp only
    rw [start]
    dsimp only
    congr 1
    split
    · rename_i failed
      rw [failed, Reading.andThen]
    · rename_i read
      rw [read, Reading.andThen]

private theorem close_eq (kind : Composite) : kind.close = ']' ∨ kind.close = '\x7d' := by
  cases kind
  · exact .inl rfl
  · exact .inr rfl

private theorem skip_children {children : List (List Char × List Char)}
    (labels : ∀ child ∈ children, LabelForm kind child.1)
    (each : ∀ child ∈ children, PassedOver child.2) {rest : List Char}
    (same : skipBlanks given = skipBlanks
      (listed false (children.map fun child => child.1 ++ child.2) ++ kind.close :: rest)) :
    skipRest (kind :: around) given = skipRest around rest := by
  induction children generalizing given with
  | nil =>
    rw [skip_rest_eq, same, List.map_nil, listed_nil, List.nil_append]
    cases kind <;> rfl
  | cons child children ih =>
    obtain ⟨label, labels⟩ := List.forall_mem_cons.mp labels
    obtain ⟨passed, each⟩ := List.forall_mem_cons.mp each
    rw [List.map_cons, listed_cons, List.append_assoc, List.append_assoc, List.append_assoc] at same
    obtain ⟨start, read, left⟩ := skip_label label rfl
    obtain ⟨after, crossed, left⟩ :=
      passed (kind :: around) start _ (delimited_listed (close_eq kind) _) left
    rw [skip_rest_eq, same.trans (skip_no_blanks rfl _)]
    refine (if_pos rfl).trans ?_
    refine (congrArg (Reading.andThen · _) read).trans ?_
    rw [Reading.andThen, crossed, ih labels each left]

private theorem child_opens {label text : List Char} (form : LabelForm kind label)
    (opens : Opens text) (rest : List Char) :
    ∃ c tail, skipBlanks (label ++ (text ++ rest)) = c :: tail ∧ c ≠ kind.close := by
  cases form with
  | none =>
    obtain ⟨c, tail, opening, starts⟩ := opens
    exact ⟨c, tail ++ rest, starts rest, opening⟩
  | key front =>
    rw [List.append_assoc, skip_blanks_append front, List.cons_append, skip_no_blanks rfl]
    exact ⟨'"', _, rfl, by decide⟩

private theorem composite_passed {gap : List Char} {children : List (List Char × List Char)}
    (blank : Blanks gap) (labels : ∀ child ∈ children, LabelForm kind child.1)
    (opens : ∀ child ∈ children, Opens child.2) (each : ∀ child ∈ children, PassedOver child.2) :
    PassedOver (kind.opening :: (gap ++
      (commaSeparated (children.map fun child => child.1 ++ child.2) ++ [kind.close]))) := by
  intro around given rest _ same
  refine ⟨rest, ?_, rfl⟩
  have shown : isBlank kind.opening = false := by cases kind <;> rfl
  have opened : opened? kind.opening = some kind := by cases kind <;> rfl
  rw [skip_value_eq, same, List.cons_append, skip_no_blanks shown]
  dsimp only
  rw [opened, List.append_assoc, List.append_assoc, skip_blanks_append blank]
  dsimp only
  cases children with
  | nil =>
    have close : skipBlanks ([kind.close] ++ rest) = kind.close :: rest := by cases kind <;> rfl
    rw [List.map_nil, commaSeparated, List.nil_append, close]
    exact if_pos rfl
  | cons child children =>
    obtain ⟨label, labels⟩ := List.forall_mem_cons.mp labels
    obtain ⟨passed, each⟩ := List.forall_mem_cons.mp each
    have first : commaSeparated ((child :: children).map fun child => child.1 ++ child.2) ++
        ([kind.close] ++ rest) = child.1 ++ (child.2 ++
          (listed false (children.map fun child => child.1 ++ child.2) ++ kind.close :: rest)) := by
      rw [List.map_cons, comma_separated_cons, List.append_assoc, List.append_assoc]
      rfl
    obtain ⟨d, tail, inside, opening⟩ := child_opens label (opens child List.mem_cons_self) _
    obtain ⟨start, read, left⟩ := skip_label label (skip_blanks_append blank _)
    obtain ⟨after, crossed, left⟩ :=
      passed (kind :: around) start _ (delimited_listed (close_eq kind) _) left
    rw [first, inside]
    refine (if_neg opening).trans ?_
    rw [read, Reading.andThen, crossed, skip_children labels each left]

private theorem number_head {text : List Char} (form : NumberForm text) :
    ∃ d more, text = d :: more ∧ d.isDigit = true := by
  obtain ⟨whole, -, -⟩ := form
  rename_i digits _ _
  cases digits with
  | nil => exact absurd rfl whole.written
  | cons d more => exact ⟨d, _, rfl, whole.digits d List.mem_cons_self⟩

private theorem opens_form {text : List Char} (form : ValueForm text) : Opens text := by
  induction form with
  | null | true | false | negative | string => exact opens_cons rfl (by decide) _
  | number form =>
    obtain ⟨d, more, rfl, digit⟩ := number_head form
    refine opens_cons (digit_not_blank digit) ?_ more
    rintro rfl
    cases digit
  | @composite kind =>
    cases kind
    · exact opens_cons rfl (by decide) _
    · exact opens_cons rfl (by decide) _
  | blanks front _ back ih => exact opens_blanks front ih _

private theorem childless_passed {c : Char} {tail : List Char} (shown : isBlank c = false)
    (childless : opened? c = none)
    (read : ∀ rest, Delimited rest → skipChildless (c :: (tail ++ rest)) = .ok ((), rest)) :
    PassedOver (c :: tail) := by
  intro around given rest delimited same
  refine ⟨rest, ?_, rfl⟩
  rw [skip_value_eq, same, List.cons_append, skip_no_blanks shown]
  dsimp only
  rw [childless]
  dsimp only
  rw [read rest delimited, Reading.andThen]

private theorem passed_over {text : List Char} (form : ValueForm text) : PassedOver text := by
  induction form with
  | null | true | false => exact childless_passed rfl rfl fun _ _ => rfl
  | number form =>
    obtain ⟨d, more, rfl, digit⟩ := number_head form
    have childless : opened? d = none := by
      unfold opened?
      split
      · cases digit
      · cases digit
      · rfl
    apply childless_passed (digit_not_blank digit) childless
    intro rest delimited
    rw [skipChildless, if_pos digit]
    · exact skip_number form delimited
    all_goals
      rintro rfl
      cases digit
  | negative form =>
    exact childless_passed rfl rfl fun _ delimited => skip_number form delimited
  | string form =>
    apply childless_passed rfl rfl
    intro rest _
    rw [List.append_assoc]
    exact skip_string form rest
  | composite blank labels each ih =>
    exact composite_passed blank labels (fun child member => opens_form (each child member)) ih
  | blanks front _ back ih =>
    intro around given rest delimited same
    rw [List.append_assoc, skip_blanks_append front, List.append_assoc] at same
    obtain ⟨after, crossed, left⟩ := ih around given _ (delimited_blanks back delimited) same
    rw [skip_blanks_append back] at left
    exact ⟨after, crossed, left⟩

/-- A well-formed value is passed over, and the text after it is left up to blanks. -/
theorem skip_form {text given rest : List Char} (form : ValueForm text) (delimited : Delimited rest)
    (same : skipBlanks given = skipBlanks (text ++ rest)) :
    ∃ after, skip given = .ok ((), after) ∧ skipBlanks after = skipBlanks rest := by
  obtain ⟨after, crossed, left⟩ := passed_over form [] given rest delimited same
  refine ⟨after, ?_, left⟩
  rw [skip, crossed, skipRest]

end JsonUnpack.Json
