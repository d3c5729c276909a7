import JsonUnpack.Proofs.NodePaths

/-! The characters of a compact text. There is no control character among them: strings escape
theirs, and everything else is written with digits, letters and punctuation. -/
namespace JsonUnpack.Json

/-- Whether a character may stand in a string literal as it is, as far as control characters go. -/
def visible (c : Char) : Bool := 0x20 ≤ c.toNat

theorem Value.itemTexts_eq_map (items : List Value) : itemTexts items = items.map compactChars := by
  induction items with
  | nil => rfl
  | cons item rest ih => rw [itemTexts, ih, List.map_cons]

theorem Value.memberTexts_eq_map (members : List (String × Value)) :
    memberTexts members =
      members.map fun member => quoted member.1.toList ++ ':' :: member.2.compactChars := by
  induction members with
  | nil => rfl
  | cons member rest ih => rw [memberTexts, ih, List.map_cons]

/-- After the first part, each part comes with the comma before it. -/
theorem comma_separated_cons (part : List Char) (parts : List (List Char)) :
    commaSeparated (part :: parts) = part ++ parts.flatMap fun later => ',' :: later := by
  induction parts generalizing part with
  | nil => exact (List.append_nil part).symm
  | cons next parts ih =>
    rw [commaSeparated, ih, List.flatMap_cons, List.cons_append]
    exact List.cons_ne_nil _ _

private theorem visible_comma_separated {parts : List (List Char)}
    (each : ∀ part ∈ parts, ∀ c ∈ part, visible c = true) :
    ∀ c ∈ commaSeparated parts, visible c = true := by
  cases parts with
  | nil => exact nofun
  | cons part parts =>
    rw [comma_separated_cons, List.forall_mem_append]
    refine ⟨each part List.mem_cons_self, ?_⟩
    intro c member
    obtain ⟨later, inside, inPart⟩ := List.mem_flatMap.mp member
    rcases List.mem_cons.mp inPart with rfl | inPart
    · rfl
    · exact each later (List.mem_cons_of_mem part inside) c inPart

private theorem visible_quoted_char (c : Char) : ∀ d ∈ quotedChar c, visible d = true := by
  unfold quotedChar
  split
  · rename_i letter escaped
    have shown : visible letter = true := by
      unfold escapeLetter? at escaped
      split at escaped <;> cases escaped <;> rfl
    intro d member
    rcases List.mem_cons.mp member with rfl | same
    · rfl
    · exact List.mem_singleton.mp same ▸ shown
  · split
    · rename_i control
      have hexadecimal : ∀ n < 0x20, ['\\', 'u', '0', '0', Nat.digitChar (n / 16),
          Nat.digitChar (n % 16)].all visible = true := by decide
      exact List.all_eq_true.mp (hexadecimal c.toNat control)
    · rename_i plain
      intro d member
      exact List.mem_singleton.mp member ▸ decide_eq_true (Nat.le_of_not_lt plain)

private theorem visible_quoted (text : List Char) : ∀ c ∈ quoted text, visible c = true := by
  intro c member
  rcases List.mem_cons.mp member with rfl | member
  · rfl
  · rcases List.mem_append.mp member with inText | quote
    · obtain ⟨d, _, inside⟩ := List.mem_flatMap.mp inText
      exact visible_quoted_char d c inside
    · cases List.mem_singleton.mp quote
      rfl

/-- Whether a character is one that numbers are written with. -/
def numeric (c : Char) : Bool := c.isDigit || ['-', '+', '.', 'e'].contains c

theorem numeric_cases {c : Char} (number : numeric c = true) :
    c.isDigit = true ∨ c = '-' ∨ c = '+' ∨ c = '.' ∨ c = 'e' := by
  simpa [numeric] using number

theorem visible_alphanum {c : Char} (alphanum : c.isAlphanum = true) : visible c = true := by
  rcases (Bool.or_eq_true c.isAlpha c.isDigit).mp alphanum with letter | digit
  · rcases (Bool.or_eq_true c.isUpper c.isLower).mp letter with upper | lower
    · exact decide_eq_true (Nat.le_trans (by decide) (of_decide_eq_true upper).1)
    · have bounds := (Bool.and_eq_true (decide (c.val ≥ 'a'.val)) _).mp lower
      exact decide_eq_true (Nat.le_trans (by decide) (of_decide_eq_true bounds.1))
  · exact decide_eq_true (Nat.le_trans (by decide) (Char.isDigit_iff_toNat.mp digit).1)

private theorem visible_numeric {c : Char} (number : numeric c = true) : visible c = true := by
  rcases numeric_cases number with digit | rfl | rfl | rfl | rfl
  · exact visible_alphanum (by rw [Char.isAlphanum, digit, Bool.or_true])
  · rfl
  · rfl
  · rfl
  · rfl

private theorem numeric_digits (n : Nat) : ∀ c ∈ decimalDigits n, numeric c = true := by
  intro c member
  rw [numeric, digit_of_mem member, Bool.true_or]

private theorem numeric_integer (n : Int) : ∀ c ∈ integerText n, numeric c = true := by
  cases n with
  | ofNat n => exact numeric_digits n
  | negSucc n => exact List.forall_mem_cons.mpr ⟨rfl, numeric_digits (n + 1)⟩

private theorem numeric_shortest (x : Magnitude) : ∀ c ∈ x.shortest.digits, numeric c = true := by
  intro c member
  rw [Magnitude.shortest, Magnitude.decimalAt] at member
  exact numeric_digits _ c
    (List.mem_reverse.mp ((List.dropWhile_sublist _).subset (List.mem_reverse.mp member)))

private theorem numeric_decimal {d : Decimal} (digits : ∀ c ∈ d.digits, numeric c = true) :
    ∀ c ∈ decimalText d, numeric c = true := by
  have zeros : ∀ n, ∀ c ∈ List.replicate n '0', numeric c = true := by
    intro n c member
    rw [List.eq_of_mem_replicate member]
    rfl
  unfold decimalText
  split
  · simp only [List.cons_append, List.forall_mem_cons, List.forall_mem_append]
    exact ⟨rfl, rfl, zeros _, digits⟩
  · split
    · dsimp only
      split
      · simp only [List.forall_mem_cons, List.forall_mem_append]
        exact ⟨⟨digits, zeros _⟩, rfl, rfl, nofun⟩
      · simp only [List.forall_mem_cons, List.forall_mem_append]
        exact ⟨fun c member => digits c (List.mem_of_mem_take member), rfl,
          fun c member => digits c (List.mem_of_mem_drop member)⟩
    · have sign : numeric (if d.lead < 0 then '-' else '+') = true := by
        split <;> rfl
      have exponent := numeric_digits d.lead.natAbs
      dsimp only
      split
      · rename_i first second rest written
        rw [written, List.forall_mem_cons, List.forall_mem_cons] at digits
        simp only [List.cons_append, List.forall_mem_cons, List.forall_mem_append]
        exact ⟨digits.1, rfl, digits.2.1, digits.2.2, rfl, sign, exponent⟩
      · simp only [List.forall_mem_cons, List.forall_mem_append]
        exact ⟨digits, rfl, sign, exponent⟩

private theorem numeric_float (x : Binary64) : ∀ c ∈ floatText x, numeric c = true := by
  have unsigned : ∀ c ∈ (if x.magnitude = .zero then ['0', '.', '0']
      else decimalText x.magnitude.shortest), numeric c = true := by
    split
    · exact List.all_eq_true.mp rfl
    · exact numeric_decimal (numeric_shortest x.magnitude)
  unfold floatText
  dsimp only
  split
  · exact List.forall_mem_cons.mpr ⟨rfl, unsigned⟩
  · exact unsigned

/-- A number is written with digits, signs, a point and the letter of an exponent. -/
theorem numeric_text (n : Number) : ∀ c ∈ n.text, numeric c = true := by
  cases n with
  | whole n => exact numeric_integer n.val
  | float x => exact numeric_float x

/-- A compact text has no control characters. -/
theorem visible_compact (v : Value) : ∀ c ∈ v.compactChars, visible c = true := by
  induction v using Value.tree_induction with
  | node v ih =>
    cases v with
    | null => exact List.all_eq_true.mp rfl
    | scalar s =>
      rw [Value.compactChars]
      cases s with
      | bool b => cases b <;> exact List.all_eq_true.mp rfl
      | number n => exact fun c member => visible_numeric (numeric_text n c member)
      | string s => exact visible_quoted s.toList
    | array items =>
      rw [Value.compactChars, Value.itemTexts_eq_map, List.cons_append, List.forall_mem_cons,
        List.forall_mem_append]
      refine ⟨rfl, visible_comma_separated ?_, List.forall_mem_singleton.mpr rfl⟩
      rw [List.forall_mem_map]
      intro item member
      obtain ⟨n, listed⟩ := Value.item_mem_children member
      exact ih _ listed
    | object members =>
      rw [Value.compactChars, Value.memberTexts_eq_map, List.cons_append, List.forall_mem_cons,
        List.forall_mem_append]
      refine ⟨rfl, visible_comma_separated ?_, List.forall_mem_singleton.mpr rfl⟩
      rw [List.forall_mem_map]
      intro member inside
      rw [List.forall_mem_append, List.forall_mem_cons]
      exact ⟨visible_quoted member.1.toList, rfl, ih _ (Value.member_mem_children inside)⟩

end JsonUnpack.Json
