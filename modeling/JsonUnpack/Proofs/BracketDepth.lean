import JsonUnpack.Proofs.EmbeddedDocument

/-! The nesting of a document as its text shows it. A scan from left to right counts the brackets
that are open, outside of strings; on the compact text of a value it finds the depth of the tree. So
the depth that a program passes to its parse call is that of the text the call is going to parse. -/
namespace JsonUnpack

open Json (Value)
open Program (rootKind)

namespace Json

/-- Whether a scan is between strings, in a string, or in a string just after a backslash. -/
inductive ScanMode
  | outside
  | inside
  | escaped
  deriving DecidableEq

/-- How many brackets are open where a scan is, and how many have been at most. -/
structure BracketScan where
  mode : ScanMode
  current : Nat
  most : Nat
  deriving DecidableEq

/-- What one character does to a scan. -/
def BracketScan.step (scan : BracketScan) (c : Char) : BracketScan :=
  match scan.mode with
  | .outside =>
    if c = '"' then { scan with mode := .inside }
    else if c = '[' ∨ c = '\x7b' then
      { scan with current := scan.current + 1, most := max scan.most (scan.current + 1) }
    else if c = ']' ∨ c = '\x7d' then { scan with current := scan.current - 1 }
    else scan
  | .inside =>
    if c = '\\' then { scan with mode := .escaped }
    else if c = '"' then { scan with mode := .outside }
    else scan
  | .escaped => { scan with mode := .inside }

/-- The most brackets that are open at a time anywhere in a text. -/
def openBrackets (text : List Char) : Nat := (text.foldl BracketScan.step ⟨.outside, 0, 0⟩).most

/-- A text closes all brackets and strings that it opens, and has so many brackets open at most. -/
def Reaches (text : List Char) (depth : Nat) : Prop :=
  ∀ current most, current ≤ most →
    text.foldl BracketScan.step ⟨.outside, current, most⟩ =
      ⟨.outside, current, max most (current + depth)⟩

private theorem reaches_append {text more : List Char} {depth further : Nat}
    (first : Reaches text depth) (second : Reaches more further) :
    Reaches (text ++ more) (max depth further) := by
  intro current most bounded
  rw [List.foldl_append, first current most bounded, second current _ (by omega), Nat.max_assoc,
    Nat.add_max_add_left]

/-- The characters that a scan takes note of outside of strings. -/
def marks : List Char := ['"', '[', ']', '\x7b', '\x7d']

private theorem reaches_unmarked {text : List Char} (plain : ∀ c ∈ text, c ∉ marks) :
    Reaches text 0 := by
  intro current most bounded
  induction text with
  | nil => simp [bounded]
  | cons c text ih =>
    obtain ⟨first, later⟩ := List.forall_mem_cons.mp plain
    have unnoticed : BracketScan.step ⟨.outside, current, most⟩ c = ⟨.outside, current, most⟩ := by
      simp only [marks, List.mem_cons, List.not_mem_nil, or_false, not_or] at first
      simp [BracketScan.step, first]
    rw [List.foldl_cons, unnoticed, ih later]

/-! Strings hide what they hold. -/

private theorem scan_inside {text : List Char} (plain : ∀ c ∈ text, c ≠ '\\' ∧ c ≠ '"')
    (current most : Nat) : text.foldl BracketScan.step ⟨.inside, current, most⟩ =
      ⟨.inside, current, most⟩ := by
  induction text with
  | nil => rfl
  | cons c text ih =>
    obtain ⟨first, later⟩ := List.forall_mem_cons.mp plain
    have unnoticed : BracketScan.step ⟨.inside, current, most⟩ c = ⟨.inside, current, most⟩ := by
      simp [BracketScan.step, first]
    rw [List.foldl_cons, unnoticed, ih later]

private theorem scan_quoted_char (c : Char) (current most : Nat) :
    (quotedChar c).foldl BracketScan.step ⟨.inside, current, most⟩ =
      ⟨.inside, current, most⟩ := by
  unfold quotedChar
  split
  · rfl
  · rename_i unescaped
    split
    · rename_i control
      have digits : ∀ n < 0x20, ['0', '0', Nat.digitChar (n / 16), Nat.digitChar (n % 16)].all
          (fun c => c ≠ '\\' ∧ c ≠ '"') = true := by decide
      have plain := List.all_eq_true.mp (digits c.toNat control)
      exact scan_inside (fun c member => of_decide_eq_true (plain c member)) current most
    · refine scan_inside (List.forall_mem_singleton.mpr ⟨?_, ?_⟩) current most
      · rintro rfl
        cases unescaped
      · rintro rfl
        cases unescaped

private theorem reaches_quoted (text : List Char) : Reaches (quoted text) 0 := by
  intro current most bounded
  have body : (text.flatMap quotedChar).foldl BracketScan.step ⟨.inside, current, most⟩ =
      ⟨.inside, current, most⟩ := by
    induction text with
    | nil => rfl
    | cons c text ih => rw [List.flatMap_cons, List.foldl_append, scan_quoted_char, ih]
  rw [quoted, List.foldl_append, List.foldl_cons]
  change ((text.flatMap quotedChar).foldl BracketScan.step ⟨.inside, current, most⟩).step '"' = _
  rw [body, Nat.add_zero, Nat.max_eq_left bounded]
  rfl

/-! Values. -/

private theorem reaches_scalar (s : Scalar) : Reaches s.compactChars 0 := by
  cases s with
  | bool b => cases b <;> exact reaches_unmarked (by simp [Scalar.compactChars, marks])
  | number n =>
    apply reaches_unmarked
    intro c member
    rcases numeric_cases (numeric_text n c member) with digit | rfl | rfl | rfl | rfl
    · intro marked
      have undigit : ∀ mark ∈ marks, mark.isDigit = false := by simp [marks]
      rw [undigit c marked] at digit
      cases digit
    all_goals decide
  | string s => exact reaches_quoted s.toList

private theorem reaches_bracketed {text : List Char} {depth : Nat} (within : Reaches text depth)
    {opening closing : Char} (opens : opening = '[' ∨ opening = '\x7b')
    (closes : closing = ']' ∨ closing = '\x7d') :
    Reaches (opening :: text ++ [closing]) (depth + 1) := by
  intro current most bounded
  have entered : BracketScan.step ⟨.outside, current, most⟩ opening =
      ⟨.outside, current + 1, max most (current + 1)⟩ := by
    rcases opens with rfl | rfl <;> rfl
  have left : ∀ reached, BracketScan.step ⟨.outside, current + 1, reached⟩ closing =
      ⟨.outside, current, reached⟩ := by
    rcases closes with rfl | rfl <;> exact fun reached => rfl
  rw [List.cons_append, List.foldl_cons, entered, List.foldl_append,
    within _ _ (Nat.le_max_right ..), List.foldl_cons, left, List.foldl_nil]
  congr 1
  omega

private theorem reaches_separated (parts : List (List Char × Nat))
    (each : ∀ part ∈ parts, Reaches part.1 part.2) :
    Reaches (commaSeparated (parts.map Prod.fst)) ((parts.map Prod.snd).foldr max 0) := by
  have later : ∀ parts : List (List Char × Nat), (∀ part ∈ parts, Reaches part.1 part.2) →
      Reaches ((parts.map Prod.fst).flatMap fun text => ',' :: text)
        ((parts.map Prod.snd).foldr max 0) := by
    intro parts each
    induction parts with
    | nil => exact reaches_unmarked nofun
    | cons part parts ih =>
      obtain ⟨first, rest⟩ := List.forall_mem_cons.mp each
      have comma : Reaches [','] 0 := reaches_unmarked (by simp [marks])
      have led := reaches_append comma first
      rw [Nat.zero_max] at led
      exact reaches_append led (ih rest)
  cases parts with
  | nil => exact reaches_unmarked nofun
  | cons part parts =>
    obtain ⟨first, rest⟩ := List.forall_mem_cons.mp each
    rw [List.map_cons, comma_separated_cons]
    exact reaches_append first (later parts rest)

theorem Value.itemsNesting_eq (items : List Value) :
    Value.itemsNesting items = (items.map Value.nesting).foldr max 0 := by
  induction items with
  | nil => rfl
  | cons item rest ih => rw [Value.itemsNesting, ih, List.map_cons, List.foldr_cons]

theorem Value.membersNesting_eq (members : List (String × Value)) :
    Value.membersNesting members = (members.map fun member => member.2.nesting).foldr max 0 := by
  induction members with
  | nil => rfl
  | cons member rest ih => rw [Value.membersNesting, ih, List.map_cons, List.foldr_cons]

/-- The compact text of a value reaches as deep as the value is nested. -/
theorem reaches_compact (v : Value) : Reaches v.compactChars v.nesting := by
  induction v using Value.tree_induction with
  | node v ih =>
    cases v with
    | null => exact reaches_unmarked (by simp [Value.compactChars, marks])
    | scalar s => exact reaches_scalar s
    | array items =>
      have parts := reaches_separated
        (items.map fun item => (item.compactChars, item.nesting)) (by
          rw [List.forall_mem_map]
          intro item member
          obtain ⟨n, listed⟩ := Value.item_mem_children member
          exact ih _ listed)
      rw [List.map_map, List.map_map] at parts
      rw [Value.compactChars, Value.nesting, Value.itemTexts_eq_map, Value.itemsNesting_eq]
      exact reaches_bracketed parts (.inl rfl) (.inl rfl)
    | object members =>
      have parts := reaches_separated (members.map fun member =>
        (quoted member.1.toList ++ ':' :: member.2.compactChars, member.2.nesting)) (by
          rw [List.forall_mem_map]
          intro member inside
          have colon : Reaches [':'] 0 := reaches_unmarked (by simp [marks])
          have value := reaches_append colon (ih _ (Value.member_mem_children inside))
          rw [Nat.zero_max] at value
          have whole := reaches_append (reaches_quoted member.1.toList) value
          rwa [Nat.zero_max] at whole)
      rw [List.map_map, List.map_map] at parts
      rw [Value.compactChars, Value.nesting, Value.memberTexts_eq_map, Value.membersNesting_eq]
      exact reaches_bracketed parts (.inr rfl) (.inr rfl)

/-- The most brackets open at a time in the compact text are as many as the value is nested deep. -/
theorem openBrackets_compact (v : Value) : openBrackets v.compactChars = v.nesting := by
  rw [openBrackets, reaches_compact v 0 0 (Nat.le_refl 0), Nat.zero_add, Nat.zero_max]

end Json

/-- The text that the literal of a program holds has exactly as many brackets open at a time as the
document is nested deep. The program passes this number to its parse call if it is above the
threshold, and nothing but the text otherwise, whatever the kind of the document. -/
theorem parse_call_announces_depth (settings : Settings) (bufferSize : String) (document : Value) :
    ∃ literal decoded,
      (Program.listing settings bufferSize document).lines.toList[3]? =
        some ("  const char* json = \"" ++ literal) ∧
      Cpp.literalBody? Json.visible literal.toList = some (decoded, [';']) ∧
      Json.openBrackets decoded = document.nesting ∧
      (Program.listing settings bufferSize document).lines.toList[5]? =
        some ("  " ++ Statement.rootType (rootKind document) ++ " root = jsonBuffer." ++
          Statement.parseMethod (rootKind document) ++ "(" ++
          (if settings.nestingHintThreshold.toNat < Json.openBrackets decoded then
            "json, " ++ Nat.repr (Json.openBrackets decoded)
          else "json") ++ ");") := by
  obtain ⟨literal, line, decodes⟩ := literal_decodes settings bufferSize document
  refine ⟨literal, document.compactChars, line, decodes, Json.openBrackets_compact document, ?_⟩
  have arguments : Statement.parseArguments (Program.depthHint settings document) =
      if settings.nestingHintThreshold.toNat < document.nesting then
        "json, " ++ Nat.repr document.nesting
      else "json" := by
    rw [Program.depthHint]
    split <;> rfl
  rw [Program.parse_line, Json.openBrackets_compact, ← arguments, Option.some_inj]
  change "  " ++ (Statement.rootType (rootKind document) ++ " " ++ Name.root ++ " = jsonBuffer." ++
    Statement.parseMethod (rootKind document) ++ "(" ++
    Statement.parseArguments (Program.depthHint settings document) ++ ");") = _
  rw [← String.toList_inj]
  simp [Name.root]

end JsonUnpack
