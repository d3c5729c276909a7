import JsonUnpack.Proofs.CompactText
import JsonUnpack.Proofs.ReferenceScopes

/-! When a statement stays on the line it is written on. Text of the document comes to a line in the
literal, in a comment, in a name and in the keys of a member expression. The first three never hold
a control character. A key is written as it is, apart from its quotes and backslashes; so a program
consists of whole lines exactly if the keys it reads have no control characters. -/
namespace JsonUnpack

open Json (Scalar Value)
open Program (rootKind)

/-- A text without control characters. -/
def Shown (text : String) : Prop := ∀ c ∈ text.toList, Json.visible c = true

/-- A line that the next one is not spliced onto. -/
def Unspliced (line : String) : Prop := line.toList.getLast? ≠ some '\\'

/-- The lines stay apart when they are rendered. -/
structure Listing.WholeLines (listing : Listing) : Prop where
  shown : ∀ line ∈ listing.lines.toList, Shown line
  unspliced : ∀ line ∈ listing.lines.toList, Unspliced line
  split : listing.render.toList.splitOn '\n' = listing.lines.toList.map String.toList

/-- The keys of the member expression are literals that a compiler accepts on one line, and reads as
these keys. -/
def Line.KeysLegal (line : Line) : Prop :=
  ∀ key, .key key ∈ line.target.steps →
    Cpp.literalBody? Json.visible (Cpp.literal key).toList.tail = some (key.toList, [])

instance (text : String) : Decidable (Shown text) :=
  decidable_of_iff (text.toList.all Json.visible = true) List.all_eq_true

instance (line : String) : Decidable (Unspliced line) :=
  inferInstanceAs (Decidable (line.toList.getLast? ≠ some '\\'))

/-! Control characters. -/

@[simp] theorem shown_append {text more : String} :
    Shown (text ++ more) ↔ Shown text ∧ Shown more := by
  simp only [Shown, String.toList_append, List.forall_mem_append]

theorem shown_plain {name : String} (plain : PlainName name) : Shown name := by
  intro c member
  rcases plain c member with alphanum | rfl
  · exact Json.visible_alphanum alphanum
  · rfl

private theorem shown_number (n : Nat) : Shown (Nat.repr n) := by
  intro c member
  rw [Nat.toList_repr] at member
  exact Json.visible_alphanum (by rw [Char.isAlphanum, digit_of_mem member, Bool.or_true])

private theorem shown_indentation (depth : Nat) : Shown (indentation depth) := by
  intro c member
  rw [indentation, String.toList_ofList] at member
  rw [List.eq_of_mem_replicate member]
  rfl

theorem shown_compact (v : Value) : Shown v.compact := by
  intro c member
  rw [Value.compact, String.toList_ofList] at member
  exact Json.visible_compact v c member

/-- Escaping adds and removes no control character. -/
theorem shown_literal {text : String} : Shown (Cpp.literal text) ↔ Shown text := by
  have escaped : ∀ c, (∀ d ∈ Cpp.escapedChar c, Json.visible d = true) ↔ Json.visible c = true := by
    intro c
    rw [Cpp.escapedChar]
    split
    · rename_i backslash
      subst backslash
      exact iff_of_true (List.all_eq_true.mp rfl) rfl
    · split
      · rename_i quote
        subst quote
        exact iff_of_true (List.all_eq_true.mp rfl) rfl
      · exact List.forall_mem_singleton
  have quote : Shown "\"" := by decide
  rw [Cpp.literal, shown_append, shown_append, and_iff_left quote, and_iff_right quote, Cpp.escape,
    Shown, String.toList_ofList, Cpp.escape_chars_eq_flatMap, Shown]
  simp only [List.forall_mem_flatMap, escaped]

private theorem shown_step (step : Step) :
    Shown step.text ↔ ∀ key, .key key = step → Shown key := by
  have opening : Shown "[" := by decide
  have closing : Shown "]" := by decide
  cases step with
  | index n =>
    have keyless : ∀ key, .key key = Step.index n → Shown key := by
      intro key same
      cases same
    rw [Step.text, shown_append, shown_append]
    exact iff_of_true ⟨⟨opening, shown_number n⟩, closing⟩ keyless
  | key k =>
    rw [Step.text, shown_append, shown_append, and_iff_left closing, and_iff_right opening,
      shown_literal]
    constructor
    · rintro shown _ same
      cases same
      exact shown
    · intro shown
      exact shown k rfl

/-- All control characters of a member expression are in its keys. -/
theorem shown_access {target : Access} (plain : PlainName target.base) :
    Shown target.text ↔ ∀ key, .key key ∈ target.steps → Shown key := by
  have steps : Shown (String.join (target.steps.map Step.text)) ↔
      ∀ step ∈ target.steps, Shown step.text := by
    simp only [Shown, String.toList_join, List.flatMap_map, List.forall_mem_flatMap]
  rw [Access.text, shown_append, and_iff_right (shown_plain plain), steps]
  constructor
  · intro shown key member
    exact (shown_step _).mp (shown _ member) key rfl
  · intro shown step member
    rw [shown_step]
    rintro key rfl
    exact shown key member

private theorem shown_type (type : DeclaredType) : Shown type.text := by
  rcases type with kind | type
  · cases kind <;> decide
  · cases type <;> decide

/-- A declaration as a program has it: its names are plain, its comment is shown, and its member
expression follows the end of a path in the document. -/
structure Line.Regular (document : Value) (line : Line) : Prop where
  name : PlainName line.name
  base : PlainName line.target.base
  comment : ∀ text, line.comment = some text → Shown text
  steps : ∃ front node, document.at? (front ++ line.target.steps) = some node

private theorem shown_line {document : Value} {line : Line} (regular : line.Regular document) :
    Shown line.text ↔ ∀ key, .key key ∈ line.target.steps → Shown key := by
  have ending : Shown (Line.ending line.comment) := by
    cases held : line.comment with
    | none => decide
    | some text => exact shown_append.mpr ⟨by decide, regular.comment text held⟩
  have blank : Shown " " := by decide
  have equals : Shown " = " := by decide
  rw [Line.text, shown_append, shown_append, shown_append, shown_append, shown_append,
    shown_access regular.base, and_iff_left ending]
  exact and_iff_right ⟨⟨⟨shown_type line.type, blank⟩, shown_plain regular.name⟩, equals⟩

/-- A literal is legal on one line if and only if its text has no control character. -/
theorem legal_literal {key : String} :
    Cpp.literalBody? Json.visible (Cpp.literal key).toList.tail = some (key.toList, []) ↔
      Shown key := by
  have spelling : (Cpp.literal key).toList.tail = Cpp.escapeChars key.toList ++ ['"'] := by
    simp [Cpp.literal, Cpp.escape]
  rw [spelling]
  constructor
  · intro scanned c member
    rcases Cpp.admitted_of_literal_body scanned c member with rfl | rfl | admitted
    · rfl
    · rfl
    · exact admitted
  · intro shown
    exact Cpp.literal_body_escaped [] fun c member => .inr (.inr (shown c member))

/-! The ends of lines. -/

private theorem unspliced_append {text more : String} (own : Unspliced more)
    (before : more = "" → Unspliced text) : Unspliced (text ++ more) := by
  rw [Unspliced, String.toList_append, List.getLast?_append]
  cases last : more.toList.getLast? with
  | none => exact before (String.toList_eq_nil_iff.mp (List.getLast?_eq_none_iff.mp last))
  | some c =>
    rw [Option.some_or, ← last]
    exact own

private theorem unspliced_ending (text : String) : Unspliced (text ++ ";") :=
  unspliced_append (by decide) nofun

private theorem unspliced_scalar (s : Scalar) : Unspliced s.compact := by
  rw [Unspliced, Scalar.compact, String.toList_ofList]
  cases s with
  | bool b => cases b <;> decide
  | number n =>
    intro last
    have number := Json.numeric_text n _ (List.mem_of_getLast? last)
    cases number
  | string s =>
    rw [Scalar.compactChars, Json.quoted, List.getLast?_concat]
    decide

/-- No statement ends with a backslash. -/
theorem unspliced_statement (s : Statement) : Unspliced s.text := by
  cases s with
  | bufferSize expression => exact unspliced_ending _
  | buffer => decide
  | document compact => exact unspliced_ending _
  | parse kind depth => exact unspliced_append (by decide) nofun
  | reference kind name target => exact unspliced_ending _
  | leaf type name target value =>
    refine unspliced_append (unspliced_scalar value) ?_
    intro _
    exact unspliced_append (by decide) nofun

/-! The lines of a program. -/

namespace Settings

variable {settings : Settings} {document : Value}

private theorem regular_line {path : List Step} {node : Value} {line : Line}
    (found : document.at? path = some node)
    (declared : settings.lineAt? document (path, node) = some line) : line.Regular document := by
  have name := Value.plain_nameAt document path
  have base := plain_target settings document path
  have steps : ∃ front node, document.at? (front ++ (settings.targetAt document path).steps) =
      some node := by
    rcases target_cases settings document path with target | ⟨front, rest, rfl, _, _, target⟩
    · exact ⟨[], node, by rw [target]; exact found⟩
    · exact ⟨front, node, by rw [target]; exact found⟩
  rcases line_at_cases declared with ⟨s, _, rfl⟩ | ⟨_, _, _, rfl⟩
  · refine ⟨name, base, ?_, steps⟩
    intro text same
    cases same
    exact shown_compact (.scalar s)
  · exact ⟨name, base, nofun, steps⟩

/-- Whatever its root is, a program declares regular lines. -/
theorem regular_lines (settings : Settings) (bufferSize : String)
    (distinct : document.KeysDistinct) :
    ∃ lines, Program.Declares settings bufferSize document lines ∧
      ∀ line ∈ lines, line.Regular document := by
  obtain ⟨lines, declares, declared⟩ := declared_lines settings bufferSize distinct
  refine ⟨lines, declares, ?_⟩
  intro line member
  obtain ⟨_, ⟨path, node⟩, reached, declaration⟩ := (declared line).mp member
  exact regular_line (at_of_mem_reached distinct reached) declaration

end Settings

namespace Program

variable {settings : Settings} {bufferSize : String} {document : Value}

private theorem shown_parse (kind : Option Json.Composite) (depth : Option Nat) :
    Shown (Statement.parse kind depth).text := by
  have type : Shown (Statement.rootType kind) := by
    rcases kind with _ | kind
    · decide
    · cases kind <;> decide
  have method : Shown (Statement.parseMethod kind) := by
    rcases kind with _ | kind
    · decide
    · cases kind <;> decide
  have arguments : Shown (Statement.parseArguments depth) := by
    cases depth with
    | none => decide
    | some depth => exact shown_append.mpr ⟨by decide, shown_number depth⟩
  change Shown (Statement.rootType kind ++ " " ++ Name.root ++ " = jsonBuffer." ++
    Statement.parseMethod kind ++ "(" ++ Statement.parseArguments depth ++ ");")
  simp only [shown_append, type, method, arguments, true_and, and_true]
  decide

private theorem shown_own (shown : Shown bufferSize) :
    ∀ s ∈ ownStatements settings bufferSize document, Shown s.text := by
  have ending : Shown ";" := by decide
  refine List.forall_mem_cons.mpr ⟨?_, List.forall_mem_cons.mpr ⟨by decide,
    List.forall_mem_cons.mpr ⟨?_, List.forall_mem_singleton.mpr (shown_parse _ _)⟩⟩⟩
  · change Shown ("const size_t bufferSize = " ++ bufferSize ++ ";")
    rw [shown_append, shown_append]
    exact ⟨⟨by decide, shown⟩, ending⟩
  · change Shown ("const char* json = " ++ Cpp.literal document.compact ++ ";")
    rw [shown_append, shown_append, shown_literal]
    exact ⟨⟨by decide, shown_compact document⟩, ending⟩

private theorem shown_lines (shown : Shown bufferSize) {lines : List Line}
    (declares : Declares settings bufferSize document lines)
    (regular : ∀ line ∈ lines, line.Regular document) :
    (∀ line ∈ (listing settings bufferSize document).lines.toList, Shown line) ↔
      ∀ line ∈ lines, line.KeysLegal := by
  have own : ∀ s ∈ ownStatements settings bufferSize document, Shown (indentation 1 ++ s.text) := by
    intro s member
    exact shown_append.mpr ⟨shown_indentation 1, shown_own shown s member⟩
  rw [forall_lines _ _ _ nofun, statements_items, List.forall_mem_append, and_iff_right own,
    ← List.forall_mem_map (P := Shown), declares.texts, List.forall_mem_map]
  refine forall₂_congr fun line member => ?_
  rw [shown_append, and_iff_right (shown_indentation 1), shown_line (regular line member)]
  exact forall₂_congr fun key _ => legal_literal.symm

private theorem unspliced_lines :
    ∀ line ∈ (listing settings bufferSize document).lines.toList, Unspliced line := by
  rw [forall_lines _ _ _ nofun]
  intro s _
  refine unspliced_append (unspliced_statement s) ?_
  intro _
  decide

private theorem split_render
    (shown : ∀ line ∈ (listing settings bufferSize document).lines.toList, Shown line) :
    (listing settings bufferSize document).render.toList.splitOn '\n' =
      (listing settings bufferSize document).lines.toList.map String.toList := by
  have single : ∀ line ∈ (listing settings bufferSize document).lines.toList.map String.toList,
      '\n' ∉ line := by
    rw [List.forall_mem_map]
    intro line member newline
    cases shown line member '\n' newline
  have written : (listing settings bufferSize document).lines.toList.map String.toList ≠ [] := by
    intro empty
    have line := literal_line settings bufferSize document
    rw [List.map_eq_nil_iff.mp empty] at line
    cases line
  rw [Listing.render, String.toList_intercalate]
  exact List.splitOn_intercalate '\n' single written

end Program

/-- A program consists of whole lines exactly if the keys that its declarations read are legal on
one line; this is so if no key of the document has a control character. No line ends with a
backslash in any case. -/
theorem whole_lines_iff_keys_legal (settings : Settings) {bufferSize : String}
    {document : Json.Document} (shown : Shown bufferSize) :
    (∀ line ∈ (Program.listing settings bufferSize document).lines.toList, Unspliced line) ∧
    ∃ lines, Program.Declares settings bufferSize document lines ∧
      ((Program.listing settings bufferSize document).WholeLines ↔
        ∀ line ∈ lines, line.KeysLegal) ∧
      (document.value.KeysAll Shown → ∀ line ∈ lines, line.KeysLegal) := by
  obtain ⟨lines, declares, regular⟩ :=
    Settings.regular_lines settings bufferSize document.distinct
  have whole := Program.shown_lines shown declares regular
  refine ⟨Program.unspliced_lines, lines, declares, ⟨?_, ?_⟩, ?_⟩
  · intro wholeLines
    exact whole.mp wholeLines.shown
  · intro legal
    have visible := whole.mpr legal
    exact ⟨visible, Program.unspliced_lines, Program.split_render visible⟩
  · intro keys line member key inside
    obtain ⟨front, node, found⟩ := (regular line member).steps
    exact legal_literal.mpr (Value.key_of_path keys found (List.mem_append_right front inside))

theorem whole_lines_iff_keys_legal_of_escaped_keys :
    (Program.listing ⟨0, 4, 10⟩ "64"
      (.object [("\"\\", .array [.ofString "\n", .null])])).WholeLines := by
  obtain ⟨_, _, _, whole, keys⟩ := @whole_lines_iff_keys_legal ⟨0, 4, 10⟩ "64"
    ⟨.object [("\"\\", .array [.ofString "\n", .null])], by simp [Value.ofString]⟩ (by decide)
  have quote : Shown "\"\\" := by decide
  exact whole.mpr (keys (by simpa [Value.KeysAll, Value.ofString] using quote))

/-- A key with a line feed splits its declaration in two. -/
theorem line_feed_in_key :
    (Value.object [("\n", .scalar (.bool true))]).KeysDistinct ∧ Shown "64" ∧
      "  bool _ = root[\"\n\"]; // true" ∈ (Program.listing .standard "64"
        (.object [("\n", .scalar (.bool true))])).lines.toList ∧
      ¬ (Program.listing .standard "64" (.object [("\n", .scalar (.bool true))])).WholeLines := by
  have written : "  bool _ = root[\"\n\"]; // true" ∈ (Program.listing .standard "64"
      (.object [("\n", .scalar (.bool true))])).lines.toList := by
    decide
  refine ⟨by simp, by decide, written, ?_⟩
  intro whole
  cases whole.shown _ written '\n' (by decide)

end JsonUnpack
