import JsonUnpack.Program
import JsonUnpack.Proofs.LineReading
import JsonUnpack.Proofs.ListingEdits

/-! The lines of a program. The preamble takes the same lines for every document, and what follows
the line that parses the document is one line for each declaration, set off by empty ones. -/
namespace JsonUnpack

open Json (Composite Value)

/-- The statements among the items of a program. -/
def statements (items : List Item) : List Statement :=
  items.filterMap fun
    | .blank => none
    | .statement s => some s

@[simp] theorem statements_blank (items : List Item) :
    statements (.blank :: items) = statements items := rfl

theorem statements_append (items more : List Item) :
    statements (items ++ more) = statements items ++ statements more :=
  List.filterMap_append

namespace Listing

private theorem written_texts (depth : Nat) (clear : Bool) (items : List Item) :
    ((lineTexts clear items).map (lineAt depth)).filter (· ≠ "") =
      (statements items).map fun s => indentation depth ++ s.text := by
  fun_induction lineTexts clear items with
  | case1 => rfl
  | case2 rest ih => exact ih
  | case3 rest ih => exact ih
  | case4 clear s rest ih =>
    have visible : indentation depth ++ s.text ≠ "" := fun empty =>
      s.text_ne_empty (String.append_eq_empty_iff.mp empty).2
    rw [List.map_cons, lineAt_statement, List.filter_cons, if_pos (decide_eq_true visible), ih]
    rfl

/-- An empty line stays out of what is read, so only the statements count. -/
theorem lines_of_items (items : List Item) (listing : Listing) :
    ∃ added, (listing.addAll items).lines.toList = listing.lines.toList ++ added ∧
      added.filter (· ≠ "") =
        (statements items).map fun s => indentation listing.depth ++ s.text := by
  refine ⟨(lineTexts listing.clear items).map (lineAt listing.depth), ?_, written_texts _ _ _⟩
  rw [addAll_eq]
  exact Array.toList_appendList

end Listing

namespace Program

variable (settings : Settings) (bufferSize : String) (document : Value)

/-- The line that parses the document. -/
def parseLine : String :=
  indentation 1 ++ (Statement.parse (rootKind document) (depthHint settings document)).text

/-- The lines of a program after the one that parses the document. A line is what is written as one:
a line break inside a key stays inside the line. -/
def linesAfterParse : List String :=
  ((listing settings bufferSize document).lines.toList.dropWhile
    (· ≠ parseLine settings document)).tail

/-- The declarations that a reader of the program sees after the parse line, when nothing is written
there in another way. -/
structure Declares (lines : List Line) : Prop where
  read : Line.readAll? (linesAfterParse settings bufferSize document) = some lines
  written : (linesAfterParse settings bufferSize document).filter (· ≠ "") =
    lines.map fun line => indentation 1 ++ line.text

private theorem preamble_lines : Listing.empty.addAll (preamble settings bufferSize document) =
    ⟨#[indentation 1 ++ (Statement.bufferSize bufferSize).text,
      indentation 1 ++ Statement.buffer.text, "",
      indentation 1 ++ (Statement.document document.compact).text, "",
      parseLine settings document], 1⟩ := by
  simp [Listing.addAll_eq, preamble, Listing.lineTexts, parseLine, Listing.empty]

private theorem parse_text_head (kind : Option Composite) (depth : Option Nat) :
    (Statement.parse kind depth).text.toList.head? = some 'J' := by
  change (Statement.rootType kind ++ " " ++ Name.root ++ " = jsonBuffer." ++
    Statement.parseMethod kind ++ "(" ++ Statement.parseArguments depth ++ ");").toList.head? = _
  rcases kind with _ | kind
  · simp [Statement.rootType]
  · cases kind <;> simp [Statement.rootType, referenceType]

private theorem ne_parse_line {text : String} (head : text.toList.head? ≠ some 'J') :
    indentation 1 ++ text ≠ parseLine settings document := by
  intro same
  have chars := congrArg (fun line => (line.toList.drop 2).head?) same
  simp only [parseLine, indentation, String.toList_append, String.toList_ofList] at chars
  exact head (chars.trans (parse_text_head _ _))

/-- A program consists of the lines of its preamble, the last of which parses the document, and one
line for each statement of its body, apart from empty ones. -/
theorem listing_lines : ∃ added, (listing settings bufferSize document).lines.toList =
    (Listing.empty.addAll (preamble settings bufferSize document)).lines.toList ++ added ∧
    added.filter (· ≠ "") =
      (statements (body settings document)).map fun s => indentation 1 ++ s.text := by
  obtain ⟨added, lines, kept⟩ := Listing.lines_of_items (body settings document)
    (Listing.empty.addAll (preamble settings bufferSize document))
  refine ⟨added, ?_, ?_⟩
  · rw [← lines, listing, items, Listing.addAll, List.foldl_append]
    rfl
  · rw [kept, preamble_lines]

private theorem lines_after_parse (added : List String)
    (lines : (listing settings bufferSize document).lines.toList =
      (Listing.empty.addAll (preamble settings bufferSize document)).lines.toList ++ added) :
    linesAfterParse settings bufferSize document = added := by
  have first : indentation 1 ++ (Statement.bufferSize bufferSize).text ≠
      parseLine settings document :=
    ne_parse_line settings document (by
      change ("const size_t bufferSize = " ++ bufferSize ++ ";").toList.head? ≠ _
      simp)
  have second : indentation 1 ++ Statement.buffer.text ≠ parseLine settings document :=
    ne_parse_line settings document (by decide)
  have empty : "" ≠ parseLine settings document := by
    intro same
    have chars := congrArg String.toList same
    simp [parseLine, indentation] at chars
  have fourth : indentation 1 ++ (Statement.document document.compact).text ≠
      parseLine settings document :=
    ne_parse_line settings document (by
      change ("const char* json = " ++ Cpp.literal document.compact ++ ";").toList.head? ≠ _
      simp)
  rw [linesAfterParse, lines, preamble_lines]
  simp [first, second, empty, fourth]

/-- The statements of a program before those of its body. -/
def ownStatements : List Statement :=
  [.bufferSize bufferSize, .buffer, .document document.compact,
    .parse (rootKind document) (depthHint settings document)]

theorem statements_items : statements (items settings bufferSize document) =
    ownStatements settings bufferSize document ++ statements (body settings document) := by
  rw [items, statements_append]
  rfl

/-- Apart from empty lines, a program has one line for each of its statements. -/
theorem written_lines : (listing settings bufferSize document).lines.toList.filter (· ≠ "") =
    (statements (items settings bufferSize document)).map fun s => indentation 1 ++ s.text := by
  obtain ⟨added, lines, kept⟩ := Listing.lines_of_items (items settings bufferSize document)
    Listing.empty
  rw [listing, lines]
  exact kept

/-- Apart from empty lines, a program goes on after the parse line with one line for each statement
of its body. -/
theorem nonempty_lines : (linesAfterParse settings bufferSize document).filter (· ≠ "") =
    (statements (body settings document)).map fun s => indentation 1 ++ s.text := by
  obtain ⟨added, lines, kept⟩ := listing_lines settings bufferSize document
  rw [lines_after_parse settings bufferSize document added lines, kept]

/-- What holds of empty lines and of the lines of all statements holds of every line. -/
theorem forall_lines {p : String → Prop} (empty : p "") :
    (∀ line ∈ (listing settings bufferSize document).lines.toList, p line) ↔
      ∀ s ∈ statements (items settings bufferSize document), p (indentation 1 ++ s.text) := by
  have kept : (∀ line ∈ (listing settings bufferSize document).lines.toList, p line) ↔
      ∀ line ∈ (listing settings bufferSize document).lines.toList.filter (· ≠ ""), p line := by
    constructor
    · intro each line member
      exact each line (List.mem_filter.mp member).1
    · intro each line member
      by_cases blank : line = ""
      · rw [blank]
        exact empty
      · exact each line (List.mem_filter.mpr ⟨member, decide_eq_true blank⟩)
  rw [kept, written_lines, List.forall_mem_map]

/-- The lines that a program declares are written as the statements of its body. -/
theorem Declares.texts {settings : Settings} {bufferSize : String} {document : Value}
    {lines : List Line} (declares : Declares settings bufferSize document lines) :
    ((statements (body settings document)).map fun s => indentation 1 ++ s.text) =
      lines.map fun line => indentation 1 ++ line.text :=
  (nonempty_lines settings bufferSize document).symm.trans declares.written

/-- The literal of the document is on the fourth line, after the buffer and an empty line. -/
theorem literal_line : (listing settings bufferSize document).lines.toList[3]? =
    some (indentation 1 ++ (Statement.document document.compact).text) := by
  obtain ⟨added, lines, _⟩ := listing_lines settings bufferSize document
  rw [lines, preamble_lines]
  rfl

/-- The call that parses the document is on the sixth line. -/
theorem parse_line : (listing settings bufferSize document).lines.toList[5]? =
    some (parseLine settings document) := by
  obtain ⟨added, lines, _⟩ := listing_lines settings bufferSize document
  rw [lines, preamble_lines]
  rfl

/-- If all statements of the body are declarations, the lines after the parse line are written as a
reader of the program sees them. -/
theorem lines_of_body (declared : ∀ s ∈ statements (body settings document),
      ∃ line, s.line? = some line) :
    (linesAfterParse settings bufferSize document).filter (· ≠ "") =
      ((statements (body settings document)).filterMap Statement.line?).map fun line =>
        indentation 1 ++ line.text := by
  rw [nonempty_lines]
  generalize statements (body settings document) = all at declared
  induction all with
  | nil => rfl
  | cons s all ih =>
    obtain ⟨line, declares⟩ := declared s List.mem_cons_self
    rw [List.map_cons, List.filterMap_cons_some declares, List.map_cons, text_of_line declares,
      ih fun other member => declared other (List.mem_cons_of_mem _ member)]

end Program

/-- Lines that declare plain names and start from plain names are read back. -/
theorem read_lines {lines : List Line}
    (plain : ∀ line ∈ lines, PlainName line.name ∧ PlainName line.target.base) :
    (lines.map fun line => indentation 1 ++ line.text).mapM Line.read? = some lines := by
  induction lines with
  | nil => rfl
  | cons line lines ih =>
    obtain ⟨plainName, plainBase⟩ := plain line List.mem_cons_self
    rw [List.map_cons, List.mapM_cons, read_line 1 plainName plainBase,
      ih fun other member => plain other (List.mem_cons_of_mem _ member)]
    rfl

end JsonUnpack
