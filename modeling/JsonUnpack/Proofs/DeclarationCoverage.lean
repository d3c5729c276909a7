import JsonUnpack.Proofs.PlacedVisits

/-! What a program declares: the scalars of the document that are reached and the arrays and objects
among the reached nodes that get a variable. Each has one line, in document order, and there is no
other line. -/
namespace JsonUnpack

open Json (Value)
open Program (rootKind)

namespace Settings

variable (settings : Settings) (document : Value)

/-- The nodes with no step above them that does not lead on, in document order. -/
def reachedNodes : List (List Step × Value) :=
  (document.nodes []).filter fun node => settings.reached document node.1

/-- The statement that declares a node of the document, if there is one. Null has none, and an array
or object has one where it gets a variable. -/
def statementAt? (node : List Step × Value) : Option Statement :=
  let name := document.nameAt node.1
  let target := settings.targetAt document node.1
  match node.2 with
  | .null => none
  | .scalar s => some (.leaf (.ofScalar s) name target s)
  | .array _ =>
    if settings.named document node.1 then some (.reference .array name target) else none
  | .object _ =>
    if settings.named document node.1 then some (.reference .object name target) else none

variable {settings document}

private theorem statement_placed (composite : (rootKind document).isSome)
    {node : List Step × Value} (found : document.at? node.1 = some node.2) :
    settings.statement? ⟨settings.placeAt document node.1, node.1, node.2⟩ =
      settings.statementAt? document node := by
  obtain ⟨path, v⟩ := node
  have names := names_placeAt settings composite found
  cases v with
  | null => exact statement_null _ _
  | scalar s => rfl
  | array items =>
    rw [statement_composite rfl, names]
    rfl
  | object members =>
    rw [statement_composite rfl, names]
    rfl

private theorem body_eq_declarations (composite : (rootKind document).isSome) :
    Program.body settings document =
      declarations settings (settings.placeAt document []) document := by
  cases document with
  | null | scalar => cases composite
  | array | object => rfl

/-- The body of a program declares the reached nodes that have a statement, in document order. -/
theorem statements_body (settings : Settings) (composite : (rootKind document).isSome)
    (distinct : document.KeysDistinct) :
    statements (Program.body settings document) =
      (settings.reachedNodes document).filterMap (settings.statementAt? document) := by
  rw [body_eq_declarations composite, statements_declarations document _ [],
    visits_placed composite distinct rfl rfl, List.filterMap_map]
  apply List.filterMap_congr
  intro node member
  exact statement_placed composite (Value.at?_of_mem_nodes distinct (List.mem_of_mem_filter member))

end Settings

/-- Nothing is lost and nothing is declared twice. After the line that parses the document, the
lines that are not empty are those of the reached arrays and objects with a variable and of the
reached scalars, one for each, in document order. -/
theorem declaration_lines (settings : Settings) (bufferSize : String) {document : Json.Document}
    (composite : (rootKind document).isSome) :
    (Program.linesAfterParse settings bufferSize document).filter (· ≠ "") =
      (settings.reachedNodes document).filterMap fun node =>
        (settings.statementAt? document node).map fun s => indentation 1 ++ s.text := by
  rw [Program.nonempty_lines, Settings.statements_body settings composite document.distinct,
    List.map_filterMap]

theorem declaration_lines_of_array_in_object :
    (Program.linesAfterParse ⟨1, 2, 10⟩ "64" (.object
      [("a", .array [.scalar (.bool true), .null, .scalar (.string "")])])).filter (· ≠ "") =
      ["  JsonArray& a = root[\"a\"];", "  bool a0 = a[0]; // true"] := by
  have lines := @declaration_lines ⟨1, 2, 10⟩ "64" ⟨.object
    [("a", .array [.scalar (.bool true), .null, .scalar (.string "")])], by simp⟩ rfl
  rw [lines, Settings.reachedNodes]
  simp
  rfl

end JsonUnpack
