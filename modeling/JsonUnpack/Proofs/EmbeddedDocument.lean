import JsonUnpack.Proofs.DocumentReading
import JsonUnpack.Proofs.ProgramLines

/-! The document inside its program. The literal that the program parses again at run time holds the
compact text of the document, and that text is the document, as long as no floating-point number has
to be rounded on the way. -/
namespace JsonUnpack

open Json (Value)

private theorem literal_line_text (compact : String) :
    indentation 1 ++ (Statement.document compact).text =
      "  const char* json = \"" ++
        String.ofList (Cpp.escapeChars compact.toList ++ ['"', ';']) := by
  change indentation 1 ++ ("const char* json = " ++ Cpp.literal compact ++ ";") = _
  rw [← String.toList_inj]
  simp [indentation, Cpp.literal, Cpp.escape]

/-- The literal of a program is read as the compact text of the document. -/
theorem literal_decodes (settings : Settings) (bufferSize : String) (document : Value) :
    ∃ literal,
      (Program.listing settings bufferSize document).lines.toList[3]? =
        some ("  const char* json = \"" ++ literal) ∧
      Cpp.literalBody? Json.visible literal.toList = some (document.compactChars, [';']) := by
  refine ⟨.ofList (Cpp.escapeChars document.compactChars ++ ['"', ';']), ?_, ?_⟩
  · rw [Program.literal_line, literal_line_text, Value.compact, String.toList_ofList]
  · rw [String.toList_ofList]
    exact Cpp.literal_body_escaped [';'] fun c member =>
      .inr (.inr (Json.visible_compact document c member))

/-- The literal of a program ends just before the last semicolon of its line and holds the compact
text of the document. Reading that text gives the document again, if there is no floating-point
number in it: for as long as reading it is possible at all, which is as long as no more than so many
brackets are open at a time. -/
theorem embedded_document (settings : Settings) (bufferSize : String) (document : Value) :
    ∃ literal decoded,
      (Program.listing settings bufferSize document).lines.toList[3]? =
        some ("  const char* json = \"" ++ literal) ∧
      Cpp.literalBody? Json.visible literal.toList = some (decoded, [';']) ∧
      String.ofList decoded = document.compact ∧
      ∀ distinct : document.KeysDistinct, document.Floatless →
        (document.nesting ≤ 127 → Json.read (.ofList decoded) = .ok ⟨document, distinct⟩) ∧
        (128 ≤ document.nesting → ∃ fault, Json.read (.ofList decoded) = .error fault ∧
          generate settings bufferSize (.ofList decoded) = .error fault ∧
          fault.cause = .nestedTooDeep) := by
  obtain ⟨literal, line, scanned⟩ := literal_decodes settings bufferSize document
  refine ⟨literal, document.compactChars, line, scanned, rfl, ?_⟩
  intro distinct floatless
  refine ⟨@Json.read_compact ⟨document, distinct⟩ floatless, ?_⟩
  intro deep
  obtain ⟨fault, failed, cause⟩ := Json.read_compact_deep floatless deep
  have refused : generate settings bufferSize document.compact = .error fault := by
    rw [generate, failed]
    rfl
  exact ⟨fault, failed, refused, cause⟩

theorem embedded_document_shallow_and_deep :
    (∃ literal decoded,
      (Program.listing .standard "64"
        (.object [("\"\\", .array [.ofString "\n", .null])])).lines.toList[3]? =
        some ("  const char* json = \"" ++ literal) ∧
      Cpp.literalBody? Json.visible literal.toList = some (decoded, [';']) ∧
      Json.read (.ofList decoded) =
        .ok ⟨.object [("\"\\", .array [.ofString "\n", .null])], by simp [Value.ofString]⟩) ∧
    ∃ fault, generate .standard "64" (Nat.repeat (fun v => Value.array [v]) 128 .null).compact =
      .error fault := by
  constructor
  · obtain ⟨literal, decoded, line, scanned, _, reads⟩ := embedded_document .standard "64"
      (.object [("\"\\", .array [.ofString "\n", .null])])
    exact ⟨literal, decoded, line, scanned,
      (reads _ (by simp [Value.Floatless, Value.ofString])).1 (by decide)⟩
  · have distinct : ∀ n, (Nat.repeat (fun v => Value.array [v]) n .null).KeysDistinct := by
      intro n
      induction n with
      | zero => exact .null
      | succ n ih => exact .array (List.forall_mem_singleton.mpr ih)
    have floatless : ∀ n, (Nat.repeat (fun v => Value.array [v]) n .null).Floatless := by
      intro n
      induction n with
      | zero => exact Value.every_null.mpr trivial
      | succ n ih => exact Value.every_array.mpr ⟨trivial, List.forall_mem_singleton.mpr ih⟩
    have nesting : ∀ n, (Nat.repeat (fun v => Value.array [v]) n .null).nesting = n := by
      intro n
      induction n with
      | zero => rfl
      | succ n ih => simp [Nat.repeat, Value.nesting, Value.itemsNesting, ih]
    obtain ⟨literal, decoded, _, _, text, reads⟩ := embedded_document .standard "64"
      (Nat.repeat (fun v => Value.array [v]) 128 .null)
    obtain ⟨fault, _, failed, _⟩ :=
      (reads (distinct 128) (floatless 128)).2 (Nat.le_of_eq (nesting 128).symm)
    rw [text] at failed
    exact ⟨fault, failed⟩

end JsonUnpack
