import JsonUnpack.Program

/-! What can be done to a listing, and what it does to the lines: lines are only added, after those
that are there, and whether an empty line is added depends on the last of them alone. So
declarations are laid out in one way wherever they are added. -/
namespace JsonUnpack

open Json (Value)

theorem Statement.text_ne_empty (s : Statement) : s.text ≠ "" := by
  have started : ∀ {front last : String}, front ≠ "" → front ++ last ≠ "" := by
    intro front last held empty
    exact held (String.append_eq_empty_iff.mp empty).1
  have ended : ∀ {front last : String}, last ≠ "" → front ++ last ≠ "" := by
    intro front last held empty
    exact held (String.append_eq_empty_iff.mp empty).2
  have semicolon : ";" ≠ "" := by decide
  cases s with
  | bufferSize expression => exact ended semicolon
  | buffer => decide
  | document compact => exact ended semicolon
  | parse kind depth => exact ended (by decide : ");" ≠ "")
  | reference kind name target => exact ended semicolon
  | leaf type name target value => exact started (ended (by decide : "; // " ≠ ""))

namespace Listing

variable {listing : Listing}

/-- Whether an empty line would not be added: there is no line above it, or an empty one. -/
def clear (listing : Listing) : Bool := listing.lines.back?.all (· = "")

theorem blank_of_clear (above : listing.clear = true) : listing.blank = listing := by
  unfold clear at above
  unfold blank
  cases last : listing.lines.back? with
  | none => rfl
  | some text =>
    rw [last] at above
    exact if_pos (of_decide_eq_true above)

theorem blank_of_not_clear (above : listing.clear = false) :
    listing.blank = ⟨listing.lines.push "", listing.depth⟩ := by
  unfold clear at above
  unfold blank
  cases last : listing.lines.back? with
  | none =>
    rw [last] at above
    cases above
  | some text =>
    rw [last] at above
    exact if_neg (of_decide_eq_false above)

/-- Once an empty line was asked for, another one is not added. -/
theorem clear_blank : listing.blank.clear = true := by
  cases above : listing.clear with
  | true => rw [blank_of_clear above, above]
  | false => simp [blank_of_not_clear above, clear]

theorem clear_line {text : String} (visible : text ≠ "") : (listing.line text).clear = false := by
  simp [line, clear, visible]

/-- The texts of the lines that items add, before they are indented. At the start the flag tells
whether an empty line would not be added, and from there on the item before does. -/
def lineTexts : (clear : Bool) → List Item → List String
  | _, [] => []
  | true, .blank :: rest => lineTexts true rest
  | false, .blank :: rest => "" :: lineTexts true rest
  | _, .statement s :: rest => s.text :: lineTexts false rest

/-- The line with a text at a depth. An empty line has nothing in it, not even an indentation. -/
def lineAt (depth : Nat) (text : String) : String :=
  if text = "" then "" else indentation depth ++ text

@[simp] theorem lineAt_empty (depth : Nat) : lineAt depth "" = "" := rfl

@[simp] theorem lineAt_statement (depth : Nat) (s : Statement) :
    lineAt depth s.text = indentation depth ++ s.text :=
  if_neg s.text_ne_empty

/-- Items only add lines. Which lines they add depends on those above through one bit. -/
theorem addAll_eq (items : List Item) (listing : Listing) :
    listing.addAll items =
      ⟨listing.lines ++ (lineTexts listing.clear items).map (lineAt listing.depth),
        listing.depth⟩ := by
  induction items generalizing listing with
  | nil => simp [addAll, lineTexts]
  | cons item items ih =>
    cases item with
    | blank =>
      have step : listing.addAll (.blank :: items) = listing.blank.addAll items := rfl
      cases above : listing.clear with
      | true => rw [step, blank_of_clear above, ih, above, lineTexts]
      | false =>
        rw [step, ih, clear_blank, blank_of_not_clear above, lineTexts]
        simp
    | statement s =>
      have step : listing.addAll (.statement s :: items) = (listing.line s.text).addAll items := rfl
      rw [step, ih, clear_line s.text_ne_empty, lineTexts]
      simp [line]

theorem not_clear_iff : listing.clear = false ↔ ∃ last ∈ listing.lines.back?, last ≠ "" := by
  unfold clear
  cases listing.lines.back? <;> simp

end Listing

/-- What can be done to a listing. Declarations are added for a value anywhere in any document. -/
inductive Edit
  | line (text : String)
  | blank
  | indent
  | unindent
  | declare (settings : Settings) (place : Place) (value : Value)

namespace Listing

def edit (listing : Listing) : Edit → Listing
  | .line text => listing.line text
  | .blank => listing.blank
  | .indent => listing.indent
  | .unindent => listing.unindent
  | .declare settings place value => listing.addAll (declarations settings place value)

def editAll (listing : Listing) (edits : List Edit) : Listing := edits.foldl edit listing

theorem editAll_append (listing : Listing) (edits later : List Edit) :
    listing.editAll (edits ++ later) = (listing.editAll edits).editAll later :=
  List.foldl_append

/-- Lines are only ever added, after those that are there. -/
theorem edit_lines (listing : Listing) (edit : Edit) :
    ∃ added, (listing.edit edit).lines.toList = listing.lines.toList ++ added := by
  cases edit with
  | line text => exact ⟨_, Array.toList_push⟩
  | blank =>
    cases above : listing.clear with
    | true =>
      rw [Listing.edit, blank_of_clear above]
      exact ⟨[], (List.append_nil _).symm⟩
    | false =>
      rw [Listing.edit, blank_of_not_clear above]
      exact ⟨_, Array.toList_push⟩
  | indent => exact ⟨[], (List.append_nil _).symm⟩
  | unindent => exact ⟨[], (List.append_nil _).symm⟩
  | declare settings place value =>
    rw [Listing.edit, addAll_eq]
    exact ⟨_, Array.toList_appendList⟩

end Listing

private theorem lineTexts_declarations (settings : Settings) (place : Place) (v : Value)
    (clear : Bool) :
    Listing.lineTexts clear (declarations settings place v) =
      (if (Program.rootKind v).isSome ∧ clear = false then [""] else []) ++
        Listing.lineTexts true (declarations settings place v) := by
  have set_off : ∀ rest : List Item, Listing.lineTexts clear (.blank :: rest) =
      (if true ∧ clear = false then [""] else []) ++ Listing.lineTexts true (.blank :: rest) := by
    intro rest
    cases clear <;> simp [Listing.lineTexts]
  cases v with
  | null => simp [declarations, Listing.lineTexts, Program.rootKind]
  | scalar s => simp [declarations, Listing.lineTexts, Program.rootKind]
  | array items => exact set_off _
  | object members => exact set_off _

/-- Declarations are added after the lines that are there, at the depth that is kept. Their texts
are the same wherever they are added: only an array or object below a line that is not empty is set
off from it by an empty line, and the depth decides only how far lines are indented. -/
theorem declarations_laid_out (settings : Settings) (place : Place) (v : Value) :
    ∃ texts : List String, ∀ listing : Listing,
      (listing.addAll (declarations settings place v)).depth = listing.depth ∧
      (listing.addAll (declarations settings place v)).lines.toList =
        listing.lines.toList ++
          (if (Program.rootKind v).isSome ∧ ∃ last ∈ listing.lines.back?, last ≠ "" then [""]
            else []) ++
          texts.map (Listing.lineAt listing.depth) := by
  refine ⟨Listing.lineTexts true (declarations settings place v), ?_⟩
  intro listing
  rw [Listing.addAll_eq, lineTexts_declarations]
  refine ⟨rfl, ?_⟩
  simp only [← Listing.not_clear_iff]
  split <;> simp

end JsonUnpack
