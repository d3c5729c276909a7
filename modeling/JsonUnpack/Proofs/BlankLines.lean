import JsonUnpack.Program
import JsonUnpack.Proofs.ListingEdits
import Mathlib.Data.List.Chain

/-! Empty lines set parts of a program off from one another: they stand neither at the start nor
next to each other, whatever is done to a listing, and what was rendered once stays as it is. -/
namespace JsonUnpack

open Json (Composite Value)

namespace Listing

variable {listing : Listing}

/-- No empty line at the start, and no two next to each other. -/
structure Tidy (listing : Listing) : Prop where
  start : listing.lines.toList.head? ≠ some ""
  apart : listing.lines.toList.IsChain fun line next => line ≠ "" ∨ next ≠ ""

theorem tidy_empty : empty.Tidy := ⟨nofun, .nil⟩

/-- An empty line needs one above it that is not empty. -/
theorem Tidy.push (tidy : listing.Tidy) {text : String} (fits : text ≠ "" ∨ listing.clear = false)
    (depth : Nat) : Tidy ⟨listing.lines.push text, depth⟩ := by
  rw [not_clear_iff, ← Array.getLast?_toList] at fits
  constructor
  · rw [Array.toList_push, List.head?_append]
    cases first : listing.lines.toList.head? with
    | none =>
      have none : listing.lines.toList = [] := List.head?_eq_none_iff.mp first
      simpa [none] using fits
    | some line => simpa [first] using tidy.start
  · rw [Array.toList_push]
    refine tidy.apart.append (List.isChain_singleton text) ?_
    intro last above next same
    obtain rfl : text = next := by simpa using same
    rcases fits with text | ⟨line, ends, visible⟩
    · exact .inr text
    · obtain rfl : last = line := Option.some.inj (above.symm.trans ends)
      exact .inl visible

theorem Tidy.blank (tidy : listing.Tidy) : listing.blank.Tidy := by
  cases above : listing.clear with
  | true => rwa [blank_of_clear above]
  | false =>
    rw [blank_of_not_clear above]
    exact tidy.push (.inr above) listing.depth

private theorem indentation_ne_empty {depth : Nat} (deep : 0 < depth) : indentation depth ≠ "" := by
  intro empty
  have chars := congrArg String.toList empty
  simp [indentation] at chars
  omega

theorem Tidy.line (tidy : listing.Tidy) {text : String} (visible : text ≠ "" ∨ 0 < listing.depth) :
    (listing.line text).Tidy := by
  have line : indentation listing.depth ++ text ≠ "" := by
    intro empty
    obtain ⟨margin, none⟩ := String.append_eq_empty_iff.mp empty
    rcases visible with text | deep
    · exact text none
    · exact indentation_ne_empty deep margin
  exact tidy.push (.inl line) listing.depth

theorem Tidy.addAll (tidy : listing.Tidy) (items : List Item) : (listing.addAll items).Tidy := by
  induction items generalizing listing with
  | nil => exact tidy
  | cons item items ih =>
    cases item with
    | blank => exact ih tidy.blank
    | statement s => exact ih (tidy.line (.inl s.text_ne_empty))

/-- An edit gives no line without a single character in it: at the margin no text is empty. -/
def Visible (listing : Listing) : Edit → Prop
  | .line text => text ≠ "" ∨ 0 < listing.depth
  | _ => True

/-- All edits, one after another, give no line without a single character in it. -/
def AllVisible (listing : Listing) : List Edit → Prop
  | [] => True
  | edit :: rest => listing.Visible edit ∧ (listing.edit edit).AllVisible rest

theorem Tidy.edit (tidy : listing.Tidy) {edit : Edit} (visible : listing.Visible edit) :
    (listing.edit edit).Tidy := by
  cases edit with
  | line text => exact tidy.line visible
  | blank => exact tidy.blank
  | indent => exact ⟨tidy.start, tidy.apart⟩
  | unindent => exact ⟨tidy.start, tidy.apart⟩
  | declare settings place value => exact tidy.addAll _

/-- Rendered text only grows at its end. -/
theorem render_edit (listing : Listing) (edit : Edit) :
    ∃ added, (listing.edit edit).render = listing.render ++ added := by
  obtain ⟨added, lines⟩ := listing.edit_lines edit
  rw [render, render, lines]
  by_cases first : listing.lines.toList = []
  · exact ⟨_, by rw [first, String.intercalate_nil, String.empty_append]⟩
  · by_cases none : added = []
    · exact ⟨"", by rw [none, List.append_nil, String.append_empty]⟩
    · refine ⟨"\n" ++ "\n".intercalate added, ?_⟩
      rw [String.intercalate_append_of_ne_nil first none, String.append_assoc]

private theorem steps_tidy (tidy : listing.Tidy) {edits : List Edit}
    (visible : listing.AllVisible edits) {before : List Edit} {edit : Edit} {later : List Edit}
    (split : edits = before ++ edit :: later) :
    (listing.editAll (before ++ [edit])).Tidy ∧
      ∃ added, (listing.editAll (before ++ [edit])).render =
        (listing.editAll before).render ++ added := by
  induction before generalizing listing edits with
  | nil =>
    subst split
    exact ⟨tidy.edit visible.1, listing.render_edit edit⟩
  | cons first before ih =>
    subst split
    exact ih (tidy.edit visible.1) visible.2 rfl

private theorem render_ends {front : List String} {last : String}
    (lines : listing.lines.toList = front ++ [last]) (below : front ≠ []) :
    listing.render.toList.getLast? = ('\n' :: last.toList).getLast? := by
  rw [render, lines, String.intercalate_append_of_ne_nil below (List.cons_ne_nil _ _),
    String.intercalate_singleton, String.append_assoc, String.toList_append, String.toList_append]
  exact List.getLast?_append_of_ne_nil _ (List.cons_ne_nil _ _)

private theorem Tidy.render_ends_of_clear (tidy : listing.Tidy) (clear : listing.clear = true)
    (written : listing.lines.toList ≠ []) : listing.render.toList.getLast? = some '\n' := by
  obtain ⟨front, last, lines⟩ := (List.eq_nil_or_concat' _).resolve_left written
  obtain rfl : last = "" := by
    simpa [Listing.clear, ← Array.getLast?_toList, lines] using clear
  have below : front ≠ [] := by
    rintro rfl
    exact tidy.start (by rw [lines]; rfl)
  rw [render_ends lines below]
  rfl

private theorem written_of_statement (listing : Listing) (s : Statement) (items : List Item) :
    (listing.addAll (.statement s :: items)).lines.toList ≠ [] := by
  rw [addAll_eq, lineTexts]
  simp

private theorem addAll_concat (listing : Listing) (items : List Item) (item : Item) :
    listing.addAll (items ++ [item]) = (listing.addAll items).add item :=
  List.foldl_concat add listing item items

end Listing

namespace Program

variable (settings : Settings) (bufferSize : String) (document : Value)

theorem listing_tidy : (listing settings bufferSize document).Tidy :=
  Listing.tidy_empty.addAll _

private theorem ends_of_blank {others : List Item}
    (items : items settings bufferSize document = others ++ [.blank]) :
    (program settings bufferSize document).toList.getLast? = some '\n' := by
  refine (listing_tidy settings bufferSize document).render_ends_of_clear ?_ ?_
  · rw [listing, items, Listing.addAll_concat]
    exact Listing.clear_blank
  · exact Listing.written_of_statement _ _ _

private theorem parse_ends (kind : Option Composite) (depth : Option Nat) :
    ∃ front, (Statement.parse kind depth).text.toList = front ++ [';'] := by
  refine ⟨(Statement.rootType kind ++ " " ++ Name.root ++ " = jsonBuffer." ++
    Statement.parseMethod kind ++ "(" ++ Statement.parseArguments depth ++ ")").toList, ?_⟩
  change (Statement.rootType kind ++ " " ++ Name.root ++ " = jsonBuffer." ++
    Statement.parseMethod kind ++ "(" ++ Statement.parseArguments depth ++ ");").toList = _
  simp only [String.toList_append, List.append_assoc]
  rfl

private theorem ends_of_parse (none : body settings document = []) :
    (program settings bufferSize document).toList.getLast? = some ';' := by
  have split : items settings bufferSize document =
      (preamble settings bufferSize document).dropLast ++
        [.statement (.parse (rootKind document) (depthHint settings document))] := by
    rw [items, none]
    rfl
  have last : listing settings bufferSize document =
      (Listing.empty.addAll (preamble settings bufferSize document).dropLast).line
        (Statement.parse (rootKind document) (depthHint settings document)).text := by
    rw [listing, split, Listing.addAll_concat]
    rfl
  obtain ⟨front, text⟩ := parse_ends (rootKind document) (depthHint settings document)
  rw [program, last, Listing.render_ends Array.toList_push (Listing.written_of_statement _ _ _),
    String.toList_append, text, ← List.append_assoc, ← List.cons_append, List.getLast?_concat]

/-- The text of a program ends in a line break exactly if the document has children or could have
some: their declarations end in an empty line, and the line that parses the document does not. -/
theorem ends_in_line_break : (program settings bufferSize document).toList.getLast? = some '\n' ↔
    (rootKind document).isSome := by
  cases document with
  | null => simp [ends_of_parse settings bufferSize .null rfl, rootKind]
  | scalar s => simp [ends_of_parse settings bufferSize (.scalar s) rfl, rootKind]
  | array items =>
    exact iff_of_true (ends_of_blank settings bufferSize _ (List.append_assoc _ _ _).symm) rfl
  | object members =>
    exact iff_of_true (ends_of_blank settings bufferSize _ (List.append_assoc _ _ _).symm) rfl

end Program

/-- Empty lines stand neither at the start nor next to each other after any step of any edits that
give no line without a single character in it, and each step only adds to the rendered text. So it
is with every program, and its text ends in a line break exactly if its document is an array or an
object. -/
theorem blank_lines_apart (edits : List Edit) (visible : Listing.empty.AllVisible edits) :
    (∀ before edit later, edits = before ++ edit :: later →
      (Listing.empty.editAll (before ++ [edit])).Tidy ∧
      ∃ added, (Listing.empty.editAll (before ++ [edit])).render =
        (Listing.empty.editAll before).render ++ added) ∧
    ∀ settings bufferSize document,
      (Program.listing settings bufferSize document).Tidy ∧
      ((program settings bufferSize document).toList.getLast? = some '\n' ↔
        (Program.rootKind document).isSome) := by
  constructor
  · intro before edit later split
    exact Listing.steps_tidy Listing.tidy_empty visible split
  · intro settings bufferSize document
    exact ⟨Program.listing_tidy settings bufferSize document,
      Program.ends_in_line_break settings bufferSize document⟩

/-- Empty texts below the margin, declarations of empty arrays and surplus steps outwards. -/
theorem blank_lines_apart_of_nested_arrays :
    (Listing.empty.editAll [.blank, .line "", .declare .standard ⟨.ofName "root", none⟩
      (.array [.array [], .null, .array [.array []]]), .unindent, .unindent, .blank,
      .line " "]).Tidy := by
  have apart := (blank_lines_apart [.blank, .line "", .declare .standard ⟨.ofName "root", none⟩
    (.array [.array [], .null, .array [.array []]]), .unindent, .unindent, .blank, .line " "]
    ⟨trivial, .inr Nat.one_pos, trivial, trivial, trivial, trivial, .inl (by decide), trivial⟩).1
  exact (apart [_, _, _, _, _, _] _ [] rfl).1

end JsonUnpack
