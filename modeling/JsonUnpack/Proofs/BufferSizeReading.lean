import JsonUnpack.BufferSize
import JsonUnpack.Proofs.LineReading
import JsonUnpack.Proofs.NodePaths
import Mathlib.Algebra.Ring.Nat
import Mathlib.Data.List.Basic

/-! The buffer size as a reader of the expression understands it. The text is taken apart into its
terms again, and whatever the two macros stand for, the terms add up to the room for all arrays and
objects of the document, each of them counted once. -/
namespace JsonUnpack

open Json (Composite Value)
open Program (rootKind)

namespace BufferSize

/-- Reads a number, which has at least one digit. -/
def readNumber? (text : List Char) : Option (Nat × List Char) :=
  if text.takeWhile Char.isDigit = [] then none
  else some (Nat.ofDigitChars 10 (text.takeWhile Char.isDigit) 0, text.dropWhile Char.isDigit)

/-- Reads a factor and the star after it. Where no number stands the factor is one. -/
def readFactor? (text : List Char) : Option (Nat × List Char) :=
  match readNumber? text with
  | none => some (1, text)
  | some (count, '*' :: rest) => some (count, rest)
  | some _ => none

/-- Reads the name of a macro and the bracket after it. -/
def readKind? (text : List Char) : Option (Composite × List Char) :=
  match "JSON_ARRAY_SIZE(".toList.isPrefixOf? text with
  | some rest => some (.array, rest)
  | none => ("JSON_OBJECT_SIZE(".toList.isPrefixOf? text).map fun rest => (.object, rest)

/-- Reads a size and the bracket after it. -/
def readSize? (text : List Char) : Option (Nat × List Char) :=
  match readNumber? text with
  | some (size, ')' :: rest) => some (size, rest)
  | _ => none

/-- Reads a macro that is applied to a number, with its factor. -/
def readTerm? (text : List Char) : Option (Term × List Char) := do
  let (count, afterFactor) ← readFactor? text
  let (kind, afterKind) ← readKind? afterFactor
  let (size, rest) ← readSize? afterKind
  return (⟨kind, size, count⟩, rest)

private theorem length_read_number {text rest : List Char} {n : Nat}
    (read : readNumber? text = some (n, rest)) : rest.length ≤ text.length := by
  rw [readNumber?] at read
  split at read <;> cases read
  exact (List.dropWhile_sublist Char.isDigit).length_le

private theorem length_read_factor {text rest : List Char} {n : Nat}
    (read : readFactor? text = some (n, rest)) : rest.length ≤ text.length := by
  rw [readFactor?] at read
  split at read
  · cases read
    exact Nat.le_refl _
  · rename_i found
    cases read
    exact Nat.le_of_succ_le (length_read_number found)
  · cases read

private theorem length_read_kind {text rest : List Char} {kind : Composite}
    (read : readKind? text = some (kind, rest)) : rest.length < text.length := by
  have shorter : ∀ {front : List Char} {after : List Char}, front ≠ [] →
      front.isPrefixOf? text = some after → after.length < text.length := by
    intro front after nonempty found
    have positive := List.length_pos_iff.mpr nonempty
    rw [← List.isPrefixOf?_eq_some_iff_append_eq.mp found, List.length_append]
    omega
  rw [readKind?] at read
  split at read
  · rename_i found
    cases read
    exact shorter (by decide) found
  · obtain ⟨after, found, same⟩ := Option.map_eq_some_iff.mp read
    cases same
    exact shorter (by decide) found

private theorem length_read_size {text rest : List Char} {n : Nat}
    (read : readSize? text = some (n, rest)) : rest.length ≤ text.length := by
  rw [readSize?] at read
  split at read
  · rename_i found
    cases read
    exact Nat.le_of_succ_le (length_read_number found)
  · cases read

/-- Reading a term uses up some of the text. -/
theorem length_read_term {text rest : List Char} {term : Term}
    (read : readTerm? text = some (term, rest)) : rest.length < text.length := by
  obtain ⟨⟨count, afterFactor⟩, factor, read⟩ := Option.bind_eq_some_iff.mp read
  obtain ⟨⟨kind, afterKind⟩, name, read⟩ := Option.bind_eq_some_iff.mp read
  obtain ⟨⟨size, after⟩, number, same⟩ := Option.bind_eq_some_iff.mp read
  cases same
  calc rest.length
    _ ≤ afterKind.length := length_read_size number
    _ < afterFactor.length := length_read_kind name
    _ ≤ text.length := length_read_factor factor

/-- Reads a sum of at least one term. -/
def readTerms? (text : List Char) : Option (List Term) :=
  match read : readTerm? text with
  | some (term, []) => some [term]
  | some (term, ' ' :: '+' :: ' ' :: rest) =>
    have : rest.length < text.length :=
      Nat.lt_of_le_of_lt (Nat.le_add_right rest.length 3) (length_read_term read)
    (readTerms? rest).map (term :: ·)
  | _ => none
termination_by text.length

/-- Reads an expression: a sum of terms, or a zero where there are none. -/
def read? (text : String) : Option (List Term) :=
  if text = "0" then some [] else readTerms? text.toList

/-- What terms add up to, if the two macros give that much room for a number of children. -/
def total (room : Composite → Nat → Nat) (terms : List Term) : Nat :=
  (terms.map fun term => term.count * room term.kind term.size).sum

/-- What an expression comes to, if it is one. -/
def evaluate? (room : Composite → Nat → Nat) (text : String) : Option Nat :=
  (read? text).map (total room)

/-! Reading back. -/

private theorem read_number (n : Nat) {closing : Char} (other : closing.isDigit = false)
    (rest : List Char) :
    readNumber? (Nat.toDigits 10 n ++ closing :: rest) = some (n, closing :: rest) := by
  obtain ⟨run, after⟩ := span_exact Char.isDigit (Nat.toDigits 10 n) (closing :: rest)
    (fun _ member => digit_of_mem member) fun c head => Option.some.inj head ▸ other
  rw [readNumber?, run, after, if_neg Nat.toDigits_ne_nil, Nat.ofDigitChars_ten_toDigits]

private theorem read_kind (kind : Composite) (rest : List Char) :
    readKind? ((sizeMacro kind).toList ++ '(' :: rest) = some (kind, rest) := by
  cases kind <;> rfl

private theorem read_no_factor (kind : Composite) (rest : List Char) :
    readFactor? ((sizeMacro kind).toList ++ rest) = some (1, (sizeMacro kind).toList ++ rest) := by
  cases kind <;> rfl

/-- A term is read back up to its closing bracket, whatever follows. -/
theorem read_term (term : Term) (rest : List Char) :
    readTerm? (term.text.toList ++ rest) = some (term, rest) := by
  obtain ⟨kind, size, count⟩ := term
  let single := (sizeMacro kind).toList ++ '(' :: (Nat.toDigits 10 size ++ ')' :: rest)
  have factor : readFactor? ((Term.mk kind size count).text.toList ++ rest) =
      some (count, single) := by
    by_cases one : count = 1
    · subst one
      have spelling : (Term.mk kind size 1).text.toList ++ rest = single := by
        simp [Term.text, single]
      rw [spelling]
      exact read_no_factor kind _
    · have spelling : (Term.mk kind size count).text.toList ++ rest =
          Nat.toDigits 10 count ++ '*' :: single := by
        simp [Term.text, one, single]
      rw [spelling, readFactor?, read_number count rfl single]
      rfl
  rw [readTerm?, factor, Option.bind_eq_bind, Option.bind_some]
  change (readKind? single).bind _ = _
  rw [read_kind, Option.bind_some]
  change (readSize? _).bind _ = _
  rw [readSize?, read_number size rfl]
  rfl

private theorem read_last {text : List Char} {term : Term}
    (read : readTerm? text = some (term, [])) : readTerms? text = some [term] := by
  rw [readTerms?]
  split
  · rename_i found
    rw [read] at found
    cases found
    rfl
  · rename_i found
    rw [read] at found
    cases found
  · rename_i other _
    exact absurd read (other term)

private theorem read_more {text rest : List Char} {term : Term}
    (read : readTerm? text = some (term, ' ' :: '+' :: ' ' :: rest)) :
    readTerms? text = (readTerms? rest).map (term :: ·) := by
  rw [readTerms?]
  split
  · rename_i found
    rw [read] at found
    cases found
  · rename_i found
    rw [read] at found
    cases found
    rfl
  · rename_i other
    exact absurd read (other term rest)

private theorem read_terms (term : Term) (terms : List Term) :
    readTerms? (" + ".intercalate ((term :: terms).map Term.text)).toList =
      some (term :: terms) := by
  induction terms generalizing term with
  | nil =>
    apply read_last
    have alone := read_term term []
    rwa [List.append_nil] at alone
  | cons next terms ih =>
    have spelling : (" + ".intercalate ((term :: next :: terms).map Term.text)).toList =
        term.text.toList ++ ' ' :: '+' :: ' ' ::
          (" + ".intercalate ((next :: terms).map Term.text)).toList := by
      simp [String.intercalate_cons_cons]
    rw [spelling, read_more (read_term term _), ih]
    rfl

private theorem text_ne_zero (term : Term) (terms : List Term) : text (term :: terms) ≠ "0" := by
  intro same
  have starts : ∃ more, text (term :: terms) = term.text ++ more := by
    cases terms with
    | nil => exact ⟨"", String.append_empty.symm⟩
    | cons next terms => exact ⟨_, String.intercalate_cons_cons.trans (String.append_assoc ..)⟩
  obtain ⟨more, spelling⟩ := starts
  have read := read_term term more.toList
  rw [← String.toList_append, ← spelling, same] at read
  cases read

/-- The terms that an expression was written from are read back. -/
theorem read_text (terms : List Term) : read? (text terms) = some terms := by
  cases terms with
  | nil => rfl
  | cons term terms =>
    rw [read?, if_neg (text_ne_zero term terms)]
    exact read_terms term terms

/-! Adding up. -/

variable (room : Composite → Nat → Nat)

private theorem sum_countSize (f : Nat → Nat) (size : Nat) (counts : List (Nat × Nat)) :
    ((countSize size counts).map fun entry => entry.2 * f entry.1).sum =
      f size + (counts.map fun entry => entry.2 * f entry.1).sum := by
  induction counts with
  | nil => simp [countSize]
  | cons entry rest ih =>
    obtain ⟨other, n⟩ := entry
    rw [countSize]
    split
    · rename_i same
      subst same
      simp only [List.map_cons, List.sum_cons, Nat.add_mul, Nat.one_mul]
      omega
    · split
      · simp only [List.map_cons, List.sum_cons, Nat.one_mul]
      · simp only [List.map_cons, List.sum_cons, ih]
        omega

/-- Counting sizes together changes nothing of what they come to. -/
theorem sum_tally (f : Nat → Nat) (sizes : List Nat) :
    ((tally sizes).map fun entry => entry.2 * f entry.1).sum = (sizes.map f).sum := by
  have onto : ∀ counts : List (Nat × Nat),
      ((sizes.foldl (fun counts size => countSize size counts) counts).map
        fun entry => entry.2 * f entry.1).sum =
      (counts.map fun entry => entry.2 * f entry.1).sum + (sizes.map f).sum := by
    induction sizes with
    | nil => exact fun counts => rfl
    | cons size sizes ih =>
      intro counts
      rw [List.foldl_cons, ih, sum_countSize, List.map_cons, List.sum_cons]
      omega
  rw [tally, onto, List.map_nil, List.sum_nil, Nat.zero_add]

private theorem total_append (terms more : List Term) :
    total room (terms ++ more) = total room terms + total room more := by
  rw [total, List.map_append, List.sum_append]
  rfl

private theorem total_termsOf (kind : Composite) (composites : List (Composite × Nat)) :
    total room (termsOf kind composites) = ((sizesOf kind composites).map (room kind)).sum := by
  rw [← sum_tally, total, termsOf, List.map_map]
  rfl

private theorem sum_sizesOf (composites : List (Composite × Nat)) :
    ((sizesOf .array composites).map (room .array)).sum +
      ((sizesOf .object composites).map (room .object)).sum =
        (composites.map fun composite => room composite.1 composite.2).sum := by
  induction composites with
  | nil => rfl
  | cons composite composites ih =>
    obtain ⟨kind, size⟩ := composite
    cases kind <;> simp [sizesOf] at ih ⊢ <;> omega

/-- The terms for some arrays and objects come to the room for all of them. -/
theorem total_terms (composites : List (Composite × Nat)) : total room (terms composites) =
    (composites.map fun composite => room composite.1 composite.2).sum := by
  rw [terms, total_append, total_termsOf, total_termsOf, sum_sizesOf]

end BufferSize

namespace Json.Value

/-- The kind and size of a node, if it is an array or object. -/
def ownComposite? (v : Value) : Option (Composite × Nat) :=
  (rootKind v).map fun kind => (kind, v.children.length)

theorem itemsComposites_eq (items : List Value) :
    itemsComposites items = items.flatMap composites := by
  induction items with
  | nil => rfl
  | cons item rest ih => rw [itemsComposites, ih, List.flatMap_cons]

theorem membersComposites_eq (members : List (String × Value)) :
    membersComposites members = members.flatMap fun member => member.2.composites := by
  induction members with
  | nil => rfl
  | cons member rest ih => rw [membersComposites, ih, List.flatMap_cons]

private theorem composites_step (v : Value) : v.composites =
    v.ownComposite?.toList ++ v.children.flatMap fun child => child.2.composites := by
  cases v with
  | null | scalar => rfl
  | array items =>
    have below : (array items).children.flatMap (fun child => child.2.composites) =
        items.flatMap composites := by
      rw [children, List.flatMap_map, ← List.flatMap_map Prod.fst composites, List.zipIdx_map_fst]
    rw [composites, itemsComposites_eq, below, ownComposite?, length_children_array]
    rfl
  | object members =>
    rw [composites, membersComposites_eq, ownComposite?, length_children_object, children,
      List.flatMap_map]
    rfl

/-- The arrays and objects that are counted are those among the nodes, in document order. -/
theorem composites_eq (v : Value) :
    v.composites = (v.nodes []).filterMap fun node => node.2.ownComposite? := by
  induction v using tree_induction with
  | node v ih =>
    have below : (v.children.flatMap fun child => child.2.nodes ([] ++ [child.1])).filterMap
        (fun node => node.2.ownComposite?) =
          v.children.flatMap fun child => child.2.composites := by
      rw [List.filterMap_flatMap]
      apply List.flatMap_congr
      intro child inside
      rw [nodes_shift, List.filterMap_map, ih child inside]
      rfl
    rw [composites_step, nodes_eq, List.filterMap_cons, below]
    cases v.ownComposite? <;> rfl

/-- The room for a node by itself, if arrays and objects take that much for a number of children. -/
def ownRoom (room : Composite → Nat → Nat) : Value → Nat
  | array items => room .array items.length
  | object members => room .object members.length
  | _ => 0

private theorem room_of_composite (room : Composite → Nat → Nat) (v : Value) :
    (v.ownComposite?.map fun composite => room composite.1 composite.2).getD 0 =
      v.ownRoom room := by
  cases v with
  | null | scalar => rfl
  | array items => rw [ownComposite?, length_children_array]; rfl
  | object members => rw [ownComposite?, length_children_object]; rfl

private theorem sum_filterMap {α : Type} (f : α → Option Nat) (list : List α) :
    (list.filterMap f).sum = (list.map fun a => (f a).getD 0).sum := by
  induction list with
  | nil => rfl
  | cons a list ih =>
    rw [List.filterMap_cons, List.map_cons, List.sum_cons, ← ih]
    cases f a with
    | none => exact (Nat.zero_add _).symm
    | some n => rfl

/-- The room for the arrays and objects that are counted is the room for all nodes. -/
theorem sum_composites (room : Composite → Nat → Nat) (v : Value) :
    (v.composites.map fun composite => room composite.1 composite.2).sum =
      ((v.nodes []).map fun node => node.2.ownRoom room).sum := by
  rw [composites_eq, List.map_filterMap, sum_filterMap]
  congr 2
  funext node
  exact room_of_composite room node.2

end Json.Value

/-- Whatever the macros for arrays and objects stand for, the expression for the size of the buffer
comes to the room for every array and every object anywhere in the document, once for each. -/
theorem buffer_size_counts_each_once (room : Composite → Nat → Nat) (document : Value) :
    BufferSize.evaluate? room document.bufferSize =
      some ((document.nodes []).map fun node => node.2.ownRoom room).sum := by
  rw [BufferSize.evaluate?, Json.Value.bufferSize, BufferSize.read_text, Option.map_some,
    BufferSize.total_terms, Json.Value.sum_composites]

end JsonUnpack
