import JsonUnpack.Proofs.ReferenceScopes

/-! The names that a program declares, as they stand on its lines. Every line of a program that is
not empty declares one variable, and its name is the last word before the first equals sign or
bracket. -/
namespace JsonUnpack

open Json (Value)
open Program (rootKind)

/-- Whether a character can come before what a declared variable is set to. -/
def beforeValue (c : Char) : Bool := c ≠ '=' ∧ c ≠ '('

/-- The variable that a line declares. -/
def declaredName (line : String) : String :=
  let front := (line.toList.takeWhile beforeValue).reverse
  .ofList ((front.dropWhile (· = ' ')).takeWhile (· ≠ ' ')).reverse

/-- The variables that a program declares, line by line. -/
def Program.declaredNames (settings : Settings) (bufferSize : String) (document : Value) :
    List String :=
  ((listing settings bufferSize document).lines.toList.filter (· ≠ "")).map declaredName

/-- A line with a name after its first words, and after the name, possibly set off by blanks, an
equals sign or a bracket. -/
def Introduces (line : List Char) (name : String) : Prop :=
  ∃ front blanks c rest, (∀ d ∈ front, beforeValue d = true) ∧ beforeValue c = false ∧
    line = front ++ ' ' :: (name.toList ++ (List.replicate blanks ' ' ++ c :: rest))

private theorem declared_name_of_introduces {line name : String}
    (introduces : Introduces line.toList name) (plain : PlainName name) (named : name ≠ "") :
    declaredName line = name := by
  obtain ⟨front, blanks, c, rest, early, late, spelling⟩ := introduces
  have inName : ∀ d ∈ name.toList, beforeValue d = true := by
    intro d member
    simp [beforeValue, plain_ne plain member '=' rfl (by decide),
      plain_ne plain member '(' rfl (by decide)]
  have blank : ∀ d ∈ List.replicate blanks ' ', d = ' ' := fun d => List.eq_of_mem_replicate
  have start : line.toList.takeWhile beforeValue =
      front ++ ' ' :: (name.toList ++ List.replicate blanks ' ') := by
    have split : line.toList =
        (front ++ ' ' :: (name.toList ++ List.replicate blanks ' ')) ++ c :: rest := by
      simp [spelling]
    rw [split]
    refine (span_exact beforeValue _ (c :: rest) ?_ fun d head => by cases head; exact late).1
    simp only [List.forall_mem_append, List.forall_mem_cons]
    exact ⟨early, rfl, inName, fun d member => blank d member ▸ rfl⟩
  have word : (line.toList.takeWhile beforeValue).reverse =
      List.replicate blanks ' ' ++ (name.toList.reverse ++ ' ' :: front.reverse) := by
    simp [start]
  have afterBlanks := (span_exact (· = ' ') (List.replicate blanks ' ')
    (name.toList.reverse ++ ' ' :: front.reverse)
    (fun d member => decide_eq_true (blank d member)) (by
      intro d head
      have nonempty : name.toList.reverse ≠ [] := by simpa using named
      rw [List.head?_append_of_ne_nil _ nonempty] at head
      have member := List.mem_reverse.mp (List.mem_of_head? head)
      exact decide_eq_false (plain_ne plain member ' ' rfl (by decide)))).2
  have found := (span_exact (· ≠ ' ') name.toList.reverse (' ' :: front.reverse)
    (fun d member =>
      decide_eq_true (plain_ne plain (List.mem_reverse.mp member) ' ' rfl (by decide)))
    fun d head => by cases head; rfl).1
  rw [declaredName]
  simp only [word, afterBlanks, found, List.reverse_reverse, String.ofList_toList]

private theorem introduces_indented {text : List Char} {name : String} (depth : Nat)
    (introduces : Introduces text name) :
    Introduces ((indentation depth).toList ++ text) name := by
  obtain ⟨front, blanks, c, rest, early, late, spelling⟩ := introduces
  refine ⟨(indentation depth).toList ++ front, blanks, c, rest, ?_, late, ?_⟩
  · rw [List.forall_mem_append]
    refine ⟨?_, early⟩
    intro d member
    rw [indentation, String.toList_ofList] at member
    rw [List.eq_of_mem_replicate member]
    rfl
  · rw [spelling, List.append_assoc]

private theorem line_introduces (line : Line) : Introduces line.text.toList line.name := by
  refine ⟨line.type.text.toList, 1, '=',
    (" " ++ line.target.text ++ Line.ending line.comment).toList, ?_, rfl, ?_⟩
  · rcases line.type with kind | type
    · cases kind <;> exact List.all_eq_true.mp rfl
    · cases type <;> exact List.all_eq_true.mp rfl
  · simp [Line.text]

/-- A declaration is found to declare the variable that a reader of the line sees. -/
theorem declared_name_of_line (depth : Nat) {line : Line} (plain : PlainName line.name)
    (named : line.name ≠ "") : declaredName (indentation depth ++ line.text) = line.name := by
  refine declared_name_of_introduces ?_ plain named
  rw [String.toList_append]
  exact introduces_indented depth (line_introduces line)

namespace Program

/-- The names that a program declares on its own account. -/
def ownNames : List String := ["bufferSize", "jsonBuffer", "json", "root"]

/-- A node with such a name is a member of the root object, and the name is its key. -/
theorem path_of_own_name {document : Value} {path : List Step} {node : Value}
    (own : document.nameAt path ∈ ownNames) (found : document.at? path = some node)
    (stem : (document.stemAt path).isSome) : path = [.key (document.nameAt path)] := by
  have single : ∀ name ∈ ownNames,
      name.toList.all (fun letter => letter ≠ '_' && !letter.isDigit) = true := by decide
  exact Value.path_of_word (single _ own) found stem rfl

private theorem own_introduces (settings : Settings) (bufferSize : String) (document : Value) :
    ∀ s ∈ ownStatements settings bufferSize document, Introduces s.text.toList s.name := by
  simp only [ownStatements, List.forall_mem_cons, List.not_mem_nil, false_implies, implies_true,
    and_true]
  refine ⟨?_, ?_, ?_, ?_⟩
  · refine ⟨"const size_t".toList, 1, '=', (" " ++ bufferSize ++ ";").toList,
      List.all_eq_true.mp rfl, rfl, ?_⟩
    change ("const size_t bufferSize = " ++ bufferSize ++ ";").toList = _
    simp [Statement.name]
  · exact ⟨"DynamicJsonBuffer".toList, 0, '(', "bufferSize);".toList,
      List.all_eq_true.mp rfl, rfl, rfl⟩
  · refine ⟨"const char*".toList, 1, '=', (" " ++ Cpp.literal document.compact ++ ";").toList,
      List.all_eq_true.mp rfl, rfl, ?_⟩
    change ("const char* json = " ++ Cpp.literal document.compact ++ ";").toList = _
    simp [Statement.name]
  · refine ⟨(Statement.rootType (rootKind document)).toList, 1, '=', (" jsonBuffer." ++
      Statement.parseMethod (rootKind document) ++ "(" ++
      Statement.parseArguments (depthHint settings document) ++ ");").toList, ?_, rfl, ?_⟩
    · rcases rootKind document with _ | kind
      · exact List.all_eq_true.mp rfl
      · cases kind <;> exact List.all_eq_true.mp rfl
    · change (Statement.rootType (rootKind document) ++ " " ++ Name.root ++ " = jsonBuffer." ++
        Statement.parseMethod (rootKind document) ++ "(" ++
        Statement.parseArguments (depthHint settings document) ++ ");").toList = _
      simp [Statement.name]

private theorem own_declared (settings : Settings) (bufferSize : String) (document : Value) :
    (ownStatements settings bufferSize document).map
      (fun s => declaredName (indentation 1 ++ s.text)) = ownNames := by
  have plain : ∀ name ∈ ownNames,
      name.toList.all (fun c => c.isAlphanum || c = '_') = true ∧ name ≠ "" := by decide
  have each : ∀ s ∈ ownStatements settings bufferSize document,
      declaredName (indentation 1 ++ s.text) = s.name := by
    intro s member
    have own : s.name ∈ ownNames := List.mem_map.mpr ⟨s, member, rfl⟩
    refine declared_name_of_introduces ?_ (plain_of_all (plain _ own).1) (plain _ own).2
    rw [String.toList_append]
    exact introduces_indented 1 (own_introduces settings bufferSize document s member)
  exact List.map_congr_left each

/-- A program declares its own names first and then those of its declarations. -/
theorem declaredNames_eq {settings : Settings} {bufferSize : String} {document : Value}
    {lines : List Line} (declares : Declares settings bufferSize document lines)
    (named : ∀ line ∈ lines, PlainName line.name ∧ line.name ≠ "") :
    declaredNames settings bufferSize document = ownNames ++ lines.map Line.name := by
  have later : ((statements (body settings document)).map fun s => indentation 1 ++ s.text).map
      declaredName = lines.map Line.name := by
    rw [declares.texts, List.map_map]
    apply List.map_congr_left
    intro line member
    exact declared_name_of_line 1 (named line member).1 (named line member).2
  rw [declaredNames, written_lines, statements_items, List.map_append, List.map_append, later,
    List.map_map]
  exact congrArg (· ++ lines.map Line.name) (own_declared settings bufferSize document)

end Program

end JsonUnpack
