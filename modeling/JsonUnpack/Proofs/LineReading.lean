import JsonUnpack.Json.Numeral
import JsonUnpack.Listing
import JsonUnpack.Proofs.LiteralScanning
import Mathlib.Data.List.Basic

/-! Declarations as a reader of the program sees them. A line is taken apart into the type, the
name, the member expression with its key literals undone, and the comment; and taking apart what a
statement was written as gives the statement back. -/
namespace JsonUnpack

open Json (Composite Scalar Value)

/-- The type of a declared variable. -/
inductive DeclaredType
  | reference (kind : Composite)
  | leaf (type : Cpp.LeafType)
  deriving DecidableEq

def DeclaredType.text : DeclaredType → String
  | reference kind => referenceType kind
  | leaf type => type.text

/-- All types that a declaration can start with. -/
def DeclaredType.all : List DeclaredType :=
  [.reference .array, .reference .object, .leaf .string, .leaf .float, .leaf .int, .leaf .long,
    .leaf .bool]

/-- Reads the type at the start of a declaration and the blank after it. -/
def DeclaredType.read? (text : List Char) : Option (DeclaredType × List Char) :=
  all.findSome? fun type =>
    ((type.text.toList ++ [' ']).isPrefixOf? text).map fun rest => (type, rest)

/-- Reads the steps of a member expression, up to where none begins. -/
def Step.readAll? (text : List Char) : Option (List Step × List Char) :=
  match text with
  | '[' :: '"' :: literal =>
    match scanned : Cpp.literalBody? (fun _ => true) literal with
    | some (body, ']' :: rest) =>
      have : rest.length < literal.length :=
        Nat.lt_of_succ_lt (Cpp.length_literal_body scanned)
      (readAll? rest).map fun found => (.key (.ofList body) :: found.1, found.2)
    | _ => none
  | '[' :: number =>
    match after : number.dropWhile Char.isDigit with
    | ']' :: rest =>
      have : rest.length < number.length := by
        have shorter := (List.dropWhile_sublist Char.isDigit (l := number)).length_le
        rw [after] at shorter
        exact shorter
      if number.takeWhile Char.isDigit = [] then none
      else
        (readAll? rest).map fun found =>
          (.index (Nat.ofDigitChars 10 (number.takeWhile Char.isDigit) 0) :: found.1, found.2)
    | _ => none
  | rest => some ([], rest)
termination_by text.length
decreasing_by
  all_goals simp only [List.length_cons]
  all_goals omega

/-- Whether a character is part of the variable that a member expression starts with. -/
def Access.inBase (c : Char) : Bool := c ≠ '[' ∧ c ≠ ';'

/-- Reads a member expression: the variable it starts with, and its steps. -/
def Access.read? (text : List Char) : Option (Access × List Char) :=
  (Step.readAll? (text.dropWhile inBase)).map fun found =>
    (⟨.ofList (text.takeWhile inBase), found.1⟩, found.2)

/-- What a line declares. -/
structure Line where
  type : DeclaredType
  name : String
  target : Access
  comment : Option String
  deriving DecidableEq

namespace Line

/-- What a declaration ends with. -/
def ending : Option String → String
  | none => ";"
  | some comment => "; // " ++ comment

/-- How a line is written. -/
def text (line : Line) : String :=
  line.type.text ++ " " ++ line.name ++ " = " ++ line.target.text ++ ending line.comment

/-- Reads the end of a declaration: a semicolon, and possibly a comment. -/
def readComment? : List Char → Option (Option String)
  | [';'] => some none
  | ';' :: ' ' :: '/' :: '/' :: ' ' :: comment => some (some (.ofList comment))
  | _ => none

/-- Reads a line. -/
def read? (text : String) : Option Line := do
  let (type, afterType) ← DeclaredType.read? (text.toList.dropWhile (· = ' '))
  let afterName ← [' ', '=', ' '].isPrefixOf? (afterType.dropWhile (· ≠ ' '))
  let (target, afterTarget) ← Access.read? afterName
  let comment ← readComment? afterTarget
  return ⟨type, .ofList (afterType.takeWhile (· ≠ ' ')), target, comment⟩

/-- Reads the declarations on some lines, of which those that are empty have none. -/
def readAll? (lines : List String) : Option (List Line) := (lines.filter (· ≠ "")).mapM read?

end Line

/-- What a reader of the program sees of a statement, if that is a declaration. -/
def Statement.line? : Statement → Option Line
  | .reference kind name target => some ⟨.reference kind, name, target, none⟩
  | .leaf type name target value => some ⟨.leaf type, name, target, some value.compact⟩
  | _ => none

/-- A name of letters, digits and underscores only. -/
def PlainName (name : String) : Prop := ∀ c ∈ name.toList, c.isAlphanum = true ∨ c = '_'

/-- A run of characters that ends where the next part begins is split off there. -/
theorem span_exact (p : Char → Bool) (run rest : List Char)
    (inside : ∀ c ∈ run, p c = true) (boundary : ∀ c, rest.head? = some c → p c = false) :
    (run ++ rest).takeWhile p = run ∧ (run ++ rest).dropWhile p = rest := by
  rw [List.takeWhile_append_of_pos inside, List.dropWhile_append_of_pos inside]
  cases rest with
  | nil => simp
  | cons c tail => simp [boundary c rfl]

private theorem read_type (type : DeclaredType) (rest : List Char) :
    DeclaredType.read? (type.text.toList ++ ' ' :: rest) = some (type, rest) := by
  rcases type with kind | type
  · cases kind <;> rfl
  · cases type <;> rfl

private theorem read_key_step (key : String) (rest : List Char) :
    Step.readAll? ((Step.key key).text.toList ++ rest) =
      (Step.readAll? rest).map fun found => (.key key :: found.1, found.2) := by
  have spelling : (Step.key key).text.toList ++ rest =
      '[' :: '"' :: (Cpp.escapeChars key.toList ++ '"' :: ']' :: rest) := by
    simp [Step.text, Cpp.literal, Cpp.escape]
  have scanned : Cpp.literalBody? (fun _ => true)
      (Cpp.escapeChars key.toList ++ '"' :: ']' :: rest) =
      some (key.toList, ']' :: rest) :=
    Cpp.literal_body_escaped (']' :: rest) fun _ _ => .inr (.inr rfl)
  rw [spelling, Step.readAll?]
  split
  · rename_i body tail found
    rw [scanned] at found
    cases found
    rw [String.ofList_toList]
  · rename_i other
    exact absurd scanned (other _ _)

private theorem read_index_step (n : Nat) (rest : List Char) :
    Step.readAll? ((Step.index n).text.toList ++ rest) =
      (Step.readAll? rest).map fun found => (.index n :: found.1, found.2) := by
  have spelling : (Step.index n).text.toList ++ rest =
      '[' :: (Nat.toDigits 10 n ++ ']' :: rest) := by
    simp [Step.text]
  have ends := span_exact Char.isDigit (Nat.toDigits 10 n) (']' :: rest)
    (fun _ member => digit_of_mem member) fun c same => by cases same; rfl
  have unquoted : ∀ literal, Nat.toDigits 10 n ++ ']' :: rest ≠ '"' :: literal := by
    intro literal same
    obtain ⟨first, more, spelled, digit⟩ := digits_start n
    rw [spelled] at same
    cases same
    cases digit
  rw [spelling, Step.readAll?]
  · split
    · rename_i after found
      rw [ends.2] at found
      cases found
      rw [ends.1, if_neg Nat.toDigits_ne_nil, Nat.ofDigitChars_ten_toDigits]
    · rename_i other
      exact absurd ends.2 (other _)
  · exact unquoted

/-- Steps are read back as far as they go. -/
theorem read_steps (steps : List Step) {rest : List Char}
    (ends : ∀ c, rest.head? = some c → c ≠ '[') :
    Step.readAll? (steps.flatMap (fun step => step.text.toList) ++ rest) = some (steps, rest) := by
  induction steps with
  | nil =>
    rw [List.flatMap_nil, List.nil_append, Step.readAll?]
    · intro _ same
      exact ends '[' (same ▸ rfl) rfl
    · intro _ same
      exact ends '[' (same ▸ rfl) rfl
  | cons step steps ih =>
    rw [List.flatMap_cons, List.append_assoc]
    cases step with
    | index n => rw [read_index_step, ih]; rfl
    | key k => rw [read_key_step, ih]; rfl

/-- Punctuation and blanks are no part of a plain name. -/
theorem plain_ne {name : String} (plain : PlainName name) {c : Char} (member : c ∈ name.toList)
    (other : Char) (notAlphanum : other.isAlphanum = false) (notUnderscore : other ≠ '_') :
    c ≠ other := by
  rintro rfl
  rcases plain c member with alphanum | underscore
  · exact Bool.false_ne_true (notAlphanum.symm.trans alphanum)
  · exact notUnderscore underscore

private theorem plain_char {name : String} (plain : PlainName name) {c : Char}
    (member : c ∈ name.toList) : c ≠ ' ' ∧ Access.inBase c = true := by
  refine ⟨plain_ne plain member ' ' rfl (by decide), ?_⟩
  simp [Access.inBase, plain_ne plain member '[' rfl (by decide),
    plain_ne plain member ';' rfl (by decide)]

/-- A member expression is its base with the texts of its steps after it. -/
theorem Access.text_chars (access : Access) : access.text.toList =
    access.base.toList ++ access.steps.flatMap fun step => step.text.toList := by
  simp [Access.text, String.toList_join, List.flatMap_map]

/-- The steps of a member expression start with a bracket, if there are any. -/
theorem steps_head {steps : List Step} {c : Char}
    (head : (steps.flatMap fun step => step.text.toList).head? = some c) : c = '[' := by
  rcases steps with _ | ⟨step, more⟩
  · cases head
  · cases step <;> simp [Step.text] at head <;> exact head.symm

private theorem read_access {target : Access} (plain : PlainName target.base) (rest : List Char) :
    Access.read? (target.text.toList ++ ';' :: rest) = some (target, ';' :: rest) := by
  have boundary : ∀ c, (target.steps.flatMap (fun step => step.text.toList) ++ ';' :: rest).head? =
      some c → Access.inBase c = false := by
    intro c same
    rw [List.head?_append] at same
    cases head : (target.steps.flatMap fun step => step.text.toList).head? with
    | none =>
      rw [head] at same
      cases same
      rfl
    | some d =>
      rw [head] at same
      cases same
      rw [steps_head head]
      rfl
  obtain ⟨base, after⟩ := span_exact Access.inBase _ _
    (fun c member => (plain_char plain member).2) boundary
  rw [Access.read?, Access.text_chars, List.append_assoc, base, after,
    read_steps target.steps fun c same => by cases same; decide]
  simp

private theorem type_head (type : DeclaredType) (rest : List Char) {c : Char}
    (head : (type.text.toList ++ rest).head? = some c) : (decide (c = ' ')) = false := by
  rcases type with kind | type
  · cases kind <;> cases head <;> rfl
  · cases type <;> cases head <;> rfl

private theorem read_ending (comment : Option String) :
    ∃ more, (Line.ending comment).toList = ';' :: more ∧
      Line.readComment? (';' :: more) = some comment := by
  cases comment with
  | none => exact ⟨[], rfl, rfl⟩
  | some comment =>
    refine ⟨' ' :: '/' :: '/' :: ' ' :: comment.toList, by simp [Line.ending], ?_⟩
    rw [Line.readComment?, String.ofList_toList]

/-- However deep it is indented, a line is read back from how it is written, as long as its variable
and the variable it starts from are plain. -/
theorem read_line {line : Line} (depth : Nat) (plain : PlainName line.name)
    (plainBase : PlainName line.target.base) :
    Line.read? (indentation depth ++ line.text) = some line := by
  obtain ⟨more, ending, comment⟩ := read_ending line.comment
  have spelling : line.text.toList = line.type.text.toList ++ ' ' :: (line.name.toList ++
      ([' ', '=', ' '] ++ (line.target.text.toList ++ ';' :: more))) := by
    simp [Line.text, ending]
  have blanks : ∀ c ∈ List.replicate (2 * depth) ' ', decide (c = ' ') = true := by
    intro c member
    rw [(List.mem_replicate.mp member).2]
    rfl
  have unindented := (span_exact (· = ' ') _ line.text.toList blanks fun c head =>
    type_head line.type _ (spelling ▸ head)).2
  obtain ⟨name, afterName⟩ := span_exact (· ≠ ' ') line.name.toList
    ([' ', '=', ' '] ++ (line.target.text.toList ++ ';' :: more))
    (fun c member => by simp [(plain_char plain member).1]) (fun c head => by cases head; rfl)
  have assigned : [' ', '=', ' '].isPrefixOf? ([' ', '=', ' '] ++
      (line.target.text.toList ++ ';' :: more)) = some (line.target.text.toList ++ ';' :: more) :=
    List.isPrefixOf?_eq_some_iff_append_eq.mpr rfl
  rw [Line.read?, indentation, String.toList_append, String.toList_ofList, unindented, spelling,
    read_type]
  simp only [Option.bind_eq_bind, Option.bind_some, afterName, assigned, name,
    read_access plainBase, comment, String.ofList_toList]
  rfl

/-- A declaration is written as the line that a reader of the program sees. -/
theorem text_of_line {statement : Statement} {line : Line}
    (declares : statement.line? = some line) : statement.text = line.text := by
  cases statement with
  | reference kind name target =>
    cases declares
    rfl
  | leaf type name target value =>
    cases declares
    change type.text ++ " " ++ name ++ " = " ++ target.text ++ "; // " ++ value.compact =
      type.text ++ " " ++ name ++ " = " ++ target.text ++ ("; // " ++ value.compact)
    rw [String.append_assoc]
  | bufferSize | buffer | document | parse => cases declares

end JsonUnpack
