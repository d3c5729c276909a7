import JsonUnpack.Proofs.PlacedVisits

/-! Names that can be taken apart. If all keys on a path are words of letters and all indices single
digits, the name at the end of the path spells the path out, one step after the other; so no two
such paths lead to the same name. -/
namespace JsonUnpack

open Json (Value)

/-- A key of ASCII letters, with at least one. -/
def IsWord (key : String) : Prop := key ≠ "" ∧ ∀ c ∈ key.toList, c.isAlpha = true

/-- A step that shows in a name where it begins and ends: an index of one digit or a word. -/
def Step.Legible : Step → Prop
  | .index n => n < 10
  | .key k => IsWord k

/-- What a legible step adds to a name. -/
def Step.spelling : Step → List Char
  | .index n => [Nat.digitChar n]
  | .key k => '_' :: k.toList

private theorem squeeze_letters {text : List Char} (letters : ∀ c ∈ text, c.isAlpha = true) :
    Name.squeeze false text = text := by
  induction text with
  | nil => rfl
  | cons c rest ih =>
    obtain ⟨letter, later⟩ := List.forall_mem_cons.mp letters
    rw [Name.squeeze, Char.isAlphanum, letter, Bool.true_or, if_pos rfl, ih later]

theorem sanitize_letters {key : String} (letters : ∀ c ∈ key.toList, c.isAlpha = true) :
    Name.sanitize key = key := by
  rw [Name.sanitize, squeeze_letters letters, String.ofList_toList]

private theorem child_spelling (stem : String) {step : Step} (legible : step.Legible) :
    (Name.child (some stem) step).toList = stem.toList ++ step.spelling := by
  cases step with
  | index n => simp [Name.child, Name.element, Step.spelling, Nat.toDigits_of_lt_base legible]
  | key k => simp [Name.child, Name.field, Step.spelling, sanitize_letters legible.2]

/-- Below a stem, a path adds the spelling of its steps to the name. -/
theorem stem_spelling (stem : String) {path : List Step}
    (legible : ∀ step ∈ path, step.Legible) :
    path.foldl (fun stem step => some (Name.child stem step)) (some stem) =
      some (.ofList (stem.toList ++ path.flatMap Step.spelling)) := by
  induction path generalizing stem with
  | nil => simp
  | cons step path ih =>
    obtain ⟨first, later⟩ := List.forall_mem_cons.mp legible
    rw [List.foldl_cons, ih _ later, child_spelling stem first, List.flatMap_cons,
      List.append_assoc]

private theorem spelling_head {step : Step} (legible : step.Legible) :
    ∃ c rest, step.spelling = c :: rest ∧ c.isAlpha = false := by
  cases step with
  | index n =>
    have digits : ∀ n < 10, (Nat.digitChar n).isAlpha = false := by decide
    exact ⟨_, [], rfl, digits n legible⟩
  | key k => exact ⟨'_', k.toList, rfl, rfl⟩

private theorem letters_end {path : List Step} (legible : ∀ step ∈ path, step.Legible) :
    ∀ c, (path.flatMap Step.spelling).head? = some c → c.isAlpha = false := by
  intro c head
  cases path with
  | nil => cases head
  | cons step path =>
    obtain ⟨first, rest, spelling, other⟩ := spelling_head (legible step List.mem_cons_self)
    rw [List.flatMap_cons, spelling] at head
    cases head
    exact other

private theorem digitChar_inj {n m : Nat} (small : n < 10) (small' : m < 10)
    (same : Nat.digitChar n = Nat.digitChar m) : n = m := by
  have all : ∀ n < 10, ∀ m < 10, Nat.digitChar n = Nat.digitChar m → n = m := by decide
  exact all n small m small' same

private theorem digitChar_ne_underscore {n : Nat} (small : n < 10) : Nat.digitChar n ≠ '_' := by
  have all : ∀ n < 10, Nat.digitChar n ≠ '_' := by decide
  exact all n small

private theorem first_step {step other : Step} {path further : List Step}
    (legible : ∀ s ∈ step :: path, s.Legible) (legible' : ∀ s ∈ other :: further, s.Legible)
    (same : step.spelling ++ path.flatMap Step.spelling =
      other.spelling ++ further.flatMap Step.spelling) :
    step = other ∧ path.flatMap Step.spelling = further.flatMap Step.spelling := by
  obtain ⟨first, later⟩ := List.forall_mem_cons.mp legible
  obtain ⟨first', later'⟩ := List.forall_mem_cons.mp legible'
  cases step with
  | index n =>
    cases other with
    | index m =>
      obtain ⟨digit, rest⟩ := List.cons.inj same
      exact ⟨congrArg Step.index (digitChar_inj first first' digit), rest⟩
    | key k => exact absurd (List.cons.inj same).1 (digitChar_ne_underscore first)
  | key k =>
    cases other with
    | index m => exact absurd (List.cons.inj same).1.symm (digitChar_ne_underscore first')
    | key l =>
      obtain ⟨word, rest⟩ := span_exact Char.isAlpha k.toList _ first.2 (letters_end later)
      obtain ⟨word', rest'⟩ := span_exact Char.isAlpha l.toList _ first'.2 (letters_end later')
      have after : k.toList ++ path.flatMap Step.spelling =
          l.toList ++ further.flatMap Step.spelling := (List.cons.inj same).2
      rw [after] at word rest
      have keys : k = l := String.toList_inj.mp (word.symm.trans word')
      exact ⟨congrArg Step.key keys, rest.symm.trans rest'⟩

/-- A path of legible steps is read off its spelling. -/
theorem path_of_spelling {path other : List Step} (legible : ∀ step ∈ path, step.Legible)
    (legible' : ∀ step ∈ other, step.Legible)
    (same : path.flatMap Step.spelling = other.flatMap Step.spelling) : path = other := by
  induction path generalizing other with
  | nil =>
    cases other with
    | nil => rfl
    | cons step other =>
      obtain ⟨c, rest, spelling, _⟩ := spelling_head (legible' step List.mem_cons_self)
      rw [List.flatMap_cons, spelling] at same
      cases same
  | cons step path ih =>
    cases other with
    | nil =>
      obtain ⟨c, rest, spelling, _⟩ := spelling_head (legible step List.mem_cons_self)
      rw [List.flatMap_cons, spelling] at same
      cases same
    | cons next other =>
      rw [List.flatMap_cons, List.flatMap_cons] at same
      obtain ⟨rfl, rest⟩ := first_step legible legible' same
      rw [ih (List.forall_mem_cons.mp legible).2 (List.forall_mem_cons.mp legible').2 rest]

namespace Json.Value

variable {document : Value} {path : List Step} {node : Value}

theorem nameAt_array {items : List Value} (legible : ∀ step ∈ path, step.Legible) :
    ((array items).nameAt path).toList =
      Program.rootArrayStem.toList ++ path.flatMap Step.spelling := by
  rw [nameAt, stemAt, rootStem, stem_spelling _ legible, Option.getD_some, String.toList_ofList]

private theorem nameAt_object {members : List (String × Value)}
    (found : (object members).at? path = some node)
    (stem : ((object members).stemAt path).isSome) (legible : ∀ step ∈ path, step.Legible) :
    '_' :: ((object members).nameAt path).toList = path.flatMap Step.spelling := by
  cases path with
  | nil => cases stem
  | cons step path =>
    cases step with
    | index n => cases found
    | key k =>
      obtain ⟨first, later⟩ := List.forall_mem_cons.mp legible
      have name : Name.child none (.key k) = k := sanitize_letters first.2
      have below : (object members).stemAt (.key k :: path) =
          path.foldl (fun stem step => some (Name.child stem step))
            (some (Name.child none (.key k))) := rfl
      rw [nameAt, below, name, stem_spelling k later, Option.getD_some, String.toList_ofList]
      rfl

/-- Two nodes at the end of legible paths have different names. -/
theorem path_of_name {other : List Step} {node' : Value}
    (found : document.at? path = some node) (found' : document.at? other = some node')
    (stem : (document.stemAt path).isSome) (stem' : (document.stemAt other).isSome)
    (legible : ∀ step ∈ path, step.Legible) (legible' : ∀ step ∈ other, step.Legible)
    (same : document.nameAt path = document.nameAt other) : path = other := by
  have chars := congrArg String.toList same
  cases document with
  | null | scalar =>
    cases path with
    | nil => cases stem
    | cons step path => cases step <;> cases found
  | array items =>
    rw [nameAt_array legible, nameAt_array legible'] at chars
    exact path_of_spelling legible legible' (List.append_cancel_left chars)
  | object members =>
    apply path_of_spelling legible legible'
    rw [← nameAt_object found stem legible, ← nameAt_object found' stem' legible', chars]

end Json.Value

end JsonUnpack
