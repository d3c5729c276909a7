import JsonUnpack.Proofs.LineReading
import JsonUnpack.Proofs.NodePaths

/-! How names grow along a path. A step adds at least one character to a name, and what it adds
starts with an underscore or a digit; so a name below another is never that name, never a name
above it, and never the name of the whole document. -/
namespace JsonUnpack

/-- The name of a child, one step below a name. -/
def Name.child (stem : Option String) : Step → String
  | .index n => element stem n
  | .key k => field stem (sanitize k)

/-- The place of a child that is reached from `base`. -/
def Place.child (place : Place) (base : Access) (step : Step) : Place :=
  ⟨base.push step, some (Name.child place.stem step)⟩

/-- A name continues another one, as the names of children and their children do. -/
def Below (stem name : String) : Prop :=
  ∃ c rest, name.toList = stem.toList ++ c :: rest ∧ (c = '_' ∨ c.isDigit = true)

theorem below_trans {stem middle name : String} (upper : Below stem middle)
    (lower : Below middle name) : Below stem name := by
  obtain ⟨c, more, middleChars, joint⟩ := upper
  obtain ⟨d, rest, nameChars, _⟩ := lower
  refine ⟨c, more ++ d :: rest, ?_, joint⟩
  rw [nameChars, middleChars, List.append_assoc, List.cons_append]

private theorem length_lt_of_below {stem name : String} (below : Below stem name) :
    stem.toList.length < name.toList.length := by
  obtain ⟨c, rest, chars, _⟩ := below
  rw [chars, List.length_append, List.length_cons]
  omega

theorem not_below_self (name : String) : ¬ Below name name :=
  fun below => Nat.lt_irrefl _ (length_lt_of_below below)

/-- A single word lies below no name. -/
theorem not_below_word {word : String}
    (letters : word.toList.all (fun letter => letter ≠ '_' && !letter.isDigit) = true)
    (stem : String) : ¬ Below stem word := by
  rintro ⟨c, rest, chars, joint⟩
  have member : c ∈ word.toList := by
    rw [chars]
    exact List.mem_append_right _ List.mem_cons_self
  have letter := List.all_eq_true.mp letters c member
  rcases joint with underscore | digit
  · simp [underscore] at letter
  · simp [digit] at letter

theorem child_below (stem : String) (step : Step) : Below stem (Name.child (some stem) step) := by
  cases step with
  | index n =>
    obtain ⟨first, rest, digits, digit⟩ := digits_start n
    exact ⟨first, rest, by simp [Name.child, Name.element, digits], .inr digit⟩
  | key k => exact ⟨'_', (Name.sanitize k).toList, by simp [Name.child, Name.field], .inl rfl⟩

theorem child_ne_empty (stem : String) (step : Step) : Name.child (some stem) step ≠ "" := by
  intro same
  obtain ⟨c, rest, chars, _⟩ := child_below stem step
  rw [same] at chars
  exact absurd chars.symm (by simp)

private theorem squeeze_plain (gap : Bool) (text : List Char) :
    ∀ c ∈ Name.squeeze gap text, c.isAlphanum = true ∨ c = '_' := by
  fun_induction Name.squeeze gap text with
  | case1 =>
    intro c member
    cases member
  | case2 gap c rest alphanum ih =>
    intro d member
    rcases List.mem_cons.mp member with rfl | later
    · exact .inl alphanum
    · exact ih d later
  | case3 _ _ _ ih => exact ih
  | case4 _ _ _ _ _ ih =>
    intro d member
    rcases List.mem_cons.mp member with rfl | later
    · exact .inr rfl
    · exact ih d later

theorem plain_sanitize (key : String) : PlainName (Name.sanitize key) := by
  intro c member
  rw [Name.sanitize, String.toList_ofList] at member
  exact squeeze_plain false key.toList c member

private theorem squeeze_word {text : List Char} (word : '_' ∉ Name.squeeze false text) :
    Name.squeeze false text = text := by
  induction text with
  | nil => rfl
  | cons c rest ih =>
    by_cases alphanum : c.isAlphanum = true
    · rw [Name.squeeze, if_pos alphanum] at word ⊢
      rw [ih fun member => word (List.mem_cons_of_mem _ member)]
    · rw [Name.squeeze, if_neg alphanum] at word
      exact absurd List.mem_cons_self word

/-- A key whose name has no underscore is its own name. -/
theorem sanitize_word {key : String} (word : '_' ∉ (Name.sanitize key).toList) :
    Name.sanitize key = key := by
  rw [Name.sanitize, String.toList_ofList] at word
  rw [Name.sanitize, squeeze_word word, String.ofList_toList]

theorem plain_of_all {name : String}
    (all : name.toList.all (fun c => c.isAlphanum || c = '_') = true) : PlainName name := by
  intro c member
  simpa using List.all_eq_true.mp all c member

theorem plain_root : PlainName Name.root := plain_of_all rfl

theorem plain_child {stem : Option String} (plain : ∀ s ∈ stem, PlainName s) (step : Step) :
    PlainName (Name.child stem step) := by
  cases step with
  | index n =>
    intro c member
    rw [Name.child, Name.element, String.toList_append, Nat.toList_repr] at member
    rcases List.mem_append.mp member with inStem | digit
    · cases stem with
      | none => cases inStem
      | some s => exact plain s rfl c inStem
    · refine .inl ?_
      simp [Char.isAlphanum, digit_of_mem digit]
  | key k =>
    cases stem with
    | none => exact plain_sanitize k
    | some s =>
      intro c member
      simp only [Name.child, Name.field, String.toList_append, List.mem_append] at member
      rcases member with (inStem | underscore) | inKey
      · exact plain s rfl c inStem
      · exact .inr (List.mem_singleton.mp underscore)
      · exact plain_sanitize k c inKey

end JsonUnpack
