import JsonUnpack.Proofs.LineReading

/-! What a member expression tells about the way it came about. It is taken apart from left to
right: a bracket ends the name it starts from, and each step shows where it ends, whatever is in its
key. So two ways that differ anywhere lead to different expressions. -/
namespace JsonUnpack

namespace Place

/-- The place of a child that is reached from the expression of this place. -/
def next (place : Place) : Step → Place
  | .index n => place.element place.access n
  | .key k => place.field place.access k

/-- The place that some steps lead to. -/
def follow (place : Place) (path : List Step) : Place := path.foldl next place

/-- A step is added to the expression, whatever the names are made of. -/
theorem next_access (place : Place) (step : Step) :
    (place.next step).access = place.access.push step := by
  cases step with
  | index n => rfl
  | key k => rfl

/-- The expression at the end of some steps keeps its base and has all steps in order. -/
theorem follow_access (place : Place) (path : List Step) :
    (place.follow path).access = ⟨place.access.base, place.access.steps ++ path⟩ := by
  induction path generalizing place with
  | nil =>
    rw [List.append_nil]
    rfl
  | cons step path ih =>
    change ((place.next step).follow path).access = _
    rw [ih, next_access, Access.push, List.append_assoc, List.singleton_append]

end Place

/-- A member expression is known by its text, as long as there is no bracket in its base. -/
theorem Access.eq_of_text {access other : Access} (plain : '[' ∉ access.base.toList)
    (plain' : '[' ∉ other.base.toList) (same : access.text = other.text) : access = other := by
  have split : ∀ {access : Access}, '[' ∉ access.base.toList →
      access.text.toList.takeWhile (· ≠ '[') = access.base.toList ∧
        Step.readAll? (access.text.toList.dropWhile (· ≠ '[')) = some (access.steps, []) := by
    intro access plain
    obtain ⟨base, steps⟩ := span_exact (· ≠ '[') access.base.toList
      (access.steps.flatMap fun step => step.text.toList)
      (fun c member => decide_eq_true fun bracket => plain (bracket ▸ member))
      (fun c head => decide_eq_false (not_not_intro (steps_head head)))
    rw [Access.text_chars, base, steps, ← List.append_nil (List.flatMap _ _)]
    exact ⟨rfl, read_steps access.steps nofun⟩
  obtain ⟨base, steps⟩ := split plain
  obtain ⟨base', steps'⟩ := split plain'
  rw [same] at base steps
  have bases : access.base = other.base := String.toList_inj.mp (base.symm.trans base')
  have paths : access.steps = other.steps :=
    congrArg Prod.fst (Option.some.inj (steps.symm.trans steps'))
  cases access
  cases other
  cases bases
  cases paths
  rfl

/-- Two member expressions are the same exactly if they start from the same name and follow the same
steps. A key may hold quotes, backslashes, brackets and line breaks or look like an index; and what
the names of variables are made of does not matter. -/
theorem member_expressions_identify_paths {name other : String} (plain : '[' ∉ name.toList)
    (plain' : '[' ∉ other.toList) (stem stem' : Option String) (path path' : List Step) :
    (Place.follow ⟨.ofName name, stem⟩ path).access.text =
        (Place.follow ⟨.ofName other, stem'⟩ path').access.text ↔
      name = other ∧ path = path' := by
  rw [Place.follow_access, Place.follow_access]
  constructor
  · intro same
    have accesses := Access.eq_of_text plain plain' same
    exact ⟨congrArg Access.base accesses, congrArg Access.steps accesses⟩
  · rintro ⟨rfl, rfl⟩
    rfl

theorem member_expressions_identify_paths_of_quoted_index :
    (Place.follow ⟨.ofName "root", some "root_"⟩ [.index 3, .key "\"][\\"]).access.text ≠
      (Place.follow ⟨.ofName "root", none⟩ [.key "3", .key "\"][\\"]).access.text := by
  intro same
  obtain ⟨_, paths⟩ := (member_expressions_identify_paths (by decide) (by decide) _ _ _ _).mp same
  cases paths

end JsonUnpack
