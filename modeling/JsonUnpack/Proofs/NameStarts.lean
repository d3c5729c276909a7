import JsonUnpack.Proofs.ReferenceScopes

/-! How declared names start. A name is only ever continued on the way down, so its first character
is settled at the top: by the stem of an array at the root, or by the key of a member of the root
object. Keys further down, whatever they are, add letters, digits and underscores after it. -/
namespace JsonUnpack

open Json (Value)

/-- A text with a first character that is no digit. -/
def StartsName (text : String) : Prop := ∃ c, text.toList.head? = some c ∧ c.isDigit = false

instance (text : String) : Decidable (StartsName text) :=
  decidable_of_iff (text.toList.head?.any (fun c => !c.isDigit) = true) (by
    rw [StartsName, Option.any_eq_true]
    simp only [Bool.not_eq_true'])

/-- A sanitized key starts with the first character of the key, or with an underscore for it. -/
theorem starts_sanitize {key : String} (starts : StartsName key) :
    StartsName (Name.sanitize key) := by
  obtain ⟨c, head, notDigit⟩ := starts
  obtain ⟨rest, chars⟩ := List.head?_eq_some_iff.mp head
  rw [StartsName, Name.sanitize, String.toList_ofList, chars, Name.squeeze]
  by_cases alphanum : c.isAlphanum = true
  · rw [if_pos alphanum]
    exact ⟨c, rfl, notDigit⟩
  · rw [if_neg alphanum]
    exact ⟨'_', rfl, rfl⟩

theorem starts_of_prefix {stem name : String} (starts : StartsName stem)
    (continued : stem.toList <+: name.toList) : StartsName name := by
  obtain ⟨c, head, notDigit⟩ := starts
  obtain ⟨rest, chars⟩ := continued
  refine ⟨c, ?_, notDigit⟩
  rw [← chars, List.head?_append, head, Option.some_or]

namespace Json.Value

variable {document : Value}

/-- The name of a node goes on from the name of any node above it that has a stem. -/
theorem nameAt_continues {path : List Step} (stem : (document.stemAt path).isSome)
    (rest : List Step) :
    (document.nameAt path).toList <+: (document.nameAt (path ++ rest)).toList := by
  rcases rest with _ | ⟨step, more⟩
  · simp only [List.append_nil, List.prefix_rfl]
  · obtain ⟨c, later, chars, _⟩ := below_nameAt stem step more
    exact ⟨c :: later, chars.symm⟩

/-- Below an array at the root, every name goes on from its stem. -/
theorem nameAt_of_array (items : List Value) (path : List Step) :
    "root_".toList <+: ((array items).nameAt path).toList :=
  @nameAt_continues (array items) [] rfl path

/-- Below an object at the root, a name goes on from the sanitized key of a member. -/
theorem nameAt_of_object {members : List (String × Value)} {path : List Step} {node : Value}
    (found : (object members).at? path = some node)
    (stem : ((object members).stemAt path).isSome) :
    ∃ member ∈ members,
      (Name.sanitize member.1).toList <+: ((object members).nameAt path).toList := by
  rcases path with _ | ⟨_ | k, rest⟩
  · cases stem
  · cases found
  · obtain ⟨child, leads, _⟩ := Option.bind_eq_some_iff.mp found
    obtain ⟨before, after, rfl, _⟩ := List.lookup_eq_some_iff.mp leads
    refine ⟨(k, child), List.mem_append_right before List.mem_cons_self, ?_⟩
    exact @nameAt_continues (object _) [.key k] rfl rest

end Json.Value

/-- The names that a program declares are made of letters, digits and underscores. Those for an
array go on from `root_`. Those for an object start like identifiers as long as the keys of the root
do, whatever the keys further down are. -/
theorem declared_names_are_identifiers (settings : Settings) (bufferSize : String)
    (document : Json.Document) :
    ∃ lines, Program.Declares settings bufferSize document lines ∧
      (∀ line ∈ lines, PlainName line.name) ∧
      (∀ items, document.value = .array items →
        ∀ line ∈ lines, "root_".toList <+: line.name.toList) ∧
      (∀ members, document.value = .object members → (∀ member ∈ members, StartsName member.1) →
        ∀ line ∈ lines, StartsName line.name) := by
  obtain ⟨document, distinct⟩ := document
  obtain ⟨lines, declares, declared⟩ := Settings.declared_lines settings bufferSize distinct
  have named : ∀ line ∈ lines, ∃ path node, document.at? path = some node ∧
      (document.stemAt path).isSome ∧ line.name = document.nameAt path := by
    intro line member
    obtain ⟨composite, node, reached, declaration⟩ := (declared line).mp member
    exact ⟨node.1, node.2, Settings.name_of_declared composite distinct reached declaration⟩
  refine ⟨lines, declares, ?_, ?_, ?_⟩
  · intro line member
    obtain ⟨path, _, _, _, name⟩ := named line member
    rw [name]
    exact Value.plain_nameAt document path
  · rintro items rfl line member
    obtain ⟨path, _, _, _, name⟩ := named line member
    rw [name]
    exact Value.nameAt_of_array items path
  · rintro members rfl keys line member
    obtain ⟨path, node, found, stem, name⟩ := named line member
    obtain ⟨first, inside, continued⟩ := Value.nameAt_of_object found stem
    rw [name]
    exact starts_of_prefix (starts_sanitize (keys first inside)) continued

theorem declared_names_are_identifiers_of_numeric_keys :
    ∃ lines, Program.Declares ⟨0, 4, 10⟩ "64" (.object
        [("é", .object [("1", .array [.scalar (.bool true)]), ("", .ofString "2")])]) lines ∧
      (∀ line ∈ lines, PlainName line.name) ∧ ∀ line ∈ lines, StartsName line.name := by
  obtain ⟨lines, declares, plain, _, starts⟩ := @declared_names_are_identifiers ⟨0, 4, 10⟩ "64"
    ⟨.object [("é", .object [("1", .array [.scalar (.bool true)]), ("", .ofString "2")])],
      by simp [Value.ofString]⟩
  exact ⟨lines, declares, plain, starts _ rfl (by decide)⟩

end JsonUnpack
