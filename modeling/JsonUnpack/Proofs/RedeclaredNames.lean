import JsonUnpack.Proofs.DeclaredNames

/-! When a declaration takes one of the names that a program has declared on its own account.
Nothing guards these names, so a member of the root object that is called like one of them takes it
over. There is no other way: every other name holds an underscore or a digit, or is the key of
another member. -/
namespace JsonUnpack

open Json (Value)
open Program (rootKind)

namespace Settings

/-- Whether a member of the root object gets a variable: a scalar does, and an array or object does
if it has too many children to go without one. -/
def declaresMember (settings : Settings) : Value → Bool
  | .null => false
  | .scalar _ => true
  | .array items => settings.maxInlineChildren.toNat < items.length
  | .object members => settings.maxInlineChildren.toNat < members.length

variable {settings : Settings} {document : Value} {key : String} {v : Value}

private theorem at_member (held : document.child? (.key key) = some v) :
    document.at? [.key key] = some v := by
  rw [Value.at?, held]
  rfl

private theorem named_member (nonempty : key ≠ "") (held : document.child? (.key key) = some v) :
    settings.named document [.key key] =
      decide (settings.maxInlineChildren.toNat < v.children.length) := by
  have called : document.nameless [.key key] = false := by simp [Value.nameless, nonempty]
  rw [named, at_member held, Option.any_some, called, Bool.not_false, Bool.and_true]

/-- Every member of the root object is reached. -/
theorem reached_member (held : document.child? (.key key) = some v) :
    ([.key key], v) ∈ settings.reachedNodes document :=
  List.mem_filter.mpr ⟨Value.mem_nodes_of_at? (at_member held), rfl⟩

/-- A member of the root object has a declaration if it gets a variable. -/
theorem declared_member (nonempty : key ≠ "") (held : document.child? (.key key) = some v) :
    (settings.lineAt? document ([.key key], v)).isSome = settings.declaresMember v := by
  have named := @named_member settings document key v nonempty held
  cases v with
  | null => rfl
  | scalar s => rfl
  | array items =>
    rw [Value.length_children_array] at named
    rw [lineAt?, statementAt?, declaresMember, ← named]
    cases settings.named document [.key key] <;> rfl
  | object members =>
    rw [Value.length_children_object] at named
    rw [lineAt?, statementAt?, declaresMember, ← named]
    cases settings.named document [.key key] <;> rfl

end Settings

/-- Only an object has members, and the name of a member of the root is its sanitized key. -/
theorem Json.Value.nameAt_member {document : Value} {key : String} {v : Value}
    (held : document.child? (.key key) = some v) :
    rootKind document = some .object ∧ document.nameAt [.key key] = Name.sanitize key := by
  cases document with
  | null | scalar | array => cases held
  | object members => exact ⟨rfl, rfl⟩

/-- A program declares a name of its own preamble again exactly if the root is an object with a
member of that very name, and the member gets a variable. -/
theorem own_name_redeclared_iff (settings : Settings) (bufferSize : String)
    (document : Json.Document) :
    ∃ lines, Program.Declares settings bufferSize document lines ∧
      ∀ name ∈ ["bufferSize", "jsonBuffer", "json", "root"],
        (∃ line ∈ lines, line.name = name) ↔
          ∃ v, document.value.child? (.key name) = some v ∧ settings.declaresMember v = true := by
  obtain ⟨document, distinct⟩ := document
  obtain ⟨lines, declares, declared⟩ := Settings.declared_lines settings bufferSize distinct
  have nonempty : ∀ name ∈ Program.ownNames, name ≠ "" := by decide
  have word : ∀ name ∈ Program.ownNames, Name.sanitize name = name := by decide
  refine ⟨lines, declares, ?_⟩
  intro name own
  constructor
  · rintro ⟨line, member, called⟩
    obtain ⟨composite, ⟨path, node⟩, reached, declaration⟩ := (declared line).mp member
    obtain ⟨found, stem, same⟩ := Settings.name_of_declared composite distinct reached declaration
    have taken : document.nameAt path = name := same.symm.trans called
    have only := Program.path_of_own_name (taken ▸ own) found stem
    rw [taken] at only
    subst only
    obtain ⟨child, held, here⟩ := Option.bind_eq_some_iff.mp found
    cases here
    refine ⟨node, held, ?_⟩
    rw [← Settings.declared_member (nonempty name own) held]
    exact Option.isSome_of_eq_some declaration
  · rintro ⟨v, held, binds⟩
    obtain ⟨object, called⟩ := Value.nameAt_member held
    rw [← Settings.declared_member (nonempty name own) held] at binds
    obtain ⟨line, declaration⟩ := Option.isSome_iff_exists.mp binds
    refine ⟨line, (declared line).mpr ⟨?_, _, Settings.reached_member held, declaration⟩, ?_⟩
    · rw [object]
      rfl
    · rw [(Settings.line_at_eq declaration).1, called, word name own]

theorem own_name_redeclared_iff_of_json_and_root :
    ∃ lines, Program.Declares .standard "64" (.object
        [("json", .array [.null, .null, .null]), ("root", .null), ("a", .ofString "root")]) lines ∧
      (∃ line ∈ lines, line.name = "json") ∧ ¬ ∃ line ∈ lines, line.name = "root" := by
  obtain ⟨lines, declares, redeclared⟩ := own_name_redeclared_iff .standard "64" ⟨.object
      [("json", .array [.null, .null, .null]), ("root", .null), ("a", .ofString "root")],
    by simp [Value.ofString]⟩
  refine ⟨lines, declares, (redeclared "json" (by decide)).mpr ⟨_, rfl, rfl⟩, ?_⟩
  intro taken
  obtain ⟨v, held, binds⟩ := (redeclared "root" (by decide)).mp taken
  cases held
  cases binds

/-- A member of the root object called `root` takes over the name of the document. -/
theorem root_member_redeclares_root :
    (Value.object [("root", .scalar (.bool true))]).KeysDistinct ∧
      ∃ lines, Program.Declares .standard "64" (.object [("root", .scalar (.bool true))]) lines ∧
        ∃ line ∈ lines, line.name ∈ ["bufferSize", "jsonBuffer", "json", "root"] := by
  have distinct : (Value.object [("root", .scalar (.bool true))]).KeysDistinct := by
    simp
  obtain ⟨lines, declares, declared⟩ := Settings.declared_lines .standard "64" distinct
  refine ⟨distinct, lines, declares, ⟨.leaf .bool, "root", ⟨"root", [.key "root"]⟩, some "true"⟩,
    (declared _).mpr ⟨rfl, ([.key "root"], .scalar (.bool true)), Settings.reached_member rfl, rfl⟩,
    ?_⟩
  decide

end JsonUnpack
