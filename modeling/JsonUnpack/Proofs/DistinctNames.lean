import JsonUnpack.Proofs.DeclaredNames
import JsonUnpack.Proofs.NameDecoding

/-! When no name is declared twice. Keys are words of letters, and no array is followed past its
tenth element, whether it has a variable or not; then every path that is reached is legible in the
name it leads to. The four names of the preamble stay apart as long as no member of the root is
called like one of them. -/
namespace JsonUnpack

open Json (Value)
open Program (rootKind)

namespace Settings

variable {settings : Settings} {document : Value}

private theorem not_nameless (words : document.KeysAll IsWord) {path : List Step} {node : Value}
    (found : document.at? path = some node) (stem : (document.stemAt path).isSome) :
    document.nameless path = false := by
  refine decide_eq_false ?_
  rintro ⟨object, rfl | rfl⟩
  · cases document with
    | null | scalar | array => cases object
    | object members => cases stem
  · exact (Value.key_of_path words found List.mem_cons_self).1 rfl

private theorem named_array {path : List Step} {items : List Value}
    (words : document.KeysAll IsWord) (found : document.at? path = some (.array items)) :
    settings.named document path = decide (settings.maxInlineChildren.toNat < items.length) := by
  have stem : (document.stemAt path).isSome := by
    cases held : document.stemAt path with
    | some stem => rfl
    | none =>
      cases Value.stemAt_eq_none held
      cases found
      cases held
  rw [named, found, Option.any_some, not_nameless words found stem, Value.length_children_array]
  simp

/-- Where arrays are followed to ten elements at most, reached paths are legible. -/
theorem legible_of_reached (words : document.KeysAll IsWord)
    (inline : settings.maxInlineChildren.toNat ≤ 10)
    (taken : settings.maxNamedArrayElements.toNat ≤ 10) {path : List Step} {node : Value}
    (found : document.at? path = some node) (reached : settings.reached document path = true) :
    ∀ step ∈ path, step.Legible := by
  intro step member
  cases step with
  | key k => exact Value.key_of_path words found member
  | index n =>
    obtain ⟨front, rest, rfl⟩ := List.append_of_mem member
    obtain ⟨parent, child, upper, leads⟩ := Value.at?_split found
    cases parent with
    | null | scalar | object => cases leads
    | array items =>
      have inside := (List.getElem?_eq_some_iff.mp leads).1
      rw [← List.singleton_append, ← List.append_assoc] at reached
      have passes := reached_of_append reached
      rw [reached_append, Bool.and_eq_true, Settings.passes, named_array words upper] at passes
      have bound := passes.2
      simp only [Bool.or_eq_true, Bool.not_eq_true', decide_eq_false_iff_not,
        decide_eq_true_eq] at bound
      change n < 10
      omega

private theorem name_ne_empty (composite : (rootKind document).isSome)
    (words : document.KeysAll IsWord) {path : List Step} {node : Value}
    (found : document.at? path = some node) (stem : (document.stemAt path).isSome) :
    document.nameAt path ≠ "" := by
  have nonempty := Value.stemAt_any_ne_empty composite path
  rw [not_nameless words found stem] at nonempty
  obtain ⟨name, held⟩ := Option.isSome_iff_exists.mp stem
  rw [held, Option.any_some] at nonempty
  rw [Value.nameAt, held]
  exact of_decide_eq_true nonempty

/-- No node takes a name of the program's own, unless a member of the root has it as its key. -/
theorem name_not_own (free : ∀ name ∈ Program.ownNames, document.child? (.key name) = none)
    {path : List Step} {node : Value} (found : document.at? path = some node)
    (stem : (document.stemAt path).isSome) : document.nameAt path ∉ Program.ownNames := by
  intro own
  rw [Program.path_of_own_name own found stem, Value.at?, free _ own] at found
  cases found

/-- What makes the names of a program legible: words of letters as keys, and no index past the
tenth. -/
structure NamesLegible (settings : Settings) (document : Value) : Prop where
  composite : (rootKind document).isSome
  distinct : document.KeysDistinct
  words : document.KeysAll IsWord
  inline : settings.maxInlineChildren.toNat ≤ 10
  taken : settings.maxNamedArrayElements.toNat ≤ 10

section

variable (well : NamesLegible settings document) {node : List Step × Value} {line : Line}
include well

private theorem declared_node (member : node ∈ settings.reachedNodes document)
    (declared : settings.lineAt? document node = some line) :
    document.at? node.1 = some node.2 ∧ (document.stemAt node.1).isSome ∧
      ∀ step ∈ node.1, step.Legible := by
  obtain ⟨found, stem, _⟩ := name_of_declared well.composite well.distinct member declared
  have reached := (List.mem_filter.mp member).2
  exact ⟨found, stem, legible_of_reached well.words well.inline well.taken found reached⟩

private theorem declared_distinct {other : List Step × Value} {line' : Line}
    (member : node ∈ settings.reachedNodes document)
    (member' : other ∈ settings.reachedNodes document)
    (declared : settings.lineAt? document node = some line)
    (declared' : settings.lineAt? document other = some line') (different : node.1 ≠ other.1) :
    line.name ≠ line'.name := by
  obtain ⟨found, stem, legible⟩ := declared_node well member declared
  obtain ⟨found', stem', legible'⟩ := declared_node well member' declared'
  rw [(line_at_eq declared).1, (line_at_eq declared').1]
  intro same
  exact different (Value.path_of_name found found' stem stem' legible legible' same)

/-- The declarations of a well-named document have different names. -/
theorem nodup_line_names : (((settings.reachedNodes document).filterMap
    (settings.lineAt? document)).map Line.name).Nodup := by
  have paths : (settings.reachedNodes document).Pairwise fun a b => a.1 ≠ b.1 :=
    (Value.paths_distinct well.distinct []).filter _
  rw [List.Nodup, List.pairwise_map, List.pairwise_filterMap]
  refine paths.imp_of_mem ?_
  intro a b member member' different line declared line' declared'
  exact declared_distinct well member member' declared declared' different

end

end Settings

/-- A program whose document is well named declares no variable twice. Its keys are words of
letters, those of the root are none of the names that the program declares anyway, and the settings
keep all indices to a single digit. -/
theorem declared_names_distinct (settings : Settings) (bufferSize : String)
    {document : Json.Document} (composite : (rootKind document).isSome)
    (words : document.value.KeysAll IsWord)
    (free : ∀ name ∈ Program.ownNames, document.value.child? (.key name) = none)
    (inline : settings.maxInlineChildren.toNat ≤ 10)
    (taken : settings.maxNamedArrayElements.toNat ≤ 10) :
    ∃ lines, Program.Declares settings bufferSize document lines ∧
      Program.declaredNames settings bufferSize document =
        ["bufferSize", "jsonBuffer", "json", "root"] ++ lines.map Line.name ∧
      (Program.declaredNames settings bufferSize document).Nodup := by
  have well : Settings.NamesLegible settings document :=
    ⟨composite, document.distinct, words, inline, taken⟩
  have declares : Program.Declares settings bufferSize document _ :=
    Settings.program_declares bufferSize composite document.distinct
  have names := Program.declaredNames_eq declares (by
    intro line member
    obtain ⟨node, reached, declared⟩ := List.mem_filterMap.mp member
    obtain ⟨found, stem, legible⟩ := Settings.declared_node well reached declared
    rw [(Settings.line_at_eq declared).1]
    exact ⟨Value.plain_nameAt document.value node.1,
      Settings.name_ne_empty composite words found stem⟩)
  refine ⟨_, declares, names, ?_⟩
  rw [names, List.nodup_append]
  refine ⟨by decide, Settings.nodup_line_names well, ?_⟩
  rintro own isOwn name member rfl
  obtain ⟨line, declaration, rfl⟩ := List.mem_map.mp member
  obtain ⟨node, reached, declared⟩ := List.mem_filterMap.mp declaration
  obtain ⟨found, stem, _⟩ := Settings.declared_node well reached declared
  rw [(Settings.line_at_eq declared).1] at isOwn
  exact Settings.name_not_own free found stem isOwn

theorem declared_names_distinct_of_array_in_object :
    (Program.declaredNames ⟨1, 10, 10⟩ "64"
      (.object [("a", .array [.scalar (.bool true), .object [("b", .null), ("bc", .ofString "x")]]),
        ("ab", .array [.array [.scalar (.bool false)]])])).Nodup := by
  obtain ⟨_, _, _, nodup⟩ := @declared_names_distinct ⟨1, 10, 10⟩ "64"
    ⟨.object
      [("a", .array [.scalar (.bool true), .object [("b", .null), ("bc", .ofString "x")]]),
        ("ab", .array [.array [.scalar (.bool false)]])], by simp [Value.ofString]⟩
    rfl (by simp [Value.KeysAll, IsWord, Value.ofString]) (by decide) (by decide) (by decide)
  exact nodup

end JsonUnpack
