import JsonUnpack.Proofs.ReferenceScopes

/-! References only abbreviate. Putting the right-hand side of a reference in place of its name,
until the variable of the document is reached, gives for each scalar the path from the root of the
document; so two programs that take the same nodes differ in their references only. -/
namespace JsonUnpack

open Json (Value)
open Program (rootKind)

/-- Whether a line declares a variable for an array or object. -/
def Line.isReference (line : Line) : Bool :=
  match line.type with
  | .reference _ => true
  | .leaf _ => false

/-- A member expression with its base replaced by the right-hand side of the most recent reference
of that name, and so on until it starts from the variable of the document. The lines before it are
given latest first. -/
def Access.expand : List Line → Access → Access
  | [], access => access
  | line :: older, access =>
    if access.base = Name.root then access
    else if line.isReference ∧ line.name = access.base then
      expand older ⟨line.target.base, line.target.steps ++ access.steps⟩
    else expand older access

/-- The lines that declare a variable for a scalar, each with its member expression expanded. The
lines before them are given latest first. -/
def expandedLeaves (older : List Line) : List Line → List Line
  | [] => []
  | line :: rest =>
    if line.isReference then expandedLeaves (line :: older) rest
    else { line with target := line.target.expand older } :: expandedLeaves (line :: older) rest

private theorem expandedLeaves_reference {line : Line} (reference : line.isReference = true)
    (older rest : List Line) :
    expandedLeaves older (line :: rest) = expandedLeaves (line :: older) rest := by
  rw [expandedLeaves, if_pos reference]

private theorem expandedLeaves_leaf {line : Line} (leaf : line.isReference = false)
    (older rest : List Line) : expandedLeaves older (line :: rest) =
      { line with target := line.target.expand older } :: expandedLeaves (line :: older) rest := by
  rw [expandedLeaves, leaf, if_neg Bool.false_ne_true]

namespace Access

theorem expand_root (older : List Line) (steps : List Step) :
    (Access.mk Name.root steps).expand older = ⟨Name.root, steps⟩ := by
  cases older with
  | nil => rfl
  | cons line older => exact if_pos rfl

theorem expand_append (older : List Line) (access : Access) (more : List Step) :
    (Access.mk access.base (access.steps ++ more)).expand older =
      ⟨(access.expand older).base, (access.expand older).steps ++ more⟩ := by
  induction older generalizing access with
  | nil => rfl
  | cons line older ih =>
    rw [expand, expand]
    split
    · rfl
    · split
      · rw [← List.append_assoc]
        exact ih ⟨line.target.base, line.target.steps ++ access.steps⟩
      · exact ih access

/-- Lines that declare other names do not matter. -/
theorem expand_past {lines : List Line} (older : List Line) {access : Access}
    (others : ∀ line ∈ lines, line.name ≠ access.base) :
    access.expand (lines ++ older) = access.expand older := by
  induction lines with
  | nil => rfl
  | cons line lines ih =>
    have tail := ih fun other member => others other (List.mem_cons_of_mem line member)
    have other : ¬(line.isReference = true ∧ line.name = access.base) := fun same =>
      others line List.mem_cons_self same.2
    rw [List.cons_append, expand, if_neg other]
    split
    · rename_i root
      obtain ⟨base, steps⟩ := access
      cases root
      exact (expand_root older steps).symm
    · exact tail

end Access

namespace Settings

variable {settings : Settings} {document : Value}

/-- With all the lines before it, the member expression for a reached node expands to the path from
the root of the document. -/
theorem expand_target (composite : (rootKind document).isSome) (distinct : document.KeysDistinct)
    (unshadowed : document.child? (.key Name.root) = none)
    {older newer : List (List Step × Value)} {path : List Step} {node : Value}
    (split : settings.reachedNodes document = older ++ (path, node) :: newer) :
    (settings.targetAt document path).expand
      (older.filterMap (settings.lineAt? document)).reverse = ⟨Name.root, path⟩ := by
  rcases reference_in_scope composite distinct split with target |
    ⟨front, rest, earlier, parent, between, kind, whole, further, same, found, target, reference,
      others⟩
  · rw [target, Access.expand_root]
  · have upper : settings.reachedNodes document =
        earlier ++ (front, parent) :: (between ++ (path, node) :: newer) := by
      rw [split, same, List.append_assoc, List.cons_append]
    have lines : (older.filterMap (settings.lineAt? document)).reverse =
        (between.filterMap (settings.lineAt? document)).reverse ++
          ⟨.reference kind, document.nameAt front, settings.targetAt document front, none⟩ ::
            (earlier.filterMap (settings.lineAt? document)).reverse := by
      rw [same, List.filterMap_append, List.filterMap_cons_some reference, List.reverse_append,
        List.reverse_cons, List.append_assoc]
      rfl
    have ne_root := declared_ne_root composite unshadowed found reference
    have ih := expand_target composite distinct unshadowed upper
    rw [target, lines, Access.expand_past, Access.expand, if_neg ne_root, if_pos ⟨rfl, rfl⟩,
      Access.expand_append, ih, whole]
    intro line member
    obtain ⟨n, inside, declared⟩ := List.mem_filterMap.mp (List.mem_reverse.mp member)
    rw [(line_at_eq declared).1]
    exact others n inside
termination_by path.length
decreasing_by
  rw [whole, List.length_append]
  have := List.length_pos_iff.mpr further
  omega

/-- The line for a scalar if nothing above it had a variable. -/
def leafAt? (document : Value) (node : List Step × Value) : Option Line :=
  match node.2 with
  | .scalar s =>
    some ⟨.leaf (.ofScalar s), document.nameAt node.1, ⟨Name.root, node.1⟩, some s.compact⟩
  | _ => none

theorem expanded_leaves (settings : Settings) (composite : (rootKind document).isSome)
    (distinct : document.KeysDistinct) (unshadowed : document.child? (.key Name.root) = none)
    (older newer : List (List Step × Value))
    (split : settings.reachedNodes document = older ++ newer) :
    expandedLeaves (older.filterMap (settings.lineAt? document)).reverse
      (newer.filterMap (settings.lineAt? document)) = newer.filterMap (leafAt? document) := by
  induction newer generalizing older with
  | nil => rfl
  | cons node newer ih =>
    have next := ih (older ++ [node]) (by rw [split, List.append_assoc, List.singleton_append])
    rw [List.filterMap_append, List.reverse_append] at next
    cases declared : settings.lineAt? document node with
    | none =>
      have unlisted : leafAt? document node = none := by
        obtain ⟨path, v⟩ := node
        cases v with
        | scalar s => cases declared
        | null | array | object => rfl
      rw [List.filterMap_cons_none declared, List.filterMap_cons_none unlisted]
      rw [List.filterMap_cons_none declared] at next
      exact next
    | some line =>
      rw [List.filterMap_cons_some declared] at next ⊢
      rcases line_at_cases declared with ⟨s, leaf, rfl⟩ | ⟨kind, large, _, rfl⟩
      · have listed : leafAt? document node = some ⟨.leaf (.ofScalar s), document.nameAt node.1,
            ⟨Name.root, node.1⟩, some s.compact⟩ := by
          rw [leafAt?, leaf]
        rw [List.filterMap_cons_some listed, expandedLeaves_leaf rfl,
          expand_target composite distinct unshadowed split]
        exact congrArg _ next
      · have unlisted : leafAt? document node = none := by
          rw [leafAt?]
          split
          · rename_i s leaf
            rw [leaf] at large
            cases large
          · rfl
        rw [List.filterMap_cons_none unlisted, expandedLeaves_reference rfl]
        exact next

end Settings

namespace Json.Value

/-- An array has no more elements than that. -/
@[simp] def ownElementsWithin (limit : Nat) : Value → Prop
  | array items => items.length ≤ limit
  | _ => True

/-- No array anywhere in the value has more elements than that. -/
def ArraysWithin (limit : Nat) (v : Value) : Prop := v.Every (ownElementsWithin limit)

end Json.Value

namespace Settings

variable {settings : Settings} {document : Value}

private theorem reached_of_at? (within : document.ArraysWithin settings.maxNamedArrayElements.toNat)
    {path : List Step} {node : Value} (found : document.at? path = some node) :
    settings.reached document path = true := by
  induction path using List.reverseRecOn generalizing node with
  | nil => rfl
  | append_singleton path step ih =>
    rw [Value.at?_append] at found
    obtain ⟨parent, upper, below⟩ := Option.bind_eq_some_iff.mp found
    obtain ⟨child, leads, _⟩ := Option.bind_eq_some_iff.mp below
    rw [reached_append, ih upper, Bool.true_and]
    cases step with
    | key k => rfl
    | index n =>
      cases parent with
      | null | scalar | object => cases leads
      | array items =>
        have short := within (path, .array items) (Value.mem_nodes_of_at? upper)
        have inside := (List.getElem?_eq_some_iff.mp leads).1
        simp only [Value.ownElementsWithin] at short
        simp only [passes, Bool.or_eq_true, decide_eq_true_eq]
        omega

/-- With no array cut off, every node is reached. -/
theorem reached_nodes_eq (distinct : document.KeysDistinct)
    (within : document.ArraysWithin settings.maxNamedArrayElements.toNat) :
    settings.reachedNodes document = document.nodes [] :=
  List.filter_eq_self.mpr fun _ member =>
    reached_of_at? within (Value.at?_of_mem_nodes distinct member)

end Settings

/-- Two programs for a document that cut off none of its arrays declare the same scalars in the same
order, with the same types, names and comments, and read them from the same nodes: with references
expanded, their member expressions are the same and start from the document. The lines are written
as they are read, so this holds of their text as well. -/
theorem flattening_only_abbreviates (settings other : Settings) (bufferSize : String)
    {document : Json.Document} (composite : (rootKind document).isSome)
    (unshadowed : document.value.child? (.key Name.root) = none)
    (within : document.value.ArraysWithin settings.maxNamedArrayElements.toNat)
    (withinOther : document.value.ArraysWithin other.maxNamedArrayElements.toNat) :
    ∃ lines otherLines,
      Program.Declares settings bufferSize document lines ∧
      Program.Declares other bufferSize document otherLines ∧
      expandedLeaves [] lines = expandedLeaves [] otherLines ∧
      ∀ leaf ∈ expandedLeaves [] lines, leaf.target.base = Name.root := by
  have distinct := document.distinct
  have all := Settings.reached_nodes_eq distinct within
  have otherAll := Settings.reached_nodes_eq distinct withinOther
  have leaves := Settings.expanded_leaves settings composite distinct unshadowed [] _ all
  have otherLeaves := Settings.expanded_leaves other composite distinct unshadowed [] _ otherAll
  refine ⟨_, _, Settings.program_declares bufferSize composite distinct,
    Settings.program_declares bufferSize composite distinct, ?_, ?_⟩
  · rw [all, otherAll]
    exact leaves.trans otherLeaves.symm
  · rw [all]
    intro leaf member
    rw [show expandedLeaves [] _ = _ from leaves] at member
    obtain ⟨⟨path, node⟩, _, listed⟩ := List.mem_filterMap.mp member
    cases node with
    | scalar s =>
      cases listed
      rfl
    | null | array | object => cases listed

theorem flattening_only_abbreviates_of_nested_object :
    ∃ lines otherLines,
      Program.Declares ⟨0, 2, 10⟩ "64"
        (.object [("a", .object [("b", .array [.scalar (.bool true), .null])])]) lines ∧
      Program.Declares ⟨9, 3, 0⟩ "64"
        (.object [("a", .object [("b", .array [.scalar (.bool true), .null])])]) otherLines ∧
      expandedLeaves [] lines = expandedLeaves [] otherLines ∧
      ∀ leaf ∈ expandedLeaves [] lines, leaf.target.base = Name.root :=
  @flattening_only_abbreviates _ _ _ ⟨_, by simp⟩ rfl rfl (by simp [Value.ArraysWithin])
    (by simp [Value.ArraysWithin])

end JsonUnpack
