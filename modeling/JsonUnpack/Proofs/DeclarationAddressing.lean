import JsonUnpack.Proofs.ReferenceScopes

/-! Executing the declarations of a program on the document itself. A declaration reads its member
expression with the bindings as they are by then and binds its name to the node it finds; what it
finds is there, and is what the declaration says it is. -/
namespace JsonUnpack

open Json (Value)
open Program (rootKind)

/-- What variables are bound to, the latest binding first. -/
abbrev Bindings := List (String × Value)

/-- The node that a member expression reads. -/
def Access.resolve? (bound : Bindings) (access : Access) : Option Value :=
  (bound.lookup access.base).bind fun node => node.at? access.steps

/-- Executes declarations in order and gives the nodes that they bind, unless one of them reads a
variable that is not bound or a child that is not there. -/
def execute? (bound : Bindings) : List Line → Option (List Value)
  | [] => some []
  | line :: rest =>
    (line.target.resolve? bound).bind fun node =>
      (execute? ((line.name, node) :: bound) rest).map fun nodes => node :: nodes

/-- Whether a node is what a line declares: an array or object of that kind, or a scalar of that
type with that text. -/
def Line.Fits (line : Line) (node : Value) : Prop :=
  match line.type with
  | .reference kind => rootKind node = some kind
  | .leaf type => Cpp.LeafType.ofValue? node = some type ∧ line.comment = some node.compact

namespace Settings

variable (settings : Settings) (document : Value)

/-- The bindings that the declarations of some nodes make, in order. -/
def bindings (nodes : List (List Step × Value)) : Bindings :=
  nodes.filterMap fun node => (settings.lineAt? document node).map fun line => (line.name, node.2)

/-- The bindings after the declarations of some nodes. -/
def boundAfter (nodes : List (List Step × Value)) : Bindings :=
  (settings.bindings document nodes).reverse ++ [(Name.root, document)]

variable {settings document}

private theorem bindings_append (nodes more : List (List Step × Value)) :
    settings.bindings document (nodes ++ more) =
      settings.bindings document nodes ++ settings.bindings document more :=
  List.filterMap_append

private theorem name_of_mem_bindings {nodes : List (List Step × Value)} {binding : String × Value}
    (member : binding ∈ settings.bindings document nodes) :
    ∃ node ∈ nodes, ∃ line, settings.lineAt? document node = some line ∧
      binding.1 = document.nameAt node.1 := by
  obtain ⟨node, inside, bound⟩ := List.mem_filterMap.mp member
  obtain ⟨line, declared, rfl⟩ := Option.map_eq_some_iff.mp bound
  exact ⟨node, inside, line, declared, (line_at_eq declared).1⟩

private theorem lookup_past {name : String} {nodes : List (List Step × Value)} (bound : Bindings)
    (others : ∀ node ∈ nodes, ∀ line, settings.lineAt? document node = some line →
      document.nameAt node.1 ≠ name) :
    ((settings.bindings document nodes).reverse ++ bound).lookup name = bound.lookup name := by
  have absent : (settings.bindings document nodes).reverse.lookup name = none := by
    rw [List.lookup_eq_none_iff]
    intro binding member
    obtain ⟨node, inside, line, declared, same⟩ := name_of_mem_bindings (List.mem_reverse.mp member)
    rw [same, bne_iff_ne]
    exact (others node inside line declared).symm
  rw [List.lookup_append, absent, Option.none_or]

/-- With the declarations of all reached nodes before it executed, the member expression for a
reached node reads that node. -/
theorem resolve_target (composite : (rootKind document).isSome) (distinct : document.KeysDistinct)
    (unshadowed : document.child? (.key Name.root) = none)
    {older newer : List (List Step × Value)} {path : List Step} {node : Value}
    (split : settings.reachedNodes document = older ++ (path, node) :: newer) :
    (settings.targetAt document path).resolve? (settings.boundAfter document older) =
      some node := by
  have listed : (path, node) ∈ settings.reachedNodes document := by
    rw [split]
    exact List.mem_append_right _ List.mem_cons_self
  have found : document.at? path = some node := at_of_mem_reached distinct listed
  rcases reference_in_scope composite distinct split with target |
    ⟨front, rest, earlier, parent, between, kind, rfl, _, rfl, parentFound, target, reference,
      others⟩
  · rw [target, Access.resolve?, boundAfter, lookup_past, List.lookup_cons_self]
    · exact found
    · intro n member line declared
      have earlier : n ∈ settings.reachedNodes document := split ▸ List.mem_append_left _ member
      exact declared_ne_root composite unshadowed (at_of_mem_reached distinct earlier) declared
  · have bound : settings.boundAfter document (earlier ++ (front, parent) :: between) =
        (settings.bindings document between).reverse ++
          (document.nameAt front, parent) :: settings.boundAfter document earlier := by
      rw [boundAfter, bindings_append, bindings, bindings, List.filterMap_cons, reference]
      simp [boundAfter, bindings]
    rw [target, Access.resolve?, bound, lookup_past, List.lookup_cons_self]
    · rw [Value.at?_append, parentFound] at found
      exact found
    · intro n member _ _
      exact others n member

/-- Executing the declarations of some of the nodes after those of all nodes before them binds these
nodes. -/
theorem execute_declarations (composite : (rootKind document).isSome)
    (distinct : document.KeysDistinct) (unshadowed : document.child? (.key Name.root) = none)
    (older newer : List (List Step × Value))
    (split : settings.reachedNodes document = older ++ newer) :
    execute? (settings.boundAfter document older) (newer.filterMap (settings.lineAt? document)) =
      some ((settings.bindings document newer).map Prod.snd) := by
  induction newer generalizing older with
  | nil => rfl
  | cons node newer ih =>
    have next := ih (older ++ [node]) (by rw [split, List.append_assoc, List.singleton_append])
    cases declared : settings.lineAt? document node with
    | none =>
      have unchanged : settings.boundAfter document (older ++ [node]) =
          settings.boundAfter document older := by
        simp [boundAfter, bindings, declared]
      rw [List.filterMap_cons_none declared, ← unchanged, next]
      simp [bindings, declared]
    | some line =>
      have bound : settings.boundAfter document (older ++ [node]) =
          (line.name, node.2) :: settings.boundAfter document older := by
        simp [boundAfter, bindings, declared]
      rw [List.filterMap_cons_some declared, execute?, (line_at_eq declared).2,
        resolve_target composite distinct unshadowed split, Option.bind_some, ← bound, next]
      simp [bindings, declared]

theorem line_fits {node : List Step × Value} {line : Line}
    (declared : settings.lineAt? document node = some line) : line.Fits node.2 := by
  rcases line_at_cases declared with ⟨s, leaf, rfl⟩ | ⟨kind, composite, _, rfl⟩
  · rw [leaf]
    exact ⟨rfl, rfl⟩
  · exact composite

private theorem lines_fit (nodes : List (List Step × Value)) :
    List.Forall₂ Line.Fits (nodes.filterMap (settings.lineAt? document))
      ((settings.bindings document nodes).map Prod.snd) := by
  induction nodes with
  | nil => exact .nil
  | cons node nodes ih =>
    cases declared : settings.lineAt? document node with
    | none =>
      have unbound : settings.bindings document (node :: nodes) =
          settings.bindings document nodes := by
        simp [bindings, declared]
      rw [List.filterMap_cons_none declared, unbound]
      exact ih
    | some line =>
      have bound : settings.bindings document (node :: nodes) =
          (line.name, node.2) :: settings.bindings document nodes := by
        simp [bindings, declared]
      rw [List.filterMap_cons_some declared, bound]
      exact .cons (line_fits declared) ih

end Settings

/-- Every declaration of a program reads a node that is there and fits it, whatever the keys of the
document are and however their names collide, unless a member of the root takes the name of the
document. -/
theorem declarations_address_nodes (settings : Settings) (bufferSize : String)
    {document : Json.Document} (composite : (rootKind document).isSome)
    (unshadowed : document.value.child? (.key Name.root) = none) :
    ∃ lines nodes,
      Line.readAll? (Program.linesAfterParse settings bufferSize document) = some lines ∧
      execute? [(Name.root, document.value)] lines = some nodes ∧
      List.Forall₂ Line.Fits lines nodes :=
  ⟨_, _, (Settings.program_declares bufferSize composite document.distinct).read,
    Settings.execute_declarations composite document.distinct unshadowed [] _ rfl,
    Settings.lines_fit _⟩

theorem declarations_address_nodes_of_colliding_keys :
    ∃ lines nodes,
      Line.readAll? (Program.linesAfterParse ⟨0, 4, 10⟩ "64"
        (.object [("a", .object [("b", .array [.scalar (.bool true)])]),
          ("a b", .array [.null, .scalar (.bool false)]),
          ("", .object [("\"", .ofString "\\")])])) = some lines ∧
      execute? [(Name.root,
        .object [("a", .object [("b", .array [.scalar (.bool true)])]),
          ("a b", .array [.null, .scalar (.bool false)]),
          ("", .object [("\"", .ofString "\\")])])] lines = some nodes ∧
      List.Forall₂ Line.Fits lines nodes :=
  @declarations_address_nodes _ _ ⟨_, by simp [Value.ofString]⟩ rfl rfl

end JsonUnpack
