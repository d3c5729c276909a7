import JsonUnpack.Proofs.ProgramLines
import JsonUnpack.Proofs.StemNames

/-! The walk behind the declarations of a document. It keeps what the declarations themselves leave
out: the path of each node it comes upon, and the nodes that are declared by nothing. The statements
are those of the visited nodes, in the order of the visits. -/
namespace JsonUnpack

open Json (Value)

/-- A node as the walk comes upon it. -/
structure Visit where
  place : Place
  path : List Step
  node : Value

namespace Settings

/-- The children that are walked into: of an array only those that are taken. -/
def kept (settings : Settings) (place : Place) (v : Value) : List (Step × Value) :=
  match v with
  | .array items => v.children.take (settings.taken place items.length)
  | _ => v.children

theorem mem_children_of_kept {settings : Settings} {place : Place} {v : Value}
    {child : Step × Value} (inside : child ∈ settings.kept place v) : child ∈ v.children := by
  cases v with
  | array items => exact List.mem_of_mem_take inside
  | null | scalar | object => exact inside

/-- What the children of a node are reached from. -/
def baseAt (settings : Settings) (place : Place) (v : Value) : Access :=
  settings.base place v.children.length

/-- The nodes below a place that the walk comes upon. -/
def visits (settings : Settings) (place : Place) (path : List Step) (v : Value) : List Visit :=
  ⟨place, path, v⟩ :: (settings.kept place v).attach.flatMap fun child =>
    visits settings (place.child (settings.baseAt place v) child.1.1) (path ++ [child.1.1])
      child.1.2
termination_by sizeOf v
decreasing_by exact Value.size_child_lt (mem_children_of_kept child.2)

/-- The statement that declares a node, if there is one: a scalar has a leaf, and an array or object
that gets a variable has a reference. -/
def statement? (settings : Settings) (visit : Visit) : Option Statement :=
  match visit.node with
  | .scalar s => some (.leaf (.ofScalar s) visit.place.variableName visit.place.access s)
  | node =>
    if settings.names visit.place node.children.length then
      (Program.rootKind node).map fun kind =>
        .reference kind visit.place.variableName visit.place.access
    else none

variable {settings : Settings}

theorem statement_null (place : Place) (path : List Step) :
    settings.statement? ⟨place, path, .null⟩ = none :=
  ite_self none

theorem statement_composite {node : Value} {kind : Json.Composite}
    (composite : Program.rootKind node = some kind) (place : Place) (path : List Step) :
    settings.statement? ⟨place, path, node⟩ =
      if settings.names place node.children.length then
        some (.reference kind place.variableName place.access)
      else none := by
  cases node with
  | null | scalar => cases composite
  | array | object => cases composite; rfl

theorem visits_eq (place : Place) (path : List Step) (v : Value) :
    settings.visits place path v =
      ⟨place, path, v⟩ :: (settings.kept place v).flatMap fun child =>
        settings.visits (place.child (settings.baseAt place v) child.1) (path ++ [child.1])
          child.2 := by
  rw [visits, List.flatMap_subtype]
  · rw [List.unattach_attach]
  · intro child inside
    rfl

/-- The statements below a place are those of the visited nodes. -/
def Faithful (settings : Settings) (v : Value) : Prop :=
  ∀ place path, statements (declarations settings place v) =
    (settings.visits place path v).filterMap settings.statement?

private theorem statements_elements (place : Place) (path : List Step) (base : Access) (limit : Nat)
    {items : List Value} (index : Nat) (faithful : ∀ item ∈ items, Faithful settings item) :
    statements (elementDeclarations settings place base limit index items) =
      (((items.zipIdx index).map fun (item, n) => (Step.index n, item)).take
        (limit - index)).flatMap fun child =>
          (settings.visits (place.child base child.1) (path ++ [child.1]) child.2).filterMap
            settings.statement? := by
  induction items generalizing index with
  | nil => rw [List.zipIdx_nil, List.map_nil, List.take_nil]; rfl
  | cons item rest ih =>
    rw [elementDeclarations]
    by_cases room : index < limit
    · have now : limit - index = limit - (index + 1) + 1 := by omega
      rw [if_pos room, statements_append, ih (index + 1) fun other member =>
          faithful other (List.mem_cons_of_mem _ member), now, List.zipIdx_cons, List.map_cons,
        List.take_succ_cons, List.flatMap_cons,
        faithful item List.mem_cons_self _ (path ++ [.index index])]
      rfl
    · rw [if_neg room, Nat.sub_eq_zero_of_le (Nat.le_of_not_lt room), List.take_zero]
      rfl

private theorem statements_members (place : Place) (path : List Step) (base : Access)
    {members : List (String × Value)} (faithful : ∀ member ∈ members, Faithful settings member.2) :
    statements (memberDeclarations settings place base members) =
      (members.map fun (key, value) => (Step.key key, value)).flatMap fun child =>
        (settings.visits (place.child base child.1) (path ++ [child.1]) child.2).filterMap
          settings.statement? := by
  induction members with
  | nil => rfl
  | cons member rest ih =>
    obtain ⟨key, value⟩ := member
    rw [memberDeclarations, statements_append, ih fun other later =>
        faithful other (List.mem_cons_of_mem _ later), List.map_cons, List.flatMap_cons,
      faithful (key, value) List.mem_cons_self _ (path ++ [.key key])]
    rfl

private theorem statements_reference (place : Place) (kind : Json.Composite) (children : Nat) :
    statements (settings.reference place kind children) =
      (if settings.names place children then
        some (Statement.reference kind place.variableName place.access) else none).toList := by
  unfold reference
  split <;> rfl

private theorem filterMap_cons_toList {α β : Type} (f : α → Option β) (a : α) (rest : List α) :
    (a :: rest).filterMap f = (f a).toList ++ rest.filterMap f := by
  cases value : f a with
  | none => exact List.filterMap_cons_none value
  | some b => exact List.filterMap_cons_some value

/-- Every statement declares a visited node, and every visited node that is declared has its
statement. -/
theorem statements_declarations (v : Value) : Faithful settings v := by
  induction v using Value.tree_induction with
  | node v ih =>
    intro place path
    rw [visits_eq, filterMap_cons_toList, List.filterMap_flatMap]
    cases v with
    | null =>
      rw [statement_null]
      rfl
    | scalar s => rfl
    | array items =>
      have faithful : ∀ item ∈ items, Faithful settings item := by
        intro item member
        obtain ⟨n, listed⟩ := Value.item_mem_children member
        exact ih _ listed
      rw [declarations, List.cons_append, List.cons_append, statements_blank, statements_append,
        statements_append,
        statements_reference, statements_elements place path _ _ 0 faithful,
        statement_composite rfl, Value.length_children_array, baseAt, Value.length_children_array]
      exact List.append_nil _
    | object members =>
      have faithful : ∀ member ∈ members, Faithful settings member.2 := by
        intro member inside
        exact ih _ (Value.member_mem_children inside)
      rw [declarations, List.cons_append, List.cons_append, statements_blank, statements_append,
        statements_append,
        statements_reference, statements_members place path _ faithful,
        statement_composite rfl, Value.length_children_object, baseAt, Value.length_children_object]
      exact List.append_nil _

end Settings

end JsonUnpack
