import JsonUnpack.Program
import Mathlib.Data.List.Basic

/-! The nodes of a document and the paths that lead to them. Everything said later about all the
scalars, arrays and objects of a document, at any depth, is said of this list or of a step from a
node to one of its children. -/
namespace JsonUnpack.Json.Value

/-- The children of a node in document order, each with the step that leads to it. -/
def children : Value → List (Step × Value)
  | array items => items.zipIdx.map fun (item, index) => (.index index, item)
  | object members => members.map fun (key, value) => (.key key, value)
  | _ => []

@[simp] theorem length_children_array (items : List Value) :
    (array items).children.length = items.length := by
  simp [children]

@[simp] theorem length_children_object (members : List (String × Value)) :
    (object members).children.length = members.length := by
  simp [children]

theorem item_mem_children {items : List Value} {item : Value} (member : item ∈ items) :
    ∃ n, (.index n, item) ∈ (array items).children := by
  obtain ⟨n, found⟩ := List.mem_iff_getElem?.mp member
  exact ⟨n, List.mem_map.mpr ⟨(item, n), List.mem_zipIdx_iff_getElem?.mpr found, rfl⟩⟩

theorem member_mem_children {members : List (String × Value)} {member : String × Value}
    (inside : member ∈ members) : (.key member.1, member.2) ∈ (object members).children :=
  List.mem_map.mpr ⟨member, inside, rfl⟩

/-- A child is a smaller tree, so a walk over children ends. -/
theorem size_child_lt {parent : Value} {child : Step × Value} (inside : child ∈ parent.children) :
    sizeOf child.2 < sizeOf parent := by
  cases parent with
  | null => cases inside
  | scalar s => cases inside
  | array items =>
    obtain ⟨⟨item, index⟩, member, rfl⟩ := List.mem_map.mp inside
    have smaller := List.sizeOf_lt_of_mem (List.fst_mem_of_mem_zipIdx member)
    simp only [array.sizeOf_spec] at smaller ⊢
    omega
  | object members =>
    obtain ⟨⟨key, value⟩, member, rfl⟩ := List.mem_map.mp inside
    have smaller := List.sizeOf_lt_of_mem member
    simp only [Prod.mk.sizeOf_spec, object.sizeOf_spec] at smaller ⊢
    omega

/-- What holds of a node whenever it holds of its children holds of every node. -/
theorem tree_induction {motive : Value → Prop}
    (node : ∀ v : Value, (∀ child ∈ v.children, motive child.2) → motive v) (v : Value) :
    motive v :=
  node v fun child _inside => tree_induction node child.2
termination_by sizeOf v
decreasing_by exact size_child_lt _inside

/-- The child a step leads to: the element at an index, or the first member with a key. -/
def child? : Value → Step → Option Value
  | array items, .index n => items[n]?
  | object members, .key k => members.lookup k
  | _, _ => none

/-- The node a path leads to. -/
def at? (v : Value) : List Step → Option Value
  | [] => some v
  | step :: rest => (v.child? step).bind fun child => child.at? rest

/-- The nodes of a value in document order, parents before their children, each with the path that
leads to it from where `path` has led already. -/
def nodes (path : List Step) (v : Value) : List (List Step × Value) :=
  (path, v) :: v.children.attach.flatMap fun child => nodes (path ++ [child.1.1]) child.1.2
termination_by sizeOf v
decreasing_by exact size_child_lt child.2

theorem nodes_eq (path : List Step) (v : Value) :
    v.nodes path =
      (path, v) :: v.children.flatMap fun child => child.2.nodes (path ++ [child.1]) := by
  rw [nodes, List.flatMap_subtype]
  · rw [List.unattach_attach]
  · intro child inside
    rfl

@[simp] theorem nodes_null (path : List Step) : null.nodes path = [(path, null)] :=
  nodes_eq path null

@[simp] theorem nodes_scalar (path : List Step) (s : Scalar) :
    (scalar s).nodes path = [(path, scalar s)] :=
  nodes_eq path (scalar s)

@[simp] theorem nodes_array (path : List Step) (items : List Value) :
    (array items).nodes path = (path, array items) ::
      items.zipIdx.flatMap fun item => item.1.nodes (path ++ [.index item.2]) := by
  rw [nodes_eq, children, List.flatMap_map]

@[simp] theorem nodes_object (path : List Step) (members : List (String × Value)) :
    (object members).nodes path = (path, object members) ::
      members.flatMap fun member => member.2.nodes (path ++ [.key member.1]) := by
  rw [nodes_eq, children, List.flatMap_map]

/-- A path taken before leads every node further away and changes nothing else. -/
theorem nodes_shift (v : Value) (path : List Step) :
    v.nodes path = (v.nodes []).map fun node => (path ++ node.1, node.2) := by
  induction v using tree_induction generalizing path with
  | node v ih =>
    rw [nodes_eq, nodes_eq [], List.map_cons, List.append_nil, List.map_flatMap]
    congr 1
    apply List.flatMap_congr
    intro child inside
    rw [ih child inside (path ++ [child.1]), ih child inside ([] ++ [child.1]), List.map_map]
    apply List.map_congr_left
    intro node member
    simp only [Function.comp_apply, List.nil_append, List.append_assoc]

theorem self_mem_nodes (v : Value) : ([], v) ∈ v.nodes [] := by
  rw [nodes_eq]
  exact List.mem_cons_self

theorem mem_nodes_of_child {v : Value} {child : Step × Value} {node : List Step × Value}
    (inside : child ∈ v.children) (below : node ∈ child.2.nodes []) :
    (child.1 :: node.1, node.2) ∈ v.nodes [] := by
  rw [nodes_eq]
  refine List.mem_cons_of_mem _ (List.mem_flatMap.mpr ⟨child, inside, ?_⟩)
  rw [nodes_shift]
  exact List.mem_map.mpr ⟨node, below, rfl⟩

/-- What holds of a value and of every node below it. -/
def Every (p : Value → Prop) (v : Value) : Prop := ∀ node ∈ v.nodes [], p node.2

section Every

variable {p : Value → Prop}

theorem every_iff {v : Value} : v.Every p ↔ p v ∧ ∀ child ∈ v.children, child.2.Every p := by
  constructor
  · intro every
    refine ⟨every ([], v) (self_mem_nodes v), ?_⟩
    intro child inside node below
    exact every (child.1 :: node.1, node.2) (mem_nodes_of_child inside below)
  · rintro ⟨own, each⟩ node member
    rw [nodes_eq] at member
    rcases List.mem_cons.mp member with rfl | later
    · exact own
    · obtain ⟨child, inside, under⟩ := List.mem_flatMap.mp later
      rw [nodes_shift] at under
      obtain ⟨lower, below, rfl⟩ := List.mem_map.mp under
      exact each child inside lower below

theorem every_self {v : Value} (every : v.Every p) : p v := (every_iff.mp every).1

theorem every_child {v : Value} {child : Step × Value} (every : v.Every p)
    (inside : child ∈ v.children) : child.2.Every p :=
  (every_iff.mp every).2 child inside

@[simp] theorem every_null : null.Every p ↔ p null := by simp [Every]

@[simp] theorem every_scalar {s : Scalar} : (scalar s).Every p ↔ p (scalar s) := by simp [Every]

@[simp] theorem every_array {items : List Value} :
    (array items).Every p ↔ p (array items) ∧ ∀ item ∈ items, item.Every p := by
  rw [every_iff]
  apply and_congr_right
  intro _
  constructor
  · intro each item member
    obtain ⟨n, listed⟩ := item_mem_children member
    exact each _ listed
  · intro each child inside
    obtain ⟨⟨item, index⟩, member, rfl⟩ := List.mem_map.mp inside
    exact each item (List.fst_mem_of_mem_zipIdx member)

@[simp] theorem every_object {members : List (String × Value)} :
    (object members).Every p ↔ p (object members) ∧ ∀ member ∈ members, member.2.Every p := by
  rw [every_iff]
  apply and_congr_right
  intro _
  constructor
  · intro each member inside
    exact each _ (member_mem_children inside)
  · intro each child inside
    obtain ⟨member, held, rfl⟩ := List.mem_map.mp inside
    exact each member held

end Every

theorem KeysDistinct.child {v : Value} {child : Step × Value} (distinct : v.KeysDistinct)
    (inside : child ∈ v.children) : child.2.KeysDistinct := by
  cases distinct with
  | null | scalar => cases inside
  | array each =>
    obtain ⟨⟨item, index⟩, member, rfl⟩ := List.mem_map.mp inside
    exact each item (List.fst_mem_of_mem_zipIdx member)
  | object own each =>
    obtain ⟨member, held, rfl⟩ := List.mem_map.mp inside
    exact each member held

private theorem lookup_of_mem {members : List (String × Value)} {key : String} {value : Value}
    (distinct : (members.map Prod.fst).Nodup) (member : (key, value) ∈ members) :
    members.lookup key = some value := by
  induction members with
  | nil => cases member
  | cons first rest ih =>
    obtain ⟨other, held⟩ := first
    rw [List.map_cons, List.nodup_cons] at distinct
    rcases List.mem_cons.mp member with same | later
    · cases same
      exact List.lookup_cons_self
    · have different : key ≠ other := by
        rintro rfl
        exact distinct.1 (List.mem_map.mpr ⟨_, later, rfl⟩)
      rw [List.lookup_cons, beq_false_of_ne different]
      exact ih distinct.2 later

/-- A step listed with a child leads to that child. -/
theorem child?_of_mem {v : Value} {child : Step × Value} (distinct : v.KeysDistinct)
    (inside : child ∈ v.children) : v.child? child.1 = some child.2 := by
  cases v with
  | null => cases inside
  | scalar s => cases inside
  | array items =>
    obtain ⟨⟨item, index⟩, member, rfl⟩ := List.mem_map.mp inside
    exact List.mem_zipIdx_iff_getElem?.mp member
  | object members =>
    obtain ⟨⟨key, value⟩, member, rfl⟩ := List.mem_map.mp inside
    exact lookup_of_mem (keysDistinct_object.mp distinct).1 member

theorem at?_append (v : Value) (path rest : List Step) :
    v.at? (path ++ rest) = (v.at? path).bind fun node => node.at? rest := by
  induction path generalizing v with
  | nil => rfl
  | cons step path ih =>
    simp only [List.cons_append, at?, Option.bind_assoc]
    exact Option.bind_congr fun child _ => ih child

/-- A path listed with a node leads to that node. -/
theorem at?_of_mem_nodes {v : Value} (distinct : v.KeysDistinct) {path : List Step} {node : Value}
    (member : (path, node) ∈ v.nodes []) : v.at? path = some node := by
  induction v using tree_induction generalizing path with
  | node v ih =>
    rw [nodes_eq] at member
    rcases List.mem_cons.mp member with same | later
    · cases same
      rfl
    · obtain ⟨child, inside, below⟩ := List.mem_flatMap.mp later
      rw [nodes_shift] at below
      obtain ⟨⟨rest, found⟩, under, same⟩ := List.mem_map.mp below
      cases same
      have reached := ih child inside (distinct.child inside) under
      simp only [List.nil_append, List.cons_append, at?, child?_of_mem distinct inside]
      exact reached

private theorem steps_distinct {v : Value} (distinct : v.KeysDistinct) :
    v.children.Pairwise fun a b => a.1 ≠ b.1 := by
  cases v with
  | null | scalar => exact .nil
  | array items =>
    have indices : ((items.zipIdx 0).map Prod.snd).Nodup := by
      rw [List.zipIdx_map_snd]
      exact List.nodup_range' 1
    rw [children, List.pairwise_map]
    refine (List.pairwise_map.mp indices).imp ?_
    intro a b different same
    exact different (Step.index.inj same)
  | object members =>
    have keys : (members.map Prod.fst).Nodup := (keysDistinct_object.mp distinct).1
    rw [children, List.pairwise_map]
    refine (List.pairwise_map.mp keys).imp ?_
    intro a b different same
    exact different (Step.key.inj same)

/-- No path is listed with two nodes. -/
theorem paths_distinct {v : Value} (distinct : v.KeysDistinct) (path : List Step) :
    (v.nodes path).Pairwise fun a b => a.1 ≠ b.1 := by
  induction v using tree_induction generalizing path with
  | node v ih =>
    have below : ∀ child : Step × Value, ∀ node ∈ child.2.nodes (path ++ [child.1]),
        ∃ more, node.1 = path ++ child.1 :: more := by
      intro child node member
      rw [nodes_shift] at member
      obtain ⟨lower, _, rfl⟩ := List.mem_map.mp member
      exact ⟨lower.1, by simp⟩
    rw [nodes_eq, List.pairwise_cons, List.pairwise_flatMap]
    refine ⟨?_, ?_, ?_⟩
    · intro node member same
      obtain ⟨child, _, under⟩ := List.mem_flatMap.mp member
      obtain ⟨more, longer⟩ := below child node under
      rw [longer] at same
      exact absurd same (by simp)
    · intro child inside
      exact ih child inside (distinct.child inside) _
    · refine (steps_distinct distinct).imp ?_
      intro a b different node under other under' same
      obtain ⟨more, path⟩ := below a node under
      obtain ⟨more', path'⟩ := below b other under'
      rw [path, path'] at same
      exact different (List.cons.inj (List.append_cancel_left same)).1

private theorem mem_children_of_child? {v child : Value} {step : Step}
    (leads : v.child? step = some child) : (step, child) ∈ v.children := by
  cases v with
  | null | scalar => cases step <;> cases leads
  | array items =>
    cases step with
    | index n => exact List.mem_map.mpr ⟨(child, n), List.mem_zipIdx_iff_getElem?.mpr leads, rfl⟩
    | key k => cases leads
  | object members =>
    cases step with
    | index n => cases leads
    | key k =>
      obtain ⟨before, after, same, _⟩ := List.lookup_eq_some_iff.mp leads
      refine List.mem_map.mpr ⟨(k, child), ?_, rfl⟩
      rw [same]
      exact List.mem_append_right before List.mem_cons_self

/-- A step in the middle of a path leads from one node to another. -/
theorem at?_split {v node : Value} {front rest : List Step} {step : Step}
    (found : v.at? (front ++ step :: rest) = some node) :
    ∃ parent child, v.at? front = some parent ∧ parent.child? step = some child := by
  rw [at?_append] at found
  obtain ⟨parent, upper, below⟩ := Option.bind_eq_some_iff.mp found
  obtain ⟨child, leads, _⟩ := Option.bind_eq_some_iff.mp below
  exact ⟨parent, child, upper, leads⟩

/-- The node that a path leads to is listed with it. -/
theorem mem_nodes_of_at? {v node : Value} {path : List Step} (found : v.at? path = some node) :
    (path, node) ∈ v.nodes [] := by
  induction path generalizing v with
  | nil =>
    cases found
    exact self_mem_nodes _
  | cons step path ih =>
    obtain ⟨child, leads, below⟩ := Option.bind_eq_some_iff.mp found
    exact mem_nodes_of_child (mem_children_of_child? leads) (ih below)

/-- The keys of an object are all like that. -/
@[simp] def ownKeysAll (p : String → Prop) : Value → Prop
  | object members => ∀ member ∈ members, p member.1
  | _ => True

/-- The keys of all objects in a value are like that. -/
def KeysAll (p : String → Prop) (v : Value) : Prop := v.Every (ownKeysAll p)

/-- A key on a path is a key of an object that the path leads through. -/
theorem key_of_path {p : String → Prop} {v node : Value} (all : v.KeysAll p) {path : List Step}
    (found : v.at? path = some node) {key : String} (member : .key key ∈ path) : p key := by
  obtain ⟨front, rest, rfl⟩ := List.append_of_mem member
  obtain ⟨parent, child, upper, leads⟩ := at?_split found
  have own := all (front, parent) (mem_nodes_of_at? upper)
  have inside := mem_children_of_child? leads
  cases parent with
  | null | scalar => cases inside
  | array items =>
    obtain ⟨_, _, same⟩ := List.mem_map.mp inside
    cases same
  | object members =>
    obtain ⟨held, listed, same⟩ := List.mem_map.mp inside
    cases same
    exact own held listed

private theorem split_flatMap {α β : Type} {list : List α} {g : α → List β} {before after : List β}
    {b : β} (split : list.flatMap g = before ++ b :: after) :
    ∃ passed, ∃ a ∈ list, ∃ start rest, g a = start ++ b :: rest ∧ before = passed ++ start := by
  induction list generalizing before with
  | nil => simp at split
  | cons a list ih =>
    rw [List.flatMap_cons] at split
    rcases List.append_eq_append_iff.mp split with ⟨start, before, later⟩ | ⟨start, inside, later⟩
    · obtain ⟨passed, a', member, start', rest, inside, added⟩ := ih later
      refine ⟨g a ++ passed, a', List.mem_cons_of_mem a member, start', rest, inside, ?_⟩
      rw [before, added, List.append_assoc]
    · rcases start with _ | ⟨b', start⟩
      · have first : list.flatMap g = [] ++ b :: after := later.symm
        obtain ⟨passed, a', member, start', rest, inside', added⟩ := ih first
        refine ⟨before ++ passed, a', List.mem_cons_of_mem a member, start', rest, inside', ?_⟩
        rw [List.append_assoc, ← added, List.append_nil]
      · cases later
        exact ⟨[], a, List.mem_cons_self, before, start, inside, rfl⟩

/-- Between a node and a node further down come only nodes below the first one. -/
theorem nodes_between {v : Value} {front rest : List Step} {node : Value}
    {before after : List (List Step × Value)} (further : rest ≠ [])
    (split : v.nodes [] = before ++ (front ++ rest, node) :: after) :
    ∃ earlier parent between, before = earlier ++ (front, parent) :: between ∧
      ∀ n ∈ between, ∃ step more, n.1 = front ++ step :: more := by
  induction front generalizing v before after with
  | nil =>
    rw [nodes_eq] at split
    rcases before with _ | ⟨first, between⟩
    · cases split
      exact absurd rfl further
    · obtain ⟨rfl, below⟩ := List.cons.inj split
      refine ⟨[], v, between, rfl, ?_⟩
      intro n member
      have listed : n ∈ v.children.flatMap fun child => child.2.nodes ([] ++ [child.1]) := by
        rw [below]
        exact List.mem_append_left _ member
      obtain ⟨child, _, under⟩ := List.mem_flatMap.mp listed
      rw [nodes_shift] at under
      obtain ⟨lower, _, rfl⟩ := List.mem_map.mp under
      exact ⟨child.1, lower.1, rfl⟩
  | cons step front ih =>
    rw [nodes_eq] at split
    rcases before with _ | ⟨first, before⟩
    · cases split
    · obtain ⟨rfl, below⟩ := List.cons.inj split
      obtain ⟨passed, child, _, start, later, inside, rfl⟩ := split_flatMap below
      rw [nodes_shift, List.map_eq_append_iff] at inside
      obtain ⟨start', later', whole, rfl, shifted⟩ := inside
      obtain ⟨⟨path, found⟩, after', rfl, same, _⟩ := List.map_eq_cons_iff.mp shifted
      cases same
      obtain ⟨earlier, parent, between, rfl, lower⟩ := ih whole
      refine ⟨([], v) :: passed ++ earlier.map fun n => ([child.1] ++ n.1, n.2), parent,
        between.map fun n => ([child.1] ++ n.1, n.2), by simp, ?_⟩
      intro n member
      obtain ⟨n', member', rfl⟩ := List.mem_map.mp member
      obtain ⟨step, more, path⟩ := lower n' member'
      exact ⟨step, more, by rw [path]; rfl⟩

end JsonUnpack.Json.Value
