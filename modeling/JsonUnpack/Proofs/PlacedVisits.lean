import JsonUnpack.Proofs.DeclarationVisits
import Mathlib.Data.List.Basic
import Mathlib.Data.List.Induction

/-! The place of a node depends on its path alone. Which arrays and objects get a variable, which
nodes are reached and where each of them is reached from are said here of paths into the document,
with no walk and no name handed down; the walk agrees with that at every node. -/
namespace JsonUnpack

open Json (Value)
open Program (rootKind)

namespace Json.Value

/-- The name that the names of a document's nodes start with. -/
def rootStem : Value → Option String
  | .array _ => some Program.rootArrayStem
  | _ => none

/-- The stem of the node at a path. -/
def stemAt (document : Value) (path : List Step) : Option String :=
  path.foldl (fun stem step => some (Name.child stem step)) document.rootStem

/-- The variable of the node at a path. -/
def nameAt (document : Value) (path : List Step) : String :=
  (document.stemAt path).getD Name.root

/-- The root object and the value under its empty key, which have no name to be given. -/
def nameless (document : Value) (path : List Step) : Bool :=
  rootKind document = some .object ∧ (path = [] ∨ path = [.key ""])

theorem stemAt_append (document : Value) (path : List Step) (step : Step) :
    document.stemAt (path ++ [step]) = some (Name.child (document.stemAt path) step) :=
  List.foldl_append ..

theorem plain_stemAt (document : Value) (path : List Step) :
    ∀ stem ∈ document.stemAt path, PlainName stem := by
  induction path using List.reverseRecOn with
  | nil =>
    intro stem held
    cases document with
    | null | scalar | object => cases held
    | array items =>
      cases held
      exact plain_of_all rfl
  | append_singleton path step ih =>
    intro stem held
    rw [stemAt_append] at held
    cases held
    exact plain_child ih step

theorem plain_nameAt (document : Value) (path : List Step) : PlainName (document.nameAt path) := by
  rw [nameAt]
  cases stem : document.stemAt path with
  | none => exact plain_root
  | some s => exact plain_stemAt document path s stem

private theorem root_child_ne_empty (members : List (String × Value)) (step : Step) :
    decide (Name.child none step ≠ "") = !(object members).nameless ([] ++ [step]) := by
  cases step with
  | index n =>
    have named : Name.child none (.index n) ≠ "" := by
      intro same
      have chars := congrArg String.toList same
      simp [Name.child, Name.element, Nat.toDigits_ne_nil] at chars
    simp [named, nameless]
  | key k =>
    have empty : Name.child none (.key k) = "" ↔ k = "" := by
      constructor
      · intro same
        have word : '_' ∉ (Name.sanitize k).toList := by
          rw [show Name.sanitize k = "" from same]
          decide
        exact (sanitize_word word).symm.trans same
      · rintro rfl
        rfl
    simp [empty, nameless, rootKind]

/-- Only the root object has no stem, and only its empty key gives an empty one. -/
theorem stemAt_any_ne_empty {document : Value} (composite : (rootKind document).isSome)
    (path : List Step) :
    (document.stemAt path).any (fun stem => decide (stem ≠ "")) = !document.nameless path := by
  rcases List.eq_nil_or_concat' path with rfl | ⟨front, step, rfl⟩
  · cases document with
    | null | scalar => cases composite
    | array | object => rfl
  · rw [stemAt_append, Option.any_some]
    rcases List.eq_nil_or_concat' front with rfl | ⟨before, last, rfl⟩
    · cases document with
      | null | scalar => cases composite
      | array items => exact decide_eq_true (child_ne_empty _ step)
      | object members => exact root_child_ne_empty members step
    · rw [stemAt_append, decide_eq_true (child_ne_empty _ step)]
      have longer : ¬before ++ [last, step] = [.key ""] := by
        intro same
        have lengths := congrArg List.length same
        simp at lengths
      simp [nameless, longer]

end Json.Value

namespace Settings

/-- Whether the node at a path is an array or object that gets a variable. -/
def named (settings : Settings) (document : Value) (path : List Step) : Bool :=
  (document.at? path).any fun node =>
    settings.maxInlineChildren.toNat < node.children.length && !document.nameless path

/-- Whether a step from the node at a path leads on: of an array with a variable only so many
elements are taken. -/
def passes (settings : Settings) (document : Value) (path : List Step) : Step → Bool
  | .index n => !settings.named document path || n < settings.maxNamedArrayElements.toNat
  | .key _ => true

/-- Whether every step of a path leads on. -/
def reached (settings : Settings) (document : Value) (path : List Step) : Bool :=
  (List.range path.length).all fun n => (path[n]?).all (settings.passes document (path.take n))

/-- How far it is along a path to the last node above its end that has a variable. -/
def lastNamed (settings : Settings) (document : Value) (path : List Step) : Option Nat :=
  (List.range path.length).reverse.find? fun n => settings.named document (path.take n)

/-- The member expression for the node at a path: the variable of the nearest node above it that has
one, and the steps from there. -/
def targetAt (settings : Settings) (document : Value) (path : List Step) : Access :=
  match settings.lastNamed document path with
  | some n => ⟨document.nameAt (path.take n), path.drop n⟩
  | none => ⟨Name.root, path⟩

/-- The place of the node at a path. -/
def placeAt (settings : Settings) (document : Value) (path : List Step) : Place :=
  ⟨settings.targetAt document path, document.stemAt path⟩

variable {settings : Settings} {document : Value}

/-- The place of a child is one step from that of its parent, starting over at the variable of the
parent if that has one. -/
theorem placeAt_append (path : List Step) (step : Step) :
    settings.placeAt document (path ++ [step]) = (settings.placeAt document path).child
      (if settings.named document path then .ofName (document.nameAt path)
        else settings.targetAt document path) step := by
  have shorter : (List.range path.length).reverse.find?
      (fun n => settings.named document ((path ++ [step]).take n)) =
        settings.lastNamed document path := by
    rw [lastNamed, ← List.head?_filter, ← List.head?_filter, List.filter_congr]
    intro n member
    have inside : n < path.length := List.mem_range.mp (List.mem_reverse.mp member)
    rw [List.take_append_of_le_length (Nat.le_of_lt inside)]
  have target : settings.targetAt document (path ++ [step]) =
      (if settings.named document path then .ofName (document.nameAt path)
        else settings.targetAt document path).push step := by
    rw [targetAt, lastNamed, List.length_append, List.length_singleton, List.range_succ,
      List.reverse_append, List.reverse_singleton, List.singleton_append, List.find?_cons,
      List.take_left]
    cases named : settings.named document path with
    | true => simp [Access.push, Access.ofName]
    | false =>
      simp only [shorter, Bool.false_eq_true, ↓reduceIte]
      rw [targetAt]
      cases last : settings.lastNamed document path with
      | none => rfl
      | some n =>
        have inside : n < path.length := by
          have member := List.mem_of_find?_eq_some last
          exact List.mem_range.mp (List.mem_reverse.mp member)
        simp [Access.push, List.take_append_of_le_length (Nat.le_of_lt inside),
          List.drop_append_of_le_length (Nat.le_of_lt inside)]
  rw [placeAt, target, Value.stemAt_append]
  rfl

/-- Whether a node gets a variable where it stands is a matter of its path. -/
theorem names_placeAt (settings : Settings) (composite : (rootKind document).isSome)
    {path : List Step} {node : Value}
    (found : document.at? path = some node) :
    settings.names (settings.placeAt document path) node.children.length =
      settings.named document path := by
  rw [named, found, Option.any_some, names, Place.canBeNamed, placeAt,
    Value.stemAt_any_ne_empty composite, Bool.and_comm]

theorem reached_append (path : List Step) (step : Step) :
    settings.reached document (path ++ [step]) =
      (settings.reached document path && settings.passes document path step) := by
  have before : (List.range path.length).all (fun n => ((path ++ [step])[n]?).all
      (settings.passes document ((path ++ [step]).take n))) = settings.reached document path := by
    rw [reached, Bool.eq_iff_iff, List.all_eq_true, List.all_eq_true]
    apply forall₂_congr
    intro n member
    have inside : n < path.length := List.mem_range.mp member
    rw [List.take_append_of_le_length (Nat.le_of_lt inside), List.getElem?_append_left inside]
  rw [reached, List.length_append, List.length_singleton, List.range_succ, List.all_append, before]
  simp

/-- Whatever lies past a step that does not lead on is not reached. -/
theorem reached_of_append {path rest : List Step}
    (reached : settings.reached document (path ++ rest) = true) :
    settings.reached document path = true := by
  induction rest using List.reverseRecOn with
  | nil => rwa [List.append_nil] at reached
  | append_singleton rest step ih =>
    rw [← List.append_assoc, reached_append, Bool.and_eq_true] at reached
    exact ih reached.1

private theorem take_zipIdx (items : List Value) (limit index : Nat) :
    (items.zipIdx index).take (limit - index) =
      (items.zipIdx index).filter fun item => item.2 < limit := by
  induction items generalizing index with
  | nil => rw [List.zipIdx_nil, List.take_nil, List.filter_nil]
  | cons item rest ih =>
    rw [List.zipIdx_cons]
    by_cases room : index < limit
    · have now : limit - index = limit - (index + 1) + 1 := by omega
      rw [now, List.take_succ_cons, ih, List.filter_cons, if_pos (decide_eq_true room)]
    · have later : ∀ other ∈ (item, index) :: rest.zipIdx (index + 1), ¬other.2 < limit := by
        intro other member
        rcases List.mem_cons.mp member with rfl | inRest
        · exact room
        · have := List.le_snd_of_mem_zipIdx inRest
          omega
      rw [Nat.sub_eq_zero_of_le (Nat.le_of_not_lt room), List.take_zero, eq_comm,
        List.filter_eq_nil_iff]
      intro other member
      simpa using later other member

/-- The children that are walked into are those to which a step leads on. -/
theorem kept_placeAt (composite : (rootKind document).isSome) {path : List Step} {node : Value}
    (found : document.at? path = some node) :
    settings.kept (settings.placeAt document path) node =
      node.children.filter fun child => settings.passes document path child.1 := by
  cases node with
  | null | scalar => rfl
  | array items =>
    have names := names_placeAt settings composite found
    rw [Value.length_children_array] at names
    rw [kept, taken, names, Value.children, ← List.map_take, List.filter_map]
    cases named : settings.named document path with
    | true =>
      rw [if_pos rfl, ← Nat.sub_zero (PerSetting.maxNamedArrayElements settings).toNat,
        take_zipIdx items _ 0]
      congr 2
      funext item
      simp [passes, named]
    | false =>
      rw [if_neg Bool.false_ne_true, List.take_of_length_le (Nat.le_of_eq List.length_zipIdx),
        eq_comm]
      congr 1
      rw [List.filter_eq_self]
      intro item member
      simp [passes, named]
  | object members =>
    symm
    apply List.filter_eq_self.mpr
    intro child inside
    obtain ⟨member, _, rfl⟩ := List.mem_map.mp inside
    rfl

private theorem flatMap_of_filter {α β : Type} {list : List α} {p : α → Bool} {f g : α → List β}
    (agree : ∀ a ∈ list, p a = true → f a = g a) (nothing : ∀ a ∈ list, p a = false → g a = []) :
    (list.filter p).flatMap f = list.flatMap g := by
  induction list with
  | nil => rfl
  | cons a rest ih =>
    have tail := ih (fun b later => agree b (List.mem_cons_of_mem a later))
      fun b later => nothing b (List.mem_cons_of_mem a later)
    cases kept : p a with
    | true =>
      rw [List.filter_cons_of_pos kept, List.flatMap_cons, List.flatMap_cons, tail,
        agree a List.mem_cons_self kept]
    | false =>
      rw [List.filter_cons_of_neg (Bool.not_eq_true _ ▸ kept), List.flatMap_cons, tail,
        nothing a List.mem_cons_self kept, List.nil_append]

/-- What the walk comes upon below a node it has come upon: the nodes that are reached, each at its
place. -/
theorem visits_placed (composite : (rootKind document).isSome) {path : List Step} {node : Value}
    (distinct : node.KeysDistinct) (found : document.at? path = some node)
    (reached : settings.reached document path = true) :
    settings.visits (settings.placeAt document path) path node =
      ((node.nodes path).filter fun below => settings.reached document below.1).map
        fun below => ⟨settings.placeAt document below.1, below.1, below.2⟩ := by
  induction node using Value.tree_induction generalizing path with
  | node node ih =>
    rw [visits_eq, Value.nodes_eq, List.filter_cons, if_pos reached, List.map_cons,
      kept_placeAt composite found, List.filter_flatMap, List.map_flatMap]
    congr 1
    refine flatMap_of_filter ?_ ?_
    · intro child inside leads
      have place : (settings.placeAt document path).child
          (settings.baseAt (settings.placeAt document path) node) child.1 =
            settings.placeAt document (path ++ [child.1]) := by
        rw [placeAt_append, baseAt, base, names_placeAt settings composite found]
        rfl
      have foundChild : document.at? (path ++ [child.1]) = some child.2 := by
        rw [Value.at?_append, found, Option.bind_some, Value.at?,
          Value.child?_of_mem distinct inside]
        rfl
      rw [place]
      refine ih child inside (distinct.child inside) foundChild ?_
      rw [reached_append, reached, leads]
      rfl
    · intro child inside stops
      rw [List.map_eq_nil_iff, List.filter_eq_nil_iff]
      intro below under passed
      rw [Value.nodes_shift] at under
      obtain ⟨rest, _, rfl⟩ := List.mem_map.mp under
      have upTo := reached_of_append passed
      rw [reached_append, stops, Bool.and_false] at upTo
      exact Bool.false_ne_true upTo

end Settings

end JsonUnpack
