import JsonUnpack.Proofs.BufferSizeReading
import Mathlib.Data.List.Induction
import Mathlib.Data.Multiset.Count

/-! The buffer size as a normal form. Of a document it counts how many arrays and objects of each
size there are and nothing else, and for these numbers there is one expression: its terms stand in a
fixed order, each size of each kind has at most one, and a factor is written only where it says
something. -/
namespace JsonUnpack

open Json (Composite Value)
open Program (rootKind)

namespace BufferSize

/-! Tallies. -/

/-- Sizes in ascending order, each with a count of at least one. -/
structure IsTally (counts : List (Nat × Nat)) : Prop where
  ascending : counts.Pairwise fun a b => a.1 < b.1
  positive : ∀ entry ∈ counts, 0 < entry.2

theorem isTally_cons {entry : Nat × Nat} {rest : List (Nat × Nat)} :
    IsTally (entry :: rest) ↔ 0 < entry.2 ∧ (∀ other ∈ rest, entry.1 < other.1) ∧ IsTally rest := by
  constructor
  · intro ⟨ascending, positive⟩
    obtain ⟨above, later⟩ := List.pairwise_cons.mp ascending
    obtain ⟨first, others⟩ := List.forall_mem_cons.mp positive
    exact ⟨first, above, later, others⟩
  · intro ⟨first, above, later⟩
    exact ⟨.cons above later.ascending, List.forall_mem_cons.mpr ⟨first, later.positive⟩⟩

/-- How often a tally has a size. -/
def counted (counts : List (Nat × Nat)) (size : Nat) : Nat := (counts.lookup size).getD 0

theorem counted_cons (other n : Nat) (rest : List (Nat × Nat)) (size : Nat) :
    counted ((other, n) :: rest) size = if size = other then n else counted rest size := by
  rw [counted, List.lookup_cons]
  by_cases same : size = other
  · rw [if_pos same, beq_iff_eq.mpr same]
    rfl
  · rw [if_neg same, beq_false_of_ne same]
    rfl

theorem counted_of_above {counts : List (Nat × Nat)} {size : Nat}
    (above : ∀ entry ∈ counts, size < entry.1) : counted counts size = 0 := by
  induction counts with
  | nil => rfl
  | cons entry rest ih =>
    obtain ⟨first, later⟩ := List.forall_mem_cons.mp above
    rw [counted_cons, if_neg (Nat.ne_of_lt first), ih later]

/-- The entries of a tally are the sizes it has, each with how often it has it. -/
theorem mem_tally_iff {counts : List (Nat × Nat)} (tally : IsTally counts) {size n : Nat} :
    (size, n) ∈ counts ↔ 0 < n ∧ counted counts size = n := by
  induction counts with
  | nil =>
    simp only [List.not_mem_nil, counted, List.lookup_nil, Option.getD_none, false_iff]
    omega
  | cons entry rest ih =>
    obtain ⟨positive, above, later⟩ := isTally_cons.mp tally
    rw [List.mem_cons, counted_cons, ih later, Prod.mk.injEq]
    by_cases same : size = entry.1
    · rw [same, counted_of_above above, if_pos rfl]
      omega
    · rw [if_neg same]
      simp [same]

private theorem keys_countSize {size : Nat} {counts : List (Nat × Nat)} {p : Nat → Prop}
    (own : p size) (others : ∀ entry ∈ counts, p entry.1) :
    ∀ entry ∈ countSize size counts, p entry.1 := by
  fun_induction countSize size counts with
  | case1 => exact List.forall_mem_singleton.mpr own
  | case2 =>
    obtain ⟨_, later⟩ := List.forall_mem_cons.mp others
    exact List.forall_mem_cons.mpr ⟨own, later⟩
  | case3 => exact List.forall_mem_cons.mpr ⟨own, others⟩
  | case4 _ _ _ _ _ ih =>
    obtain ⟨first, later⟩ := List.forall_mem_cons.mp others
    exact List.forall_mem_cons.mpr ⟨first, ih later⟩

/-- Counting one more size keeps the order and leaves no count at zero. -/
theorem isTally_countSize {counts : List (Nat × Nat)} (tally : IsTally counts) (size : Nat) :
    IsTally (countSize size counts) := by
  fun_induction countSize size counts with
  | case1 => exact isTally_cons.mpr ⟨Nat.one_pos, nofun, tally⟩
  | case2 n rest =>
    obtain ⟨_, above, later⟩ := isTally_cons.mp tally
    exact isTally_cons.mpr ⟨Nat.succ_pos n, above, later⟩
  | case3 other n rest _ smaller =>
    obtain ⟨_, above, _⟩ := isTally_cons.mp tally
    refine isTally_cons.mpr ⟨Nat.one_pos, List.forall_mem_cons.mpr ⟨smaller, ?_⟩, tally⟩
    intro entry member
    exact Nat.lt_trans smaller (above entry member)
  | case4 other n rest different notSmaller ih =>
    obtain ⟨positive, above, later⟩ := isTally_cons.mp tally
    have larger : other < size := by omega
    exact isTally_cons.mpr ⟨positive, keys_countSize larger above, ih later⟩

/-- Counting a size adds one to its count and leaves the other counts as they are. -/
theorem counted_countSize {counts : List (Nat × Nat)} (tally : IsTally counts) (size other : Nat) :
    counted (countSize size counts) other =
      counted counts other + if other = size then 1 else 0 := by
  fun_induction countSize size counts with
  | case1 => rw [counted_cons, counted, List.lookup_nil, Option.getD_none, Nat.zero_add]
  | case2 n rest =>
    rw [counted_cons, counted_cons]
    split <;> rfl
  | case3 larger n rest _ smaller =>
    obtain ⟨_, above, _⟩ := isTally_cons.mp tally
    have absent : counted ((larger, n) :: rest) size = 0 := by
      refine counted_of_above (List.forall_mem_cons.mpr ⟨smaller, ?_⟩)
      intro entry member
      exact Nat.lt_trans smaller (above entry member)
    rw [counted_cons size 1]
    split
    · rename_i same
      rw [same, absent]
    · rfl
  | case4 first n rest different _ ih =>
    obtain ⟨_, _, later⟩ := isTally_cons.mp tally
    rw [counted_cons, counted_cons, ih later]
    by_cases same : other = first
    · rw [if_pos same, if_pos same, if_neg fun equal => different (equal.symm.trans same),
        Nat.add_zero]
    · rw [if_neg same, if_neg same]

/-- A tally of sizes has each of them in its place, as often as it occurs. -/
theorem tally_counts (sizes : List Nat) :
    IsTally (tally sizes) ∧ ∀ size, counted (tally sizes) size = sizes.count size := by
  induction sizes using List.reverseRecOn with
  | nil => exact ⟨⟨.nil, nofun⟩, fun _ => rfl⟩
  | append_singleton sizes size ih =>
    obtain ⟨ordered, counts⟩ := ih
    have step : tally (sizes ++ [size]) = countSize size (tally sizes) := List.foldl_concat ..
    rw [step]
    refine ⟨isTally_countSize ordered size, ?_⟩
    intro other
    rw [counted_countSize ordered, counts, List.count_append, List.count_singleton]
    simp only [beq_iff_eq, @eq_comm _ size other]

/-! Terms. -/

/-- Arrays stand before objects, and of one kind a smaller size before a larger one. -/
def Term.Precedes (term other : Term) : Prop :=
  (term.kind = .array ∧ other.kind = .object) ∨ (term.kind = other.kind ∧ term.size < other.size)

/-- Of two terms only one can stand before the other. -/
theorem Term.Precedes.asymm {term other : Term} (before : term.Precedes other) :
    ¬ other.Precedes term := by
  rcases before with ⟨array, object⟩ | ⟨kinds, less⟩
  · rintro (⟨array', _⟩ | ⟨kinds, _⟩)
    · cases array'.symm.trans object
    · cases object.symm.trans (kinds.trans array)
  · rintro (⟨array, object⟩ | ⟨_, more⟩)
    · cases object.symm.trans (kinds.trans array)
    · exact Nat.lt_asymm less more

/-- How a term is written: a factor from two on, and the macro applied to the size. -/
def Term.spelling (term : Term) : String :=
  (if 2 ≤ term.count then Nat.repr term.count ++ "*" else "") ++ sizeMacro term.kind ++ "(" ++
    Nat.repr term.size ++ ")"

/-- The normal form for some arrays and objects, each given by its kind and its size. -/
structure Canonical (bag : Multiset (Composite × Nat)) (terms : List Term) (text : String) :
    Prop where
  ordered : terms.Pairwise Term.Precedes
  counted : ∀ term, term ∈ terms ↔ 0 < term.count ∧ bag.count (term.kind, term.size) = term.count
  written : text = if terms = [] then "0" else " + ".intercalate (terms.map Term.spelling)
  read : read? text = some terms

/-- Arrays and objects of the same sizes have one normal form. -/
theorem Canonical.unique {bag : Multiset (Composite × Nat)} {terms others : List Term}
    {text other : String} (canonical : Canonical bag terms text)
    (canonical' : Canonical bag others other) : text = other := by
  have nodup : ∀ {terms : List Term}, terms.Pairwise Term.Precedes → terms.Nodup := by
    intro terms ordered
    refine ordered.imp ?_
    rintro term _ before rfl
    exact before.asymm before
  have same : terms.Perm others := by
    rw [List.perm_ext_iff_of_nodup (nodup canonical.ordered) (nodup canonical'.ordered)]
    intro term
    rw [canonical.counted, canonical'.counted]
  have equal : terms = others :=
    same.eq_of_pairwise (fun _ _ _ _ before after => absurd after before.asymm) canonical.ordered
      canonical'.ordered
  rw [canonical.written, canonical'.written, equal]

theorem count_sizesOf (kind : Composite) (composites : List (Composite × Nat)) (size : Nat) :
    (sizesOf kind composites).count size = Multiset.count (kind, size) ↑composites := by
  rw [Multiset.coe_count, sizesOf, List.count_filterMap]
  refine List.countP_congr ?_
  rintro ⟨other, n⟩ _
  by_cases same : other = kind <;> simp [same]

section

variable {kind : Composite} {composites : List (Composite × Nat)} {term : Term}

theorem mem_termsOf : term ∈ termsOf kind composites ↔
    term.kind = kind ∧ 0 < term.count ∧
      Multiset.count (kind, term.size) ↑composites = term.count := by
  obtain ⟨ordered, counts⟩ := tally_counts (sizesOf kind composites)
  obtain ⟨other, size, count⟩ := term
  simp only [termsOf, List.mem_map, Prod.exists, mem_tally_iff ordered, counts, count_sizesOf,
    Term.mk.injEq]
  constructor
  · rintro ⟨_, _, entry, rfl, rfl, rfl⟩
    exact ⟨rfl, entry⟩
  · rintro ⟨rfl, entry⟩
    exact ⟨_, _, entry, rfl, rfl, rfl⟩

/-- The terms are those that count something, and they count all there is of their kind and size. -/
theorem mem_terms : term ∈ terms composites ↔
    0 < term.count ∧ Multiset.count (term.kind, term.size) ↑composites = term.count := by
  rw [terms, List.mem_append, mem_termsOf, mem_termsOf]
  obtain ⟨kind, size, count⟩ := term
  cases kind <;> simp

private theorem termsOf_ordered : (termsOf kind composites).Pairwise Term.Precedes := by
  rw [termsOf, List.pairwise_map]
  refine (tally_counts (sizesOf kind composites)).1.ascending.imp ?_
  intro entry other less
  exact .inr ⟨rfl, less⟩

theorem terms_ordered : (terms composites).Pairwise Term.Precedes := by
  rw [terms, List.pairwise_append]
  refine ⟨termsOf_ordered, termsOf_ordered, ?_⟩
  intro term array other object
  exact .inl ⟨(mem_termsOf.mp array).1, (mem_termsOf.mp object).1⟩

end

/-- A term that counts something is written in its normal form. -/
theorem text_eq_spelling {term : Term} (positive : 0 < term.count) :
    term.text = term.spelling := by
  rw [Term.text, Term.spelling]
  by_cases single : term.count = 1
  · rw [if_pos single, if_neg (by omega), String.empty_append, String.append_assoc]
  · rw [if_neg single, if_pos (by omega)]
    simp only [String.append_assoc]

/-- The expression for some arrays and objects is their normal form. -/
theorem canonical_text (composites : List (Composite × Nat)) :
    Canonical composites (terms composites) (text (terms composites)) := by
  refine ⟨terms_ordered, fun term => mem_terms, ?_, read_text _⟩
  have spellings : (terms composites).map Term.text = (terms composites).map Term.spelling :=
    List.map_congr_left fun term member => text_eq_spelling (mem_terms.mp member).1
  rw [← spellings]
  cases terms composites with
  | nil => rfl
  | cons term rest => rfl

/-- The normal form is a zero only where there is nothing to count. -/
theorem Canonical.eq_zero_iff {bag : Multiset (Composite × Nat)} {terms : List Term} {text : String}
    (canonical : Canonical bag terms text) : text = "0" ↔ bag = 0 := by
  constructor
  · rintro rfl
    have empty : [] = terms := Option.some.inj canonical.read
    refine Multiset.eq_zero_of_forall_notMem ?_
    intro composite member
    have listed : ⟨composite.1, composite.2, bag.count composite⟩ ∈ terms :=
      (canonical.counted _).mpr ⟨Multiset.count_pos.mpr member, rfl⟩
    rw [← empty] at listed
    cases listed
  · rintro rfl
    have empty : terms = [] := by
      refine List.eq_nil_iff_forall_not_mem.mpr ?_
      intro term member
      obtain ⟨positive, counts⟩ := (canonical.counted term).mp member
      rw [Multiset.count_zero] at counts
      omega
    rw [canonical.written, if_pos empty]

end BufferSize

namespace Json.Value

/-- The arrays and objects anywhere in a value, each as its kind and its number of children. In what
order they come is left out. -/
def compositeBag (v : Value) : Multiset (Composite × Nat) :=
  ↑((v.nodes []).filterMap fun node => node.2.ownComposite?)

/-- A value becomes another one without an array or object being added, removed or given another
number of children: values without children and keys are replaced, and children change places, at
any depth and as often as is wanted. -/
inductive Rearranged : Value → Value → Prop
  | leaf {v w : Value} (childless : rootKind v = none) (childless' : rootKind w = none) :
      Rearranged v w
  | elements {items others : List Value} (places : items.Perm others) :
      Rearranged (array items) (array others)
  | members {members others : List (String × Value)}
      (places : (members.map Prod.snd).Perm (others.map Prod.snd)) :
      Rearranged (object members) (object others)
  | element (before after : List Value) {v w : Value} (below : Rearranged v w) :
      Rearranged (array (before ++ v :: after)) (array (before ++ w :: after))
  | member (before after : List (String × Value)) (key : String) {v w : Value}
      (below : Rearranged v w) :
      Rearranged (object (before ++ (key, v) :: after)) (object (before ++ (key, w) :: after))
  | trans {u v w : Value} (first : Rearranged u v) (next : Rearranged v w) : Rearranged u w

theorem compositeBag_eq (v : Value) : v.compositeBag = ↑v.composites := by
  rw [compositeBag, composites_eq]

private theorem composites_childless {v : Value} (childless : rootKind v = none) :
    v.composites = [] := by
  cases v with
  | null | scalar => rfl
  | array | object => cases childless

/-- Rearranging moves arrays and objects about and leaves them what they are. -/
theorem composites_rearranged {v w : Value} (rearranged : Rearranged v w) :
    v.composites.Perm w.composites := by
  induction rearranged with
  | leaf childless childless' =>
    rw [composites_childless childless, composites_childless childless']
  | elements places =>
    rw [composites, composites, itemsComposites_eq, itemsComposites_eq, places.length_eq]
    exact (places.flatMap_right composites).cons _
  | members places =>
    have same := places.flatMap_right composites
    have lengths := places.length_eq
    rw [List.flatMap_map, List.flatMap_map] at same
    rw [List.length_map, List.length_map] at lengths
    rw [composites, composites, membersComposites_eq, membersComposites_eq, lengths]
    exact same.cons _
  | element before after _ ih =>
    simp only [composites, itemsComposites_eq, List.flatMap_append, List.flatMap_cons,
      List.length_append, List.length_cons]
    exact ((ih.append_right _).append_left _).cons _
  | member before after key _ ih =>
    simp only [composites, membersComposites_eq, List.flatMap_append, List.flatMap_cons,
      List.length_append, List.length_cons]
    exact ((ih.append_right _).append_left _).cons _
  | trans _ _ first next => exact first.trans next

end Json.Value

/-- The expression for the size of the buffer depends on the arrays and objects of the document and
their sizes alone, however they are arranged and whatever else there is. It is their normal form:
one term for each kind and size, arrays first and sizes ascending, a factor from two on, and a zero
if there are none. -/
theorem buffer_size_canonical :
    (∀ document other : Value, document.compositeBag = other.compositeBag →
      document.bufferSize = other.bufferSize) ∧
    (∀ document other : Value, document.Rearranged other →
      document.bufferSize = other.bufferSize) ∧
    ∀ document : Value,
      (∃ terms, BufferSize.Canonical document.compositeBag terms document.bufferSize) ∧
        (document.bufferSize = "0" ↔ document.compositeBag = 0) := by
  have canonical : ∀ document : Value, BufferSize.Canonical document.compositeBag
      (BufferSize.terms document.composites) document.bufferSize := by
    intro document
    rw [Value.compositeBag_eq]
    exact BufferSize.canonical_text document.composites
  have determined : ∀ document other : Value, document.compositeBag = other.compositeBag →
      document.bufferSize = other.bufferSize := by
    intro document other same
    exact (canonical document).unique (same ▸ canonical other)
  refine ⟨determined, ?_, ?_⟩
  · intro document other rearranged
    apply determined
    rw [Value.compositeBag_eq, Value.compositeBag_eq, Multiset.coe_eq_coe]
    exact Value.composites_rearranged rearranged
  · intro document
    exact ⟨⟨_, canonical document⟩, (canonical document).eq_zero_iff⟩

theorem buffer_size_canonical_of_moved_child :
    (Value.array [.array [.array []], .null]).bufferSize =
        (Value.array [.array [], .array [.ofString "x"]]).bufferSize ∧
      (Value.object [("a", .null), ("b", .array [])]).bufferSize =
        (Value.object [("c", .array []), ("a", .null)]).bufferSize := by
  obtain ⟨determined, rearranging, _⟩ := buffer_size_canonical
  refine ⟨determined _ _ ?_, rearranging _ _ (.members (.swap _ _ _))⟩
  rw [Value.compositeBag_eq, Value.compositeBag_eq]
  decide

end JsonUnpack
