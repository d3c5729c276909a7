import JsonUnpack.Proofs.ListingEdits
import Mathlib.Algebra.Order.Ring.Int
import Mathlib.Data.List.Induction
import Mathlib.Data.List.Infix
import Mathlib.Order.Bounds.Image

/-! The indentation as a walk reflected at zero. Steps inwards go up and steps outwards go down, and
a step down from zero is lost. So the height of the walk is known from all its steps at once: it is
the greatest of where the steps lead from the start and of where any last few of them lead from
zero. -/
namespace JsonUnpack

/-- How far an edit moves the next line inwards. -/
def Edit.count : Edit → ℤ
  | .indent => 1
  | .unindent => -1
  | _ => 0

namespace Listing

/-- The steps of a walk, one for each edit. -/
def counts (edits : List Edit) : List ℤ := edits.map Edit.count

/-- Where steps lead from a start, and where the last of them, however many, lead from zero. -/
def heights (start : ℤ) (steps : List ℤ) : Set ℤ :=
  insert (start + steps.sum) (List.sum '' {last | last <:+ steps})

/-- Steps inwards and outwards that match: no step outwards comes before its step inwards, and in
the end there are as many of one kind as of the other. -/
structure Balanced (block : List Edit) : Prop where
  matched : ∀ front, front <+: block → 0 ≤ (counts front).sum
  level : (counts block).sum = 0

instance (block : List Edit) : Decidable (Balanced block) :=
  decidable_of_iff ((∀ front ∈ block.inits, 0 ≤ (counts front).sum) ∧ (counts block).sum = 0) (by
    simp only [List.mem_inits]
    exact ⟨fun ⟨matched, level⟩ => ⟨matched, level⟩, fun ⟨matched, level⟩ => ⟨matched, level⟩⟩)

/-- The line that a text becomes after some edits. -/
def lineAfter (edits : List Edit) (text : String) : Option String :=
  (empty.editAll (edits ++ [.line text])).lines.back?

variable {listing other : Listing}

/-- One more step is made from each height, and from zero a new walk may begin. -/
theorem heights_concat (start : ℤ) (steps : List ℤ) (step : ℤ) :
    heights start (steps ++ [step]) = insert 0 ((· + step) '' heights start steps) := by
  have total (front : List ℤ) : (front ++ [step]).sum = front.sum + step := by simp
  have ends : List.sum '' {last | last <:+ steps ++ [step]} =
      insert 0 ((· + step) '' (List.sum '' {last | last <:+ steps})) := by
    ext height
    constructor
    · rintro ⟨last, suffix, rfl⟩
      rcases List.suffix_concat_iff.mp suffix with rfl | ⟨front, rfl, shorter⟩
      · exact .inl rfl
      · exact .inr ⟨front.sum, ⟨front, shorter, rfl⟩, (total front).symm⟩
    · rintro (rfl | ⟨_, ⟨front, shorter, rfl⟩, rfl⟩)
      · exact ⟨[], List.nil_suffix, rfl⟩
      · exact ⟨front ++ [step], List.suffix_concat_iff.mpr (.inr ⟨front, rfl, shorter⟩),
          total front⟩
  rw [heights, ends, heights, Set.image_insert_eq, Set.insert_comm, total, ← Int.add_assoc]

/-- A step moves the depth by what it counts, but not below zero. -/
theorem depth_edit (listing : Listing) (edit : Edit) :
    ((listing.edit edit).depth : ℤ) = max 0 (listing.depth + edit.count) := by
  cases edit with
  | line text => simp [Listing.edit, line, Edit.count]
  | blank =>
    cases above : listing.clear with
    | true => simp [Listing.edit, blank_of_clear above, Edit.count]
    | false => simp [Listing.edit, blank_of_not_clear above, Edit.count]
  | indent =>
    simp only [Listing.edit, indent, Edit.count]
    omega
  | unindent =>
    simp only [Listing.edit, unindent, Edit.count]
    omega
  | declare settings place value => simp [Listing.edit, addAll_eq, Edit.count]

/-- After any edits the depth is the greatest of all heights. -/
theorem depth_greatest (listing : Listing) (edits : List Edit) :
    IsGreatest (heights listing.depth (counts edits)) ((listing.editAll edits).depth : ℤ) := by
  induction edits using List.reverseRecOn with
  | nil =>
    constructor
    · exact .inl (by simp [counts, editAll])
    · rintro _ (rfl | ⟨last, suffix, rfl⟩)
      · simp [counts, editAll]
      · simp [List.suffix_nil.mp suffix]
  | append_singleton edits edit ih =>
    have moved : Monotone (· + edit.count) := fun _ _ le => Int.add_le_add_right le edit.count
    rw [editAll_append, counts, List.map_append, List.map_singleton, heights_concat]
    change IsGreatest _ (((listing.editAll edits).edit edit).depth : ℤ)
    rw [depth_edit]
    exact (moved.map_isGreatest ih).insert 0

/-- The depth after some edits depends on nothing but the depth before them. -/
theorem depth_editAll_congr (same : listing.depth = other.depth) (edits : List Edit) :
    (listing.editAll edits).depth = (other.editAll edits).depth := by
  have greatest := depth_greatest listing edits
  rw [same] at greatest
  exact_mod_cast greatest.unique (depth_greatest other edits)

theorem Balanced.depth {block : List Edit} (balanced : Balanced block) (listing : Listing) :
    (listing.editAll block).depth = listing.depth := by
  have level := balanced.level
  have greatest : IsGreatest (heights listing.depth (counts block)) (listing.depth : ℤ) := by
    constructor
    · exact .inl (by simp [level])
    · rintro _ (rfl | ⟨last, ⟨front, split⟩, rfl⟩)
      · simp [level]
      · obtain ⟨first, rest, rfl, rfl, rfl⟩ := List.map_eq_append_iff.mp split.symm
        have up := balanced.matched first (List.prefix_append first rest)
        rw [counts, List.map_append, List.sum_append] at level
        rw [counts] at up
        omega
  exact_mod_cast (depth_greatest listing block).unique greatest

theorem depth_unindents (listing : Listing) (n : ℕ) :
    (listing.editAll (List.replicate n .unindent)).depth = listing.depth - n := by
  induction n generalizing listing with
  | zero => rfl
  | succ n ih =>
    have step : listing.editAll (List.replicate (n + 1) .unindent) =
      listing.unindent.editAll (List.replicate n .unindent) := rfl
    rw [step, ih]
    simp only [unindent]
    omega

theorem lineAfter_eq (edits : List Edit) (text : String) :
    lineAfter edits text = some (indentation (empty.editAll edits).depth ++ text) := by
  rw [lineAfter, editAll_append]
  exact Array.back?_push

private theorem lineAfter_congr {edits instead : List Edit}
    (same : (empty.editAll edits).depth = (empty.editAll instead).depth) (later : List Edit)
    (text : String) : lineAfter (edits ++ later) text = lineAfter (instead ++ later) text := by
  rw [lineAfter_eq, lineAfter_eq, editAll_append, editAll_append, depth_editAll_congr same]

/-- Every line is indented by two spaces for each level, and the level is the greatest of the
heights that the steps so far lead to. Steps inwards and outwards that match leave no trace in the
lines after them, wherever they stand, and steps outwards beyond the margin are forgotten. -/
theorem indentation_reflected_at_zero (before : List Edit) :
    ∃ depth : ℕ, IsGreatest (heights 1 (counts before)) (depth : ℤ) ∧
      (∀ text, (empty.editAll (before ++ [.line text])).lines =
        (empty.editAll before).lines.push (.ofList (List.replicate (2 * depth) ' ') ++ text)) ∧
      (∀ block, Balanced block → ∀ later text,
        lineAfter (before ++ block ++ later) text = lineAfter (before ++ later) text) ∧
      ∀ surplus later text,
        lineAfter (before ++ List.replicate (depth + surplus) .unindent ++ later) text =
          lineAfter (before ++ List.replicate depth .unindent ++ later) text := by
  refine ⟨(empty.editAll before).depth, depth_greatest empty before, ?_, ?_, ?_⟩
  · intro text
    rw [editAll_append]
    rfl
  · intro block balanced later text
    apply lineAfter_congr
    rw [editAll_append, balanced.depth]
  · intro surplus later text
    apply lineAfter_congr
    rw [editAll_append, editAll_append, depth_unindents, depth_unindents]
    omega

/-- A block below the margin, after more steps outwards than there are levels. -/
theorem indentation_reflected_at_zero_below_margin :
    Balanced [.indent, .line "b", .blank, .unindent] ∧
    lineAfter [.unindent, .unindent, .indent, .line "b", .blank, .unindent, .indent] "c" =
      lineAfter [.unindent, .unindent, .indent] "c" ∧
    lineAfter [.unindent, .unindent, .indent] "c" = some "  c" := by
  have balanced : Balanced [.indent, .line "b", .blank, .unindent] := by decide
  obtain ⟨_, _, _, unchanged, _⟩ := indentation_reflected_at_zero [.unindent, .unindent]
  exact ⟨balanced, unchanged _ balanced [.indent] "c", by decide⟩

end Listing

end JsonUnpack
