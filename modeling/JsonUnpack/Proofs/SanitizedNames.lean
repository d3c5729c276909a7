import JsonUnpack.Proofs.StemNames
import Mathlib.Data.List.Chain

/-! What is left of a key in a name. Its letters and digits stay, in order, and of each gap between
them only one thing stays, namely whether there was anything in it. Runs are squeezed as a whole, so
it makes no difference if parts of a key were sanitized before, even where a run goes on from one
part to the next. -/
namespace JsonUnpack.Name

/-- The ASCII letters and digits of a text. -/
def letters (text : String) : List Char := text.toList.filter Char.isAlphanum

/-- The other characters of a text, one list for each gap: before the first letter or digit, between
each two neighbours, and after the last one. -/
def gaps (text : String) : List (List Char) := text.toList.splitOnP Char.isAlphanum

/-- What a gap becomes. -/
def mark (gap : List Char) : List Char := if gap = [] then [] else ['_']

theorem toList_sanitize (text : String) : (sanitize text).toList = squeeze false text.toList :=
  String.toList_ofList

private theorem underscore_plain : '_'.isAlphanum = false := rfl

private theorem letters_squeeze (gap : Bool) (text : List Char) :
    (squeeze gap text).filter Char.isAlphanum = text.filter Char.isAlphanum := by
  fun_induction squeeze gap text with
  | case1 => rfl
  | case2 gap c rest alphanum ih => simp [alphanum, ih]
  | case3 c rest other ih => simp [other, ih]
  | case4 gap c rest other new ih => simpa [other] using ih

theorem letters_sanitize (text : String) : letters (sanitize text) = letters text := by
  unfold letters
  rw [toList_sanitize, letters_squeeze]

private theorem gaps_squeeze (gap : Bool) (text : List Char) :
    (squeeze gap text).splitOnP Char.isAlphanum =
      ((text.splitOnP Char.isAlphanum).map mark).modifyHead
        fun first => if gap then [] else first := by
  fun_induction squeeze gap text with
  | case1 gap => simp [mark]
  | case2 gap c rest alphanum ih =>
    rw [List.splitOnP_cons_eq_if_modifyHead, if_pos alphanum, ih,
      List.splitOnP_cons_eq_if_modifyHead, if_pos alphanum]
    cases rest.splitOnP Char.isAlphanum <;> simp [mark]
  | case3 c rest other ih =>
    rw [ih, List.splitOnP_cons_eq_if_modifyHead, if_neg other]
    cases rest.splitOnP Char.isAlphanum <;> rfl
  | case4 gap c rest other new ih =>
    rw [List.splitOnP_cons_eq_if_modifyHead, underscore_plain, ih,
      List.splitOnP_cons_eq_if_modifyHead, if_neg other]
    cases rest.splitOnP Char.isAlphanum <;> simp [mark, new]

theorem gaps_sanitize (text : String) : gaps (sanitize text) = (gaps text).map mark := by
  unfold gaps
  rw [toList_sanitize, gaps_squeeze]
  exact congrFun List.modifyHead_id _

private theorem squeeze_head {text : List Char} {next : Char}
    (head : next ∈ (squeeze true text).head?) : next.isAlphanum = true := by
  induction text with
  | nil => cases head
  | cons c rest ih =>
    by_cases alphanum : c.isAlphanum = true
    · simp only [squeeze, alphanum, if_true, List.head?_cons, Option.mem_some_iff] at head
      exact head ▸ alphanum
    · exact ih (by simpa [squeeze, alphanum] using head)

private theorem squeeze_apart (gap : Bool) (text : List Char) :
    (squeeze gap text).IsChain fun c next => c ≠ '_' ∨ next ≠ '_' := by
  have not_underscore {c : Char} (alphanum : c.isAlphanum = true) : c ≠ '_' := by
    rintro rfl
    cases alphanum
  fun_induction squeeze gap text with
  | case1 => exact .nil
  | case2 gap c rest alphanum ih =>
    exact List.isChain_cons.mpr ⟨fun _ _ => .inl (not_underscore alphanum), ih⟩
  | case3 c rest other ih => exact ih
  | case4 gap c rest other new ih =>
    exact List.isChain_cons.mpr ⟨fun _ head => .inr (not_underscore (squeeze_head head)), ih⟩

private theorem squeeze_front (gap : Bool) (front later : List Char) :
    squeeze gap (squeeze gap front ++ later) = squeeze gap (front ++ later) := by
  fun_induction squeeze gap front with
  | case1 => rfl
  | case2 gap c rest alphanum ih => simp [squeeze, alphanum, ih]
  | case3 c rest other ih => simp [squeeze, other, ih]
  | case4 gap c rest other new ih => simp [squeeze, other, new, underscore_plain, ih]

private theorem squeeze_squeezed (gap : Bool) (text : List Char) :
    squeeze gap (squeeze gap text) = squeeze gap text := by
  simpa using squeeze_front gap text []

private theorem squeeze_back (gap : Bool) (front later : List Char) :
    squeeze gap (front ++ squeeze false later) = squeeze gap (front ++ later) := by
  induction front generalizing gap with
  | nil =>
    cases later with
    | nil => rfl
    | cons c rest =>
      by_cases alphanum : c.isAlphanum = true
      · simp [squeeze, alphanum, squeeze_squeezed]
      · simp [squeeze, alphanum, underscore_plain, squeeze_squeezed]
  | cons c front ih => simp [squeeze, ih]

theorem sanitize_sanitized (text : String) : sanitize (sanitize text) = sanitize text := by
  apply String.toList_inj.mp
  simp only [toList_sanitize, squeeze_squeezed]

theorem sanitize_parts (text more : String) :
    sanitize (sanitize text ++ sanitize more) = sanitize (text ++ more) := by
  apply String.toList_inj.mp
  simp only [toList_sanitize, String.toList_append, squeeze_front, squeeze_back]

/-- A sanitized text consists of letters, digits and underscores, no two underscores stand next to
each other, its letters and digits are those of the text, and of its gaps just those have an
underscore in which the text has something. Sanitizing it again changes nothing, and two parts of a
text may be sanitized before the whole is. -/
theorem sanitize_is_stable (text more : String) :
    PlainName (sanitize text) ∧
    (sanitize text).toList.IsChain (fun c next => c ≠ '_' ∨ next ≠ '_') ∧
    letters (sanitize text) = letters text ∧
    gaps (sanitize text) = (gaps text).map mark ∧
    sanitize (sanitize text) = sanitize text ∧
    sanitize (text ++ more) = sanitize (sanitize text ++ sanitize more) := by
  have apart : (sanitize text).toList.IsChain (fun c next => c ≠ '_' ∨ next ≠ '_') := by
    rw [toList_sanitize]
    exact squeeze_apart false text.toList
  exact ⟨plain_sanitize text, apart, letters_sanitize text, gaps_sanitize text,
    sanitize_sanitized text, (sanitize_parts text more).symm⟩

end JsonUnpack.Name
