import JsonUnpack.Proofs.SpellingReading

/-! Reading undoes writing, up to the depth that the reader allows, and past that depth it refuses.
The compact text of a value is one of the texts that spell it, and where no key repeats there is
nothing left to settle. -/
namespace JsonUnpack.Json

/-- A value that is no floating-point number. -/
@[simp] def Value.ownWhole : Value → Prop
  | .scalar (.number (.float _)) => False
  | _ => True

/-- A value with no floating-point number anywhere. -/
def Value.Floatless (v : Value) : Prop := v.Every Value.ownWhole

/-! Compact texts. -/

private theorem spells_char (c : Char) : SpellsChar c (quotedChar c) := by
  unfold quotedChar
  split
  · rename_i letter escaped
    have listed : (letter, c) ∈ shortEscapes := by
      unfold escapeLetter? at escaped
      split at escaped <;> cases escaped <;> decide
    exact .short listed
  · rename_i plain
    split
    · rename_i control
      have digits : ∀ n < 0x20,
          SpellsUnit n ['0', '0', Nat.digitChar (n / 16), Nat.digitChar (n % 16)] := by
        unfold SpellsUnit SpellsHexDigit
        decide
      exact .unit (digits c.toNat control)
    · rename_i shown
      refine .raw (Nat.le_of_not_lt shown) ?_ ?_
      · rintro rfl
        cases plain
      · rintro rfl
        cases plain

private theorem spells_text (text : List Char) : SpellsText text (text.flatMap quotedChar) := by
  induction text with
  | nil => exact .nil
  | cons c text ih => exact .cons (spells_char c) ih

theorem spells_digits (n : Nat) : SpellsNatural n (decimalDigits n) where
  written := Nat.toDigits_ne_nil
  digits _ member := digit_of_mem member
  value := Nat.ofDigitChars_ten_toDigits
  lead head := by
    rcases Nat.eq_zero_or_pos n with rfl | positive
    · rfl
    · obtain ⟨d, more, digits, nonzero⟩ := digits_lead positive
      change (Nat.toDigits 10 n).head? = _ at head
      rw [digits] at head
      exact absurd (Option.some.inj head) nonzero

private theorem spells_integer (n : Int) : SpellsInteger n (integerText n) := by
  cases n with
  | ofNat n => exact .natural (spells_digits n)
  | negSucc n => exact .negative (spells_digits (n + 1)) (Nat.succ_ne_zero n)

private theorem spells_scalar {s : Scalar} (whole : (Value.scalar s).ownWhole) :
    Spells (.scalar s) s.compactChars := by
  cases s with
  | bool b =>
    cases b with
    | true => exact .true
    | false => exact .false
  | number n =>
    cases n with
    | whole n => exact .integer (spells_integer n.val)
    | float x => exact whole.elim
  | string s => exact .string (spells_text s.toList)

private theorem spells_array {items : List Value}
    (each : ∀ item ∈ items, Spells item item.compactChars) :
    Spells (.array items) (Value.array items).compactChars := by
  have spelled := @Spells.array [] (items.map fun item => (item, item.compactChars)) nofun
    (List.forall_mem_map.mpr each)
  rw [List.map_map, List.map_map] at spelled
  rw [Value.compactChars, Value.itemTexts_eq_map]
  simpa [Function.comp_def] using spelled

/-- A key as the compact text of an object has it. -/
theorem spells_key (key : String) : SpellsLabel key (quoted key.toList ++ [':']) := by
  have spelled : SpellsLabel key ([] ++ '"' :: (_ ++ '"' :: ([] ++ [':']))) :=
    .intro nofun (spells_text key.toList) nofun
  simpa [quoted] using spelled

private theorem spells_object {members : List (String × Value)}
    (each : ∀ member ∈ members, Spells member.2 member.2.compactChars) :
    Spells (.object members) (Value.object members).compactChars := by
  have spelled := @Spells.object [] (members.map fun member =>
      ⟨member.1, quoted member.1.toList ++ [':'], member.2, member.2.compactChars⟩)
    nofun (List.forall_mem_map.mpr fun member _ => spells_key member.1)
    (List.forall_mem_map.mpr each)
  rw [List.map_map, List.map_map] at spelled
  rw [Value.compactChars, Value.memberTexts_eq_map]
  simpa [Function.comp_def] using spelled

/-- The compact text of a value without floating-point numbers spells it. -/
theorem spells_compact {v : Value} (floatless : v.Floatless) : Spells v v.compactChars := by
  induction v using Value.tree_induction with
  | node v ih =>
    have below := fun child inside => ih child inside (Value.every_child floatless inside)
    cases v with
    | null => exact .null
    | scalar s => exact spells_scalar (Value.every_self floatless)
    | array items =>
      apply spells_array
      intro item member
      obtain ⟨n, inside⟩ := Value.item_mem_children member
      exact below _ inside
    | object members =>
      apply spells_object
      intro member inside
      exact below _ (Value.member_mem_children inside)

/-! Distinct keys. -/

private theorem setMember_new {key : String} {value : Value} {members : List (String × Value)}
    (new : key ∉ members.map Prod.fst) :
    setMember key value members = members ++ [(key, value)] := by
  induction members with
  | nil => rfl
  | cons member members ih =>
    rw [List.map_cons, List.mem_cons, not_or] at new
    rw [setMember, if_neg fun same => new.1 same.symm, ih new.2]
    rfl

private theorem foldl_setMember {pairs : List (String × Value)} (sofar : List (String × Value))
    (distinct : ((sofar ++ pairs).map Prod.fst).Nodup) :
    pairs.foldl (fun members (key, value) => setMember key value members) sofar =
      sofar ++ pairs := by
  induction pairs generalizing sofar with
  | nil => exact (List.append_nil sofar).symm
  | cons pair pairs ih =>
    obtain ⟨key, value⟩ := pair
    have new : key ∉ sofar.map Prod.fst := by
      rw [List.map_append, List.map_cons] at distinct
      intro inside
      exact (List.nodup_append.mp distinct).2.2 key inside key List.mem_cons_self rfl
    change pairs.foldl _ (setMember key value sofar) = _
    rw [setMember_new new, ih]
    · rw [List.append_assoc, List.singleton_append]
    · rwa [List.append_assoc, List.singleton_append]

/-- Pairs with distinct keys stay as they are. -/
theorem lastValues_of_distinct {pairs : List (String × Value)}
    (distinct : (pairs.map Prod.fst).Nodup) : lastValues pairs = pairs := by
  rw [← membersOf_eq_lastValues]
  exact foldl_setMember [] distinct

/-- A tree in which no key repeats is the document that it stands for. -/
theorem settled_of_distinct {v : Value} (distinct : v.KeysDistinct) : v.settled = v := by
  induction v using Value.tree_induction with
  | node v ih =>
    have below := fun child inside => ih child inside (distinct.child inside)
    cases v with
    | null | scalar => rfl
    | array items =>
      have each : ∀ item ∈ items, item.settled = item := by
        intro item member
        obtain ⟨n, inside⟩ := Value.item_mem_children member
        exact below _ inside
      rw [Value.settled, Value.settledItems_eq_map, List.map_congr_left each, List.map_id']
    | object members =>
      have each : ∀ member ∈ members, (member.1, member.2.settled) = member := by
        intro member inside
        rw [below _ (Value.member_mem_children inside)]
      rw [Value.settled, Value.settledMembers_eq_map, List.map_congr_left each, List.map_id',
        lastValues_of_distinct (Value.keysDistinct_object.mp distinct).1]

/-- A document that is not nested too deep is read back from its compact text. -/
theorem read_compact {document : Document} (floatless : document.value.Floatless)
    (shallow : document.value.nesting ≤ nestingLimit) :
    read document.value.compact = .ok document := by
  have spelled : Spells document document.value.compact.toList := by
    rw [Value.compact, String.toList_ofList]
    exact spells_compact floatless
  have reading := readValue_spelled spelled shallow
  rw [settled_of_distinct document.distinct] at reading
  exact read_eq_ok_iff.mpr reading

/-- A document that is nested too deep is refused for that. -/
theorem read_compact_deep {v : Value} (floatless : v.Floatless) (deep : nestingLimit < v.nesting) :
    ∃ fault, read v.compact = .error fault ∧ fault.cause = .nestedTooDeep := by
  have spelled : Spells v v.compact.toList := by
    rw [Value.compact, String.toList_ofList]
    exact spells_compact floatless
  obtain ⟨fault, failed, cause⟩ := readValue_spelled_deep spelled deep
  exact ⟨fault, read_eq_error_iff.mpr failed, cause⟩

end JsonUnpack.Json
