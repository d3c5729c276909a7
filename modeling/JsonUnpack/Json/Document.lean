import JsonUnpack.Json.Reader

/-! Reading builds documents. A key that comes again replaces the value of the first one, so however
often a text repeats a key, no object that is read does. -/
namespace JsonUnpack.Json

section

variable {α : Type} {p : α → Prop}

private theorem elements_yield {element : Reader α}
    (yields : ∀ {text rest a}, element.run text = .ok (a, rest) → p a) {first : Bool}
    {text rest : List Char} {items : List α}
    (read : elements element first text = .ok (items, rest)) : ∀ item ∈ items, p item := by
  fun_induction elements element first text generalizing items with
  | case1 => cases read
  | case2 =>
    cases read
    exact List.forall_mem_nil _
  | case3 => cases read
  | case4 _ _ _ _ _ _ readItem _ ih =>
    obtain ⟨later, readLater, rfl⟩ := Reading.map_eq_ok.mp read
    exact List.forall_mem_cons.mpr ⟨yields readItem, ih readLater⟩

private theorem members_yield {value : Reader α}
    (yields : ∀ {text rest a}, value.run text = .ok (a, rest) → p a) {first : Bool}
    {text rest : List Char} {pairs : List (String × α)}
    (read : members value first text = .ok (pairs, rest)) : ∀ pair ∈ pairs, p pair.2 := by
  fun_induction members value first text generalizing pairs with
  | case1 => cases read
  | case2 =>
    cases read
    exact List.forall_mem_nil _
  | case3 => cases read
  | case4 _ _ _ _ _ _ _ readMember _ ih =>
    obtain ⟨later, readLater, rfl⟩ := Reading.map_eq_ok.mp read
    obtain ⟨_, _, _, readValue⟩ := Reading.andThen_eq_ok.mp readMember
    exact List.forall_mem_cons.mpr ⟨yields readValue, ih readLater⟩

theorem keys_setMember (key : String) (a : α) (members : List (String × α)) :
    (setMember key a members).map Prod.fst =
      if key ∈ members.map Prod.fst then members.map Prod.fst
      else members.map Prod.fst ++ [key] := by
  induction members with
  | nil => rfl
  | cons member members ih =>
    obtain ⟨other, old⟩ := member
    rw [setMember]
    by_cases same : other = key
    · rw [if_pos same, if_pos (same ▸ List.mem_cons_self), same]
      rfl
    · rw [if_neg same, List.map_cons, List.map_cons, ih]
      by_cases inside : key ∈ members.map Prod.fst
      · rw [if_pos inside, if_pos (List.mem_cons_of_mem _ inside)]
      · rw [if_neg inside, if_neg, List.cons_append]
        intro member
        rcases List.mem_cons.mp member with equal | later
        · exact same equal.symm
        · exact inside later

private theorem nodup_setMember (key : String) (a : α) {members : List (String × α)}
    (distinct : (members.map Prod.fst).Nodup) : ((setMember key a members).map Prod.fst).Nodup := by
  rw [keys_setMember]
  split
  · exact distinct
  · rename_i new
    rw [List.nodup_append]
    refine ⟨distinct, List.pairwise_singleton _ key, ?_⟩
    rintro other inside key' same rfl
    exact new (List.mem_singleton.mp same ▸ inside)

private theorem of_mem_setMember {key : String} {a : α} {members : List (String × α)}
    (held : p a) (all : ∀ member ∈ members, p member.2) :
    ∀ member ∈ setMember key a members, p member.2 := by
  induction members with
  | nil => exact List.forall_mem_singleton.mpr held
  | cons member members ih =>
    obtain ⟨first, later⟩ := List.forall_mem_cons.mp all
    rw [setMember]
    split
    · exact List.forall_mem_cons.mpr ⟨held, later⟩
    · exact List.forall_mem_cons.mpr ⟨first, ih later⟩

/-- Whatever pairs are read, the members made of them have distinct keys and no other values. -/
theorem membersOf_distinct {pairs : List (String × α)} (all : ∀ pair ∈ pairs, p pair.2) :
    ((membersOf pairs).map Prod.fst).Nodup ∧ ∀ member ∈ membersOf pairs, p member.2 := by
  have step : ∀ sofar : List (String × α), (sofar.map Prod.fst).Nodup →
      (∀ member ∈ sofar, p member.2) →
      ((pairs.foldl (fun members (key, value) => setMember key value members) sofar).map
        Prod.fst).Nodup ∧
      ∀ member ∈ pairs.foldl (fun members (key, value) => setMember key value members) sofar,
        p member.2 := by
    induction pairs with
    | nil =>
      intro sofar distinct held
      exact ⟨distinct, held⟩
    | cons pair pairs ih =>
      intro sofar distinct held
      obtain ⟨first, later⟩ := List.forall_mem_cons.mp all
      exact ih later _ (nodup_setMember pair.1 pair.2 distinct) (of_mem_setMember first held)
  exact step [] List.nodup_nil nofun

end

private theorem childless_distinct {text rest : List Char} {v : Value}
    (read : childless text = .ok (v, rest)) : v.KeysDistinct := by
  unfold childless at read
  split at read
  · cases read
  · obtain ⟨_, _, rfl⟩ := Reading.map_eq_ok.mp read
    exact .null
  · obtain ⟨_, _, rfl⟩ := Reading.map_eq_ok.mp read
    exact .scalar _
  · obtain ⟨_, _, rfl⟩ := Reading.map_eq_ok.mp read
    exact .scalar _
  · obtain ⟨_, _, rfl⟩ := Reading.map_eq_ok.mp read
    exact .scalar _
  · obtain ⟨_, _, rfl⟩ := Reading.map_eq_ok.mp read
    exact .scalar _
  · split at read
    · obtain ⟨_, _, rfl⟩ := Reading.map_eq_ok.mp read
      exact .scalar _
    · cases read

private theorem value_over_distinct {child : Option (Reader Value)}
    (distinct : ∀ reader ∈ child, ∀ {text rest v}, reader.run text = .ok (v, rest) → v.KeysDistinct)
    {text rest : List Char} {v : Value} (read : valueOver child text = .ok (v, rest)) :
    v.KeysDistinct := by
  unfold valueOver at read
  split at read
  · split at read
    · cases read
    · obtain ⟨items, readItems, rfl⟩ := Reading.map_eq_ok.mp read
      exact .array (elements_yield (distinct _ rfl) readItems)
  · split at read
    · cases read
    · obtain ⟨pairs, readPairs, rfl⟩ := Reading.map_eq_ok.mp read
      obtain ⟨own, each⟩ := membersOf_distinct (members_yield (distinct _ rfl) readPairs)
      exact .object own each
  · exact childless_distinct read

private theorem value_distinct (room : Nat) {text rest : List Char} {v : Value}
    (read : (value room).run text = .ok (v, rest)) : v.KeysDistinct := by
  induction room generalizing text rest v with
  | zero =>
    have unfolded : valueOver none text = .ok (v, rest) := read
    apply value_over_distinct _ unfolded
    intro reader none
    cases none
  | succ room ih =>
    have unfolded : valueOver (some (value room)) text = .ok (v, rest) := read
    apply value_over_distinct _ unfolded
    intro reader same
    cases same
    exact ih

private theorem distinct_of_readValue {text : String} {v : Value} (read : readValue text = .ok v) :
    v.KeysDistinct := by
  rw [readValue] at read
  split at read
  · rename_i found rest reading
    rw [finish] at read
    split at read
    · cases read
      exact value_distinct nestingLimit reading
    · cases read
  · cases read

/-- Reads the document that a text holds. -/
def read (text : String) : Except (Fault Cause) Document :=
  match reading : readValue text with
  | .ok v => .ok ⟨v, distinct_of_readValue reading⟩
  | .error fault => .error fault

theorem map_value_read (text : String) : (read text).map Document.value = readValue text := by
  unfold read
  split <;> exact Eq.symm ‹_›

theorem read_eq_ok_iff {text : String} {document : Document} :
    read text = .ok document ↔ readValue text = .ok document.value := by
  rw [← map_value_read]
  cases read text with
  | error fault => exact ⟨nofun, nofun⟩
  | ok other =>
    obtain ⟨v, distinct⟩ := other
    obtain ⟨w, distinct'⟩ := document
    simp [Except.map]

theorem read_eq_error_iff {text : String} {fault : Fault Cause} :
    read text = .error fault ↔ readValue text = .error fault := by
  rw [← map_value_read]
  cases read text with
  | error other => simp [Except.map]
  | ok document => exact ⟨nofun, nofun⟩

end JsonUnpack.Json
