import JsonUnpack.Proofs.CompactText
import JsonUnpack.Proofs.ScalarReading
import Mathlib.Data.List.DropRight

/-! Every text that spells a document is read as that document, up to the depth that the reader
allows, and past that depth it is refused; so a program depends on its document and not on how the
text of the document is spelled. The reader of a value leaves the blanks after it, and all readers
pass over the blanks before what they read; so what is left of a text counts up to blanks only. The
induction is on the spelling, and the loops over elements and members are followed one spelled part
at a time. -/
namespace JsonUnpack

namespace Json

/-- A reading answers a result and leaves a given text, up to blanks, if there is room for the
brackets in what it reads; else it finds that there are too many. -/
structure Answers {α : Type} (room : Prop) (result : α) (rest : List Char) (reading : Reading α) :
    Prop where
  reads : room → ∃ after, reading = .ok (result, after) ∧ skipBlanks after = skipBlanks rest
  refuses : ¬room → ∃ fault, reading = .error fault ∧ fault.cause = .nestedTooDeep

/-- A text is read as a value, or refused, according to how deep its brackets are nested. -/
def ReadsWithin (room : Nat) (v : Value) (text : List Char) : Prop :=
  ∀ rest, Delimited rest →
    Answers (v.nesting ≤ room) v.settled rest ((value room).run (text ++ rest))

/-- Parts of a text as they are written in brackets: the first ones with commas between them only,
later ones with a comma before each. -/
def listed (first : Bool) (parts : List (List Char)) : List Char :=
  if first then commaSeparated parts else parts.flatMap fun part => ',' :: part

/-- What stands before a part. -/
def lead (first : Bool) : List Char := if first then [] else [',']

@[simp] theorem listed_nil (first : Bool) : listed first [] = [] := by
  cases first <;> rfl

theorem listed_cons (first : Bool) (part : List Char) (parts : List (List Char)) :
    listed first (part :: parts) = lead first ++ (part ++ listed false parts) := by
  cases first with
  | true => exact comma_separated_cons part parts
  | false => rfl

theorem delimited_listed {rest : List Char} {c : Char} (closes : c = ']' ∨ c = '\x7d')
    (parts : List (List Char)) : Delimited (listed false parts ++ c :: rest) := by
  cases parts with
  | nil => exact delimited_cons (.inr closes) rest
  | cons part parts =>
    rw [listed_cons, List.append_assoc]
    exact delimited_cons (.inl rfl) _

/-! Blanks. -/

private theorem blank_of_mem {c : Char} (member : c ∈ [' ', '\t', '\n', '\r']) :
    isBlank c = true := by
  simp only [List.mem_cons, List.not_mem_nil, or_false] at member
  rcases member with rfl | rfl | rfl | rfl <;> rfl

theorem skip_blanks_append {gap : List Char} (blank : Blanks gap) (rest : List Char) :
    skipBlanks (gap ++ rest) = skipBlanks rest :=
  List.dropWhile_append_of_pos fun c member => blank_of_mem (blank c member)

theorem skip_no_blanks {c : Char} (shown : isBlank c = false) (rest : List Char) :
    skipBlanks (c :: rest) = c :: rest := by
  rw [skipBlanks, List.dropWhile_cons_of_neg (by simp [shown])]

theorem skip_blanks_twice (text : List Char) :
    skipBlanks (skipBlanks text) = skipBlanks text :=
  List.dropWhile_idempotent isBlank text

private theorem value_past_blanks (room : Nat) {text other : List Char}
    (same : skipBlanks text = skipBlanks other) :
    (value room).run text = (value room).run other := by
  have alike : ∀ child, valueOver child text = valueOver child other := by
    intro child
    rw [valueOver, valueOver, same]
  cases room with
  | zero => exact alike none
  | succ room => exact alike (some (value room))

/-- A text starts, after blanks perhaps, with a character that is not the bracket that closes an
array. -/
def Opens (text : List Char) : Prop :=
  ∃ c tail, c ≠ ']' ∧ ∀ rest, skipBlanks (text ++ rest) = c :: (tail ++ rest)

/-- A text starts with a character that no reader of brackets or blanks takes. -/
def StartsPlain (text : List Char) : Prop :=
  ∃ c tail, text = c :: tail ∧ isBlank c = false ∧ c ≠ ']' ∧ c ≠ '[' ∧ c ≠ '\x7b'

theorem opens_cons {c : Char} (shown : isBlank c = false) (opening : c ≠ ']')
    (tail : List Char) : Opens (c :: tail) :=
  ⟨c, tail, opening, fun rest => skip_no_blanks shown (tail ++ rest)⟩

theorem opens_blanks {before text : List Char} (front : Blanks before) (opens : Opens text)
    (after : List Char) : Opens (before ++ (text ++ after)) := by
  obtain ⟨c, tail, opening, starts⟩ := opens
  refine ⟨c, tail ++ after, opening, ?_⟩
  intro rest
  rw [List.append_assoc, skip_blanks_append front, List.append_assoc, starts, List.append_assoc]

theorem opens_plain {text : List Char} (plain : StartsPlain text) : Opens text := by
  obtain ⟨c, tail, rfl, shown, opening, _⟩ := plain
  exact opens_cons shown opening tail

theorem digit_not_blank {c : Char} (digit : c.isDigit = true) : isBlank c = false := by
  cases blank : isBlank c with
  | false => rfl
  | true =>
    simp only [isBlank, Bool.or_eq_true, decide_eq_true_eq] at blank
    rcases blank with ((rfl | rfl) | rfl) | rfl <;> cases digit

theorem integer_starts_plain {n : Int} {text : List Char}
    (spelled : SpellsInteger n text) : StartsPlain text := by
  cases spelled with
  | natural digits =>
    rcases start : text with _ | ⟨d, more⟩
    · exact absurd start digits.written
    · have digit : d.isDigit = true := digits.digits d (start ▸ List.mem_cons_self)
      refine ⟨d, more, rfl, digit_not_blank digit, ?_, ?_, ?_⟩
      all_goals
        rintro rfl
        cases digit
  | negative => exact ⟨'-', _, rfl, rfl, by decide, by decide, by decide⟩

private theorem opens_spelled {v : Value} {text : List Char} (spelled : Spells v text) :
    Opens text := by
  induction spelled with
  | null | true | false | string => exact opens_cons rfl (by decide) _
  | integer spelled => exact opens_plain (integer_starts_plain spelled)
  | array | object => exact opens_cons rfl (by decide) _
  | blanks front _ back ih => exact opens_blanks front ih _

/-! The loops over what stands between two brackets. -/

/-- How a loop goes about the spelled parts: it stops at the closing bracket, and otherwise reads
the value of the next part and goes on after it. -/
structure FollowsParts {ι ρ : Type} (reader : Reader Value) (closing : Char) (proper : ι → Prop)
    (text valueText : ι → List Char) (result : ι → Value → ρ)
    (loop : Bool → List Char → Reading (List ρ)) : Prop where
  closes : closing = ']' ∨ closing = '\x7d'
  stops : ∀ first given rest, skipBlanks given = closing :: rest → loop first given = .ok ([], rest)
  takes : ∀ part, proper part → ∀ first given rest,
    skipBlanks given = skipBlanks (lead first ++ (text part ++ rest)) →
      loop first given = (reader.run (valueText part ++ rest)).andThen fun v after =>
        (loop false after).map (result part v :: ·)

private theorem parts_answered {ι ρ : Type} {room : Nat} {closing : Char} {proper : ι → Prop}
    {text valueText : ι → List Char} {node : ι → Value} {result : ι → Value → ρ}
    {loop : Bool → List Char → Reading (List ρ)} {parts : List ι}
    (follows : FollowsParts (value room) closing proper text valueText result loop)
    (each : ∀ part ∈ parts, proper part ∧ ReadsWithin room (node part) (valueText part))
    (first : Bool) {given rest : List Char}
    (same : skipBlanks given = skipBlanks (listed first (parts.map text) ++ closing :: rest)) :
    Answers (∀ part ∈ parts, (node part).nesting ≤ room)
      (parts.map fun part => result part (node part).settled) rest (loop first given) := by
  induction parts generalizing first given with
  | nil =>
    have shown : isBlank closing = false := by
      rcases follows.closes with rfl | rfl <;> rfl
    rw [List.map_nil, listed_nil, List.nil_append, skip_no_blanks shown] at same
    exact ⟨fun _ => ⟨rest, follows.stops first given rest same, rfl⟩, fun deep => absurd nofun deep⟩
  | cons part parts ih =>
    obtain ⟨⟨proper, own⟩, later⟩ := List.forall_mem_cons.mp each
    rw [List.map_cons, listed_cons, List.append_assoc, List.append_assoc] at same
    rw [follows.takes part proper first given _ same, List.forall_mem_cons]
    have delimited : Delimited (listed false (parts.map text) ++ closing :: rest) :=
      delimited_listed follows.closes _
    obtain ⟨reads, refuses⟩ := own _ delimited
    by_cases shallow : (node part).nesting ≤ room
    · obtain ⟨after, read, left⟩ := reads shallow
      obtain ⟨readsLater, refusesLater⟩ := ih later false left
      rw [read, Reading.andThen]
      constructor
      · rintro ⟨_, shallowLater⟩
        obtain ⟨behind, readLater, leftLater⟩ := readsLater shallowLater
        exact ⟨behind, by rw [readLater]; rfl, leftLater⟩
      · intro deep
        obtain ⟨fault, failed, cause⟩ := refusesLater fun all => deep ⟨shallow, all⟩
        exact ⟨fault, by rw [failed]; rfl, cause⟩
    · obtain ⟨fault, failed, cause⟩ := refuses shallow
      rw [failed]
      exact ⟨fun all => absurd all.1 shallow, fun _ => ⟨fault, rfl, cause⟩⟩

/-! Arrays. -/

private theorem next_element_closes {first : Bool} {given rest : List Char}
    (same : skipBlanks given = ']' :: rest) : nextElement first given = .ok (false, rest) := by
  rw [nextElement, same]
  rfl

private theorem next_element_opens {first : Bool} {given text rest : List Char} (opens : Opens text)
    (same : skipBlanks given = skipBlanks (lead first ++ (text ++ rest))) :
    nextElement first given = .ok (true, skipBlanks (text ++ rest)) := by
  obtain ⟨c, tail, opening, starts⟩ := opens
  cases first with
  | true =>
    have left : skipBlanks given = c :: (tail ++ rest) := same.trans (starts rest)
    rw [nextElement, left, starts]
    split
    · rename_i head
      cases head
    · rename_i head
      cases head
      exact absurd rfl opening
    · rename_i head
      cases head
      rfl
  | false =>
    have comma : skipBlanks given = ',' :: (text ++ rest) :=
      same.trans (skip_no_blanks (c := ',') rfl (text ++ rest))
    rw [nextElement, comma]
    split
    · rename_i head
      cases head
    · rename_i head
      cases head
    · rename_i head
      cases head
      rw [if_neg Bool.false_ne_true, if_pos rfl, starts]
      split
      · rename_i head
        cases head
      · rename_i head
        cases head
        exact absurd rfl opening
      · rename_i head
        cases head
        rfl

variable {reader : Reader Value}

private theorem and_then_ok {α β : Type} {reading : Reading α} {a : α} {rest : List Char}
    (next : α → List Char → Reading β) (read : reading = .ok (a, rest)) :
    reading.andThen next = next a rest := by
  rw [read, Reading.andThen]

private theorem and_then_error {α β : Type} {reading : Reading α} {fault : Fault Cause}
    (next : α → List Char → Reading β) (failed : reading = .error fault) :
    reading.andThen next = .error fault := by
  rw [failed, Reading.andThen]

private theorem elements_eq (first : Bool) (text : List Char) :
    elements reader first text = (nextElement first text).andThen fun more start =>
      if more then
        (reader.run start).andThen fun v rest => (elements reader false rest).map (v :: ·)
      else .ok ([], start) := by
  rw [elements]
  split
  · rename_i failed
    rw [and_then_error _ failed]
  · rename_i stopped
    rw [and_then_ok _ stopped, if_neg Bool.false_ne_true]
  · rename_i started
    rw [and_then_ok _ started, if_pos rfl]
    split
    · rename_i failed
      rw [and_then_error _ failed]
    · rename_i read
      rw [and_then_ok _ read]

private theorem elements_follow (room : Nat) :
    FollowsParts (value room) ']' (fun item : Value × List Char => Spells item.1 item.2) Prod.snd
      Prod.snd (fun _ v => v) (elements (value room)) where
  closes := .inl rfl
  stops first given rest same := by
    rw [elements_eq, next_element_closes same]
    rfl
  takes item spelled first given rest same := by
    rw [elements_eq, next_element_opens (opens_spelled spelled) same, Reading.andThen, if_pos rfl,
      value_past_blanks room (skip_blanks_twice _)]

/-! Objects. -/

theorem next_key_closes {first : Bool} {given rest : List Char}
    (same : skipBlanks given = '\x7d' :: rest) : nextKey first given = .ok (none, rest) := by
  rw [nextKey, same]
  rfl

theorem next_key_opens {first : Bool} {key : String} {label given rest : List Char}
    (spelled : SpellsLabel key label)
    (same : skipBlanks given = skipBlanks (lead first ++ (label ++ rest))) :
    ∃ after, nextKey first given = .ok (some key, after) ∧
      skipBlanks after = ':' :: rest := by
  cases spelled with
  | @intro before body after front spelled back =>
    have quote : skipBlanks (before ++ '"' :: (body ++ '"' :: (after ++ [':'])) ++ rest) =
        '"' :: (body ++ '"' :: (after ++ ':' :: rest)) := by
      rw [List.append_assoc, skip_blanks_append front, List.cons_append, skip_no_blanks rfl]
      simp
    have read := string_spelled spelled (after ++ ':' :: rest)
    have colon : skipBlanks (after ++ ':' :: rest) = ':' :: rest := by
      rw [skip_blanks_append back, skip_no_blanks rfl]
    refine ⟨after ++ ':' :: rest, ?_, colon⟩
    cases first with
    | true =>
      rw [nextKey, same.trans quote]
      refine (if_pos rfl).trans ((if_pos rfl).trans ?_)
      rw [read, Reading.map]
    | false =>
      have comma : skipBlanks given = ',' :: (_ ++ rest) :=
        same.trans (skip_no_blanks (c := ',') rfl _)
      rw [nextKey, comma]
      refine (if_neg Bool.false_ne_true).trans ((if_pos rfl).trans ?_)
      rw [quote]
      refine (congrArg (Reading.map some) read).trans ?_
      rfl

theorem colon_found {text rest : List Char} (same : skipBlanks text = ':' :: rest) :
    colon text = .ok ((), rest) := by
  rw [colon, same]
  rfl

private theorem member_colon {text rest : List Char} (same : skipBlanks text = ':' :: rest) :
    reader.member text = reader.run rest := by
  rw [Reader.member, colon_found same, Reading.andThen]

private theorem members_eq (first : Bool) (text : List Char) :
    members reader first text = (nextKey first text).andThen fun key? start =>
      match key? with
      | none => .ok ([], start)
      | some key => (reader.member start).andThen fun v rest =>
        (members reader false rest).map ((key, v) :: ·) := by
  rw [members]
  split
  · rename_i failed
    rw [and_then_error _ failed]
  · rename_i stopped
    rw [and_then_ok _ stopped]
  · rename_i started
    rw [and_then_ok _ started]
    dsimp only
    split
    · rename_i failed
      rw [and_then_error _ failed]
    · rename_i read
      rw [and_then_ok _ read]

private theorem members_follow (room : Nat) :
    FollowsParts (value room) '\x7d'
      (fun member : MemberSpelling => SpellsLabel member.key member.label)
      (fun member => member.label ++ member.text) MemberSpelling.text
      (fun member v => (member.key, v)) (members (value room)) where
  closes := .inr rfl
  stops first given rest same := by
    rw [members_eq, next_key_closes same]
    rfl
  takes member spelled first given rest same := by
    rw [List.append_assoc] at same
    obtain ⟨after, next, left⟩ := next_key_opens spelled same
    rw [members_eq, next, Reading.andThen]
    dsimp only
    rw [member_colon left]

/-! Values. -/

private theorem Answers.map {α β : Type} {room deeper : Prop} {result : α} {rest : List Char}
    {reading : Reading α} (answers : Answers room result rest reading) (same : deeper ↔ room)
    (f : α → β) : Answers deeper (f result) rest (reading.map f) where
  reads shallow := by
    obtain ⟨after, read, left⟩ := answers.reads (same.mp shallow)
    exact ⟨after, by rw [read]; rfl, left⟩
  refuses deep := by
    obtain ⟨fault, failed, cause⟩ := answers.refuses fun shallow => deep (same.mpr shallow)
    exact ⟨fault, by rw [failed]; rfl, cause⟩

private theorem items_nesting_le {items : List Value} {room : Nat} :
    Value.itemsNesting items ≤ room ↔ ∀ item ∈ items, item.nesting ≤ room := by
  induction items with
  | nil => exact ⟨fun _ => nofun, fun _ => Nat.zero_le room⟩
  | cons item items ih => rw [Value.itemsNesting, Nat.max_le, ih, List.forall_mem_cons]

private theorem members_nesting_le {members : List (String × Value)} {room : Nat} :
    Value.membersNesting members ≤ room ↔ ∀ member ∈ members, member.2.nesting ≤ room := by
  induction members with
  | nil => exact ⟨fun _ => nofun, fun _ => Nat.zero_le room⟩
  | cons member members ih => rw [Value.membersNesting, Nat.max_le, ih, List.forall_mem_cons]

private theorem value_succ (room : Nat) (text : List Char) :
    (value (room + 1)).run text = valueOver (some (value room)) text :=
  rfl

private theorem value_plain (room : Nat) {text : List Char} (plain : StartsPlain text)
    (rest : List Char) : (value room).run (text ++ rest) = childless (text ++ rest) := by
  obtain ⟨c, tail, rfl, shown, _, notBracket, notBrace⟩ := plain
  have alike : ∀ child,
      valueOver child (c :: (tail ++ rest)) = childless (c :: (tail ++ rest)) := by
    intro child
    rw [valueOver, skip_no_blanks shown]
    split
    · rename_i same
      cases same
      exact absurd rfl notBracket
    · rename_i same
      cases same
      exact absurd rfl notBrace
    · rfl
  cases room with
  | zero => exact alike none
  | succ room => exact alike (some (value room))

private theorem childless_reads_within {v : Value} {text : List Char} (room : Nat)
    (flat : v.nesting = 0) (settled : v.settled = v) (plain : StartsPlain text)
    (read : ∀ rest, Delimited rest → childless (text ++ rest) = .ok (v, rest)) :
    ReadsWithin room v text := by
  intro rest delimited
  rw [flat, settled]
  refine ⟨fun _ => ⟨rest, ?_, rfl⟩, fun deep => absurd (Nat.zero_le room) deep⟩
  rw [value_plain room plain, read rest delimited]

private theorem no_room {v : Value} {c : Char} (bracket : c = '[' ∨ c = '\x7b')
    (nested : 0 < v.nesting) (body : List Char) : ReadsWithin 0 v (c :: body) := by
  intro rest _
  refine ⟨fun shallow => absurd shallow (Nat.not_le_of_lt nested), fun _ => ?_⟩
  change ∃ fault, valueOver none (c :: (body ++ rest)) = _ ∧ _
  rcases bracket with rfl | rfl
  · rw [valueOver, skip_no_blanks rfl]
    exact ⟨_, rfl, rfl⟩
  · rw [valueOver, skip_no_blanks rfl]
    exact ⟨_, rfl, rfl⟩

private theorem array_reads_within {gap : List Char} {items : List (Value × List Char)}
    (blank : Blanks gap) (room : Nat)
    (each : ∀ item ∈ items, Spells item.1 item.2 ∧ ReadsWithin room item.1 item.2) :
    ReadsWithin (room + 1) (.array (items.map Prod.fst))
      ('[' :: (gap ++ (commaSeparated (items.map Prod.snd) ++ [']']))) := by
  intro rest _
  have within : (Value.array (items.map Prod.fst)).nesting ≤ room + 1 ↔
      ∀ item ∈ items, item.1.nesting ≤ room := by
    rw [Value.nesting, Nat.add_le_add_iff_right, items_nesting_le, List.forall_mem_map]
  have settled : (Value.array (items.map Prod.fst)).settled =
      .array (items.map fun item => item.1.settled) := by
    rw [Value.settled, Value.settledItems_eq_map, List.map_map]
    rfl
  have unfolded : (value (room + 1)).run
      ('[' :: (gap ++ (commaSeparated (items.map Prod.snd) ++ [']'])) ++ rest) =
        (elements (value room) true
          (gap ++ (commaSeparated (items.map Prod.snd) ++ ']' :: rest))).map .array := by
    rw [value_succ, List.cons_append, List.append_assoc, List.append_assoc, valueOver,
      skip_no_blanks rfl]
    rfl
  rw [settled, unfolded]
  exact (parts_answered (elements_follow room) each true (skip_blanks_append blank _)).map within
    Value.array

private theorem object_reads_within {gap : List Char} {members : List MemberSpelling}
    (blank : Blanks gap) (room : Nat)
    (each : ∀ member ∈ members, SpellsLabel member.key member.label ∧
      ReadsWithin room member.value member.text) :
    ReadsWithin (room + 1) (.object (members.map fun member => (member.key, member.value)))
      ('\x7b' :: (gap ++ (commaSeparated (members.map fun member => member.label ++ member.text) ++
        ['\x7d']))) := by
  intro rest _
  have within : (Value.object (members.map fun member => (member.key, member.value))).nesting ≤
      room + 1 ↔ ∀ member ∈ members, member.value.nesting ≤ room := by
    rw [Value.nesting, Nat.add_le_add_iff_right, members_nesting_le, List.forall_mem_map]
  have settled : (Value.object (members.map fun member => (member.key, member.value))).settled =
      .object (membersOf (members.map fun member => (member.key, member.value.settled))) := by
    rw [Value.settled, Value.settledMembers_eq_map, List.map_map, membersOf_eq_lastValues]
    rfl
  have unfolded : (value (room + 1)).run ('\x7b' :: (gap ++ (commaSeparated
      (members.map fun member => member.label ++ member.text) ++ ['\x7d'])) ++ rest) =
        (Json.members (value room) true (gap ++ (commaSeparated (members.map fun member =>
          member.label ++ member.text) ++ '\x7d' :: rest))).map
            fun pairs => .object (membersOf pairs) := by
    rw [value_succ, List.cons_append, List.append_assoc, List.append_assoc, valueOver,
      skip_no_blanks rfl]
    rfl
  rw [settled, unfolded]
  exact (parts_answered (members_follow room) each true (skip_blanks_append blank _)).map within
    fun pairs => Value.object (membersOf pairs)

/-- How deep a spelled value is nested decides whether it is read or refused: with so much room for
brackets or more it is read, and with less it is refused. -/
theorem reads_within {v : Value} {text : List Char} (spelled : Spells v text) (room : Nat) :
    ReadsWithin room v text := by
  induction spelled generalizing room with
  | null =>
    exact childless_reads_within room rfl rfl
      ⟨'n', _, rfl, rfl, by decide, by decide, by decide⟩ fun _ _ => rfl
  | true =>
    exact childless_reads_within room rfl rfl
      ⟨'t', _, rfl, rfl, by decide, by decide, by decide⟩ fun _ _ => rfl
  | false =>
    exact childless_reads_within room rfl rfl
      ⟨'f', _, rfl, rfl, by decide, by decide, by decide⟩ fun _ _ => rfl
  | integer spelled =>
    exact childless_reads_within room rfl rfl (integer_starts_plain spelled)
      fun _ delimited => childless_integer spelled delimited
  | @string s body spelled =>
    refine childless_reads_within room rfl rfl
      ⟨'"', _, rfl, rfl, by decide, by decide, by decide⟩ ?_
    intro rest _
    rw [List.cons_append, List.append_assoc, childless]
    exact congrArg (Reading.map Value.ofString) (string_spelled spelled rest)
  | array blank spelled ih =>
    cases room with
    | zero =>
      refine no_room (.inl rfl) ?_ _
      exact Nat.succ_pos _
    | succ room =>
      exact array_reads_within blank room fun item member =>
        ⟨spelled item member, ih item member room⟩
  | object blank labels _ ih =>
    cases room with
    | zero =>
      refine no_room (.inr rfl) ?_ _
      exact Nat.succ_pos _
    | succ room =>
      exact object_reads_within blank room fun member inside =>
        ⟨labels member inside, ih member inside room⟩
  | blanks front _ back ih =>
    intro rest delimited
    obtain ⟨reads, refuses⟩ := ih room _ (delimited_blanks back delimited)
    rw [List.append_assoc, List.append_assoc, value_past_blanks room (skip_blanks_append front _)]
    rw [skip_blanks_append back] at reads
    exact ⟨reads, refuses⟩

/-- A text is read as the document that it spells, if that is not nested too deep. -/
theorem readValue_spelled {v : Value} {text : String} (spelled : Spells v text.toList)
    (shallow : v.nesting ≤ nestingLimit) : readValue text = .ok v.settled := by
  obtain ⟨after, reads, left⟩ := (reads_within spelled nestingLimit [] delimited_nil).reads shallow
  rw [List.append_nil] at reads
  rw [readValue, reads]
  change finish id _ after = _
  rw [finish, left]
  rfl

/-- A text that spells a document that is nested too deep is refused for that. -/
theorem readValue_spelled_deep {v : Value} {text : String} (spelled : Spells v text.toList)
    (deep : nestingLimit < v.nesting) :
    ∃ fault, readValue text = .error fault ∧ fault.cause = .nestedTooDeep := by
  obtain ⟨fault, failed, cause⟩ := (reads_within spelled nestingLimit [] delimited_nil).refuses
    (Nat.not_le_of_lt deep)
  rw [List.append_nil] at failed
  rw [readValue, failed]
  exact ⟨fault, rfl, cause⟩

end Json

/-- However a text is spaced, whichever characters it escapes and however often its objects give a
key, there is a program for it, and that is the program for the document: in the document a repeated
key stays where it comes first and has the value that it comes with last. -/
theorem generate_spelled (settings : Settings) (bufferSize : String) {tree : Json.Value}
    {text : String} (spelled : Json.Spells tree text.toList) (shallow : tree.nesting ≤ 127) :
    generate settings bufferSize text = .ok (program settings bufferSize tree.settled) := by
  have reading : (Json.read text).map Json.Document.value = .ok tree.settled := by
    rw [Json.map_value_read]
    exact Json.readValue_spelled spelled shallow
  cases found : Json.read text with
  | error fault =>
    rw [found] at reading
    cases reading
  | ok document =>
    rw [found] at reading
    rw [generate, found, ← Except.ok.inj reading]
    rfl

open Json in
theorem generate_spelled_with_repeated_key :
    generate .standard "64"
      "\t\x7b\"\\u0061\":[ ],\n\"b\" : -1,\"a\":\"\\uD83D\\ude00\\/\"\x7d" =
    .ok (program .standard "64" (.object [("a", .ofString "😀/"),
      ("b", .ofNumber (.whole ⟨-1, by decide, by decide⟩))])) := by
  have unit : SpellsUnit 'a'.toNat ['0', '0', '6', '1'] := by
    unfold SpellsUnit SpellsHexDigit
    decide
  have high : SpellsUnit (0xD800 + ('😀'.toNat - 0x10000) / 0x400) ['D', '8', '3', 'D'] := by
    unfold SpellsUnit SpellsHexDigit
    decide
  have low : SpellsUnit (0xDC00 + ('😀'.toNat - 0x10000) % 0x400) ['d', 'e', '0', '0'] := by
    unfold SpellsUnit SpellsHexDigit
    decide
  have blank : ∀ c ∈ [' ', '\t', '\n', '\r'], Blanks [c] := by
    intro c member
    exact List.forall_mem_singleton.mpr member
  have a : SpellsChar 'a' ['a'] := .raw (by decide) (by decide) (by decide)
  have b : SpellsChar 'b' ['b'] := .raw (by decide) (by decide) (by decide)
  have first : SpellsLabel "a" "\"\\u0061\":".toList :=
    @SpellsLabel.intro "a" [] _ [] nofun (.cons (.unit unit) .nil) nofun
  have second : SpellsLabel "b" "\n\"b\" :".toList :=
    @SpellsLabel.intro "b" _ _ _ (blank '\n' (by decide)) (.cons b .nil) (blank ' ' (by decide))
  have third : SpellsLabel "a" "\"a\":".toList :=
    @SpellsLabel.intro "a" [] _ [] nofun (.cons a .nil) nofun
  have empty : Spells (.array []) "[ ]".toList :=
    @Spells.array _ [] (blank ' ' (by decide)) nofun
  have one : SpellsNatural 1 ['1'] := ⟨nofun, List.forall_mem_singleton.mpr rfl, by decide, rfl⟩
  have negative : Spells (.scalar (.number (.whole ⟨-1, by decide, by decide⟩))) " -1".toList :=
    @Spells.blanks _ [' '] ['-', '1'] [] (blank ' ' (by decide))
      (.integer (.negative one (by decide))) nofun
  have text : Spells (.scalar (.string "😀/")) "\"\\uD83D\\ude00\\/\"".toList :=
    @Spells.string "😀/" _ (.cons (.pair (by decide) high low) (.cons (.short (by decide)) .nil))
  have object := @Spells.object [] [⟨"a", _, _, _⟩, ⟨"b", _, _, _⟩, ⟨"a", _, _, _⟩] nofun
    (List.forall_mem_cons.mpr ⟨first, List.forall_mem_cons.mpr ⟨second,
      List.forall_mem_singleton.mpr third⟩⟩)
    (List.forall_mem_cons.mpr ⟨empty, List.forall_mem_cons.mpr ⟨negative,
      List.forall_mem_singleton.mpr text⟩⟩)
  have generated := @generate_spelled .standard "64" _
    "\t\x7b\"\\u0061\":[ ],\n\"b\" : -1,\"a\":\"\\uD83D\\ude00\\/\"\x7d"
    (@Spells.blanks _ _ _ [] (blank '\t' (by decide)) object nofun) (by decide)
  exact generated

end JsonUnpack
