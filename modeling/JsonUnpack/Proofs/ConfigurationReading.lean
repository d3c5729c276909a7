import JsonUnpack.Proofs.DocumentReading
import JsonUnpack.Proofs.SkippedValues
import JsonUnpack.Settings.Reader
import Mathlib.Data.List.Duplicate

/-! A configuration is read for the settings in it, in whatever order they come, however it is laid
out, and whatever else is in it. The loop over the members is followed one written member at a time;
what it has chosen so far grows by the settings that it meets, so a setting that comes twice is met
when it is already chosen. -/
namespace JsonUnpack.Settings

open Json (Blanks SpellsLabel SpellsNatural ValueForm Delimited skipBlanks commaSeparated listed
  lead)

/-- What a member of a configuration says. -/
inductive Entry
  | known (setting : Setting) (n : UInt64)
  | other (key : String)

/-- The setting that a member is about. -/
def Entry.setting? : Entry → Option Setting
  | known setting _ => some setting
  | other _ => none

/-- The settings that some members are about, in the order in which they come. -/
def settingsIn (entries : List Entry) : List Setting := entries.filterMap Entry.setting?

/-- A member as it is written. The value of a setting is in decimal; under a key that is no setting
there may be any value. The key itself is a text, unlike the keys inside that value, in which an
escaped number may be half a character. -/
inductive SpellsEntry : Entry → List Char → Prop
  | known {setting : Setting} {n : UInt64} {label before digits after : List Char}
    (named : SpellsLabel setting.key label) (front : Blanks before)
    (spelled : SpellsNatural n.toNat digits) (back : Blanks after) :
    SpellsEntry (.known setting n) (label ++ (before ++ (digits ++ after)))
  | other {key : String} {label text : List Char} (named : SpellsLabel key label)
    (unknown : ∀ setting : Setting, setting.key ≠ key) (form : ValueForm text) :
    SpellsEntry (.other key) (label ++ text)

/-- A configuration as it is written, with blanks around it. -/
inductive SpellsConfiguration : List Entry → List Char → Prop
  | intro {before gap after : List Char} {members : List (Entry × List Char)}
    (front : Blanks before) (blank : Blanks gap)
    (each : ∀ member ∈ members, SpellsEntry member.1 member.2) (back : Blanks after) :
    SpellsConfiguration (members.map Prod.fst)
      (before ++ '\x7b' :: (gap ++ (commaSeparated (members.map Prod.snd) ++ '\x7d' :: after)))

/-! One member. -/

private theorem setting_member_read {n : UInt64} {before digits after given rest : List Char}
    (front : Blanks before) (spelled : SpellsNatural n.toNat digits) (back : Blanks after)
    (delimited : Delimited rest)
    (same : skipBlanks given = ':' :: (before ++ (digits ++ after) ++ rest)) :
    settingMember given = .ok (n, after ++ rest) := by
  obtain ⟨c, tail, rfl, shown, -, notBracket, notBrace⟩ :=
    Json.integer_starts_plain (.natural spelled)
  have starts : skipBlanks (before ++ (c :: tail ++ after) ++ rest) =
      c :: tail ++ (after ++ rest) := by
    rw [List.append_assoc, Json.skip_blanks_append front, List.append_assoc, List.cons_append,
      Json.skip_no_blanks shown]
  have below : n.toNat < UInt64.size := n.toNat_lt_size
  have read : Json.childless (c :: tail ++ (after ++ rest)) =
      .ok (.scalar (.number (.ofNat n.toNat below)), after ++ rest) :=
    Json.childless_integer (.natural spelled) (Json.delimited_blanks back delimited)
  have value : ofValue (.scalar (.number (.ofNat n.toNat below))) = .ok n := by
    rw [Json.Number.ofNat, ofValue, if_neg (Int.not_lt.mpr (Int.natCast_nonneg _))]
    simp
  rw [settingMember, Json.colon_found same]
  change settingValue _ = _
  rw [settingValue, starts]
  split
  · rename_i head
    cases head
    exact absurd rfl notBracket
  · rename_i head
    cases head
    exact absurd rfl notBrace
  · rw [read]
    dsimp only [part, Except.mapError]
    rw [value]

private theorem from_members_eq (choices : Choices) (first : Bool) (text : List Char) :
    fromMembers choices first text =
      match part (Json.nextKey first text) with
      | .error fault => .error fault
      | .ok (none, rest) => .ok (choices, rest)
      | .ok (some key, rest) =>
        match Setting.ofKey? key with
        | some setting =>
          if (choices.get setting).isSome then
            .error (.before (.repeated setting) (afterRepeated rest))
          else
            match settingMember rest with
            | .error fault => .error fault
            | .ok (n, after) => fromMembers (choices.set setting (some n)) false after
        | none =>
          match otherMember rest with
          | .error fault => .error fault
          | .ok ((), after) => fromMembers choices false after := by
  rw [fromMembers]
  split
  · rename_i failed
    rw [failed]
    rfl
  · rename_i stopped
    rw [stopped]
    rfl
  · rename_i key rest started
    dsimp only
    rw [started]
    dsimp only [part, Except.mapError]
    cases Setting.ofKey? key with
    | some setting =>
      dsimp only
      congr 1
      split
      · rename_i failed
        rw [failed]
      · rename_i read
        rw [read]
    | none =>
      dsimp only
      split
      · rename_i failed
        rw [failed]
      · rename_i read
        rw [read]

variable {text given rest : List Char} {first : Bool}

private theorem known_met {setting : Setting} {n : UInt64}
    (spelled : SpellsEntry (.known setting n) text) (delimited : Delimited rest)
    (same : skipBlanks given = skipBlanks (lead first ++ (text ++ rest))) (choices : Choices) :
    if (choices.get setting).isSome then
      ∃ fault, fromMembers choices first given = .error fault ∧ fault.cause = .repeated setting
    else
      ∃ after, skipBlanks after = skipBlanks rest ∧ fromMembers choices first given =
        fromMembers (choices.set setting (some n)) false after := by
  cases spelled with
  | known named front spelled back =>
    rw [List.append_assoc] at same
    obtain ⟨start, next, left⟩ := Json.next_key_opens named same
    have read := setting_member_read front spelled back delimited left
    rw [from_members_eq, next]
    dsimp only [part, Except.mapError]
    rw [Setting.ofKey?_key]
    dsimp only
    split
    · exact ⟨_, rfl, rfl⟩
    · rw [read]
      exact ⟨_, Json.skip_blanks_append back rest, rfl⟩

private theorem other_met {key : String} (spelled : SpellsEntry (.other key) text)
    (delimited : Delimited rest)
    (same : skipBlanks given = skipBlanks (lead first ++ (text ++ rest))) (choices : Choices) :
    ∃ after, skipBlanks after = skipBlanks rest ∧
      fromMembers choices first given = fromMembers choices false after := by
  cases spelled with
  | other named unknown form =>
    rw [List.append_assoc] at same
    obtain ⟨start, next, left⟩ := Json.next_key_opens named same
    obtain ⟨after, passed, behind⟩ := Json.skip_form form delimited rfl
    have read : otherMember start = .ok ((), after) := by
      rw [otherMember, Json.colon_found left, Json.Reading.andThen, passed]
      rfl
    refine ⟨after, behind, ?_⟩
    rw [from_members_eq, next]
    dsimp only [part, Except.mapError]
    rw [Setting.ofKey?_other unknown]
    dsimp only
    rw [read]

/-! All members. -/

/-- The settings to come are still open, and none of them comes twice. -/
structure Fresh (choices : Choices) (settings : List Setting) : Prop where
  distinct : settings.Nodup
  unchosen : ∀ setting ∈ settings, choices.get setting = none

private theorem fresh_cons {choices : Choices} {setting : Setting} {n : UInt64}
    {settings : List Setting} : Fresh choices (setting :: settings) ↔
      choices.get setting = none ∧ Fresh (choices.set setting (some n)) settings := by
  constructor
  · rintro ⟨distinct, unchosen⟩
    obtain ⟨new, distinct⟩ := List.nodup_cons.mp distinct
    refine ⟨unchosen setting List.mem_cons_self, distinct, ?_⟩
    intro other member
    have apart : other ≠ setting := by
      rintro rfl
      exact new member
    rw [PerSetting.get_set_other _ _ apart]
    exact unchosen other (List.mem_cons_of_mem setting member)
  · rintro ⟨unset, distinct, unchosen⟩
    have apart : ∀ other ∈ settings, other ≠ setting := by
      rintro other member rfl
      cases (unchosen other member).symm.trans (PerSetting.get_set_self ..)
    refine ⟨List.nodup_cons.mpr ⟨fun member => apart setting member rfl, distinct⟩, ?_⟩
    rw [List.forall_mem_cons]
    refine ⟨unset, fun other member => ?_⟩
    rw [← PerSetting.get_set_other choices (some n) (apart other member)]
    exact unchosen other member

/-- The choices after some members: what they give is chosen, and all else is as it was. -/
structure Chooses (entries : List Entry) (before after : Choices) : Prop where
  given : ∀ setting n, .known setting n ∈ entries → after.get setting = some n
  kept : ∀ setting, setting ∉ settingsIn entries → after.get setting = before.get setting

/-- What becomes of members: they make their choices as long as no setting is chosen again, and the
first one that is chosen again is reported. -/
structure Outcome (entries : List Entry) (choices : Choices) (rest : List Char)
    (answer : Answer Choices) : Prop where
  chooses : Fresh choices (settingsIn entries) →
    ∃ chosen, answer = .ok (chosen, rest) ∧ Chooses entries choices chosen
  refuses : ¬ Fresh choices (settingsIn entries) → ∃ fault setting, answer = .error fault ∧
    fault.cause = .repeated setting ∧
      (setting ∈ settingsIn entries ∧ (choices.get setting).isSome ∨
        List.Duplicate setting (settingsIn entries))

private theorem Outcome.after_other {entries : List Entry} {choices : Choices}
    {answer : Answer Choices} (outcome : Outcome entries choices rest answer) (key : String) :
    Outcome (.other key :: entries) choices rest answer where
  chooses fresh := by
    obtain ⟨chosen, same, given, kept⟩ := outcome.chooses fresh
    refine ⟨chosen, same, ?_, kept⟩
    intro setting n member
    rcases List.mem_cons.mp member with ⟨⟨⟩⟩ | later
    exact given setting n later
  refuses := outcome.refuses

private theorem Outcome.after_known {entries : List Entry} {choices : Choices} {setting : Setting}
    {n : UInt64} {answer : Answer Choices} (unset : choices.get setting = none)
    (outcome : Outcome entries (choices.set setting (some n)) rest answer) :
    Outcome (.known setting n :: entries) choices rest answer where
  chooses fresh := by
    have new : setting ∉ settingsIn entries := (List.nodup_cons.mp fresh.distinct).1
    obtain ⟨chosen, same, given, kept⟩ := outcome.chooses (fresh_cons.mp fresh).2
    refine ⟨chosen, same, ?_, ?_⟩
    · intro other m member
      rcases List.mem_cons.mp member with ⟨⟨⟩⟩ | later
      · rw [kept setting new, PerSetting.get_set_self]
      · exact given other m later
    · intro other absent
      obtain ⟨apart, absent⟩ := not_or.mp (List.mem_cons.not.mp absent)
      rw [kept other absent, PerSetting.get_set_other _ _ apart]
  refuses stale := by
    obtain ⟨fault, other, same, cause, again⟩ :=
      outcome.refuses fun fresh => stale (fresh_cons.mpr ⟨unset, fresh⟩)
    refine ⟨fault, other, same, cause, ?_⟩
    rcases again with ⟨member, chosen⟩ | twice
    · by_cases own : other = setting
      · subst own
        exact .inr (.cons_mem member)
      · rw [PerSetting.get_set_other _ _ own] at chosen
        exact .inl ⟨List.mem_cons_of_mem setting member, chosen⟩
    · exact .inr (.cons_duplicate twice)

private theorem members_read {members : List (Entry × List Char)}
    (each : ∀ member ∈ members, SpellsEntry member.1 member.2) (choices : Choices)
    (same : skipBlanks given =
      skipBlanks (listed first (members.map Prod.snd) ++ '\x7d' :: rest)) :
    Outcome (members.map Prod.fst) choices rest (fromMembers choices first given) := by
  induction members generalizing choices first given with
  | nil =>
    have read : fromMembers choices first given = .ok (choices, rest) := by
      rw [List.map_nil, Json.listed_nil, List.nil_append, Json.skip_no_blanks rfl] at same
      rw [from_members_eq, Json.next_key_closes same]
      rfl
    refine ⟨fun _ => ⟨choices, read, nofun, fun _ _ => rfl⟩, fun stale => ?_⟩
    exact absurd ⟨.nil, nofun⟩ stale
  | cons member members ih =>
    obtain ⟨entry, text⟩ := member
    obtain ⟨spelled, later⟩ := List.forall_mem_cons.mp each
    rw [List.map_cons, Json.listed_cons, List.append_assoc, List.append_assoc] at same
    have delimited : Delimited (listed false (members.map Prod.snd) ++ '\x7d' :: rest) :=
      Json.delimited_listed (.inr rfl) _
    cases entry with
    | other key =>
      obtain ⟨after, left, goesOn⟩ := other_met spelled delimited same choices
      rw [goesOn]
      exact (ih later choices left).after_other key
    | known setting n =>
      have met := known_met spelled delimited same choices
      cases unset : choices.get setting with
      | none =>
        rw [if_neg (by simp [unset])] at met
        obtain ⟨after, left, goesOn⟩ := met
        rw [goesOn]
        exact (ih later _ left).after_known unset
      | some old =>
        have chosen : (choices.get setting).isSome := by simp [unset]
        rw [if_pos chosen] at met
        obtain ⟨fault, failed, cause⟩ := met
        constructor
        · intro fresh
          cases unset.symm.trans (fresh.unchosen setting List.mem_cons_self)
        · intro _
          exact ⟨fault, setting, failed, cause, .inl ⟨List.mem_cons_self, chosen⟩⟩

/-! Configurations. -/

/-- The settings that members leave: those that are given are as they are given, and all others are
as they are without a configuration. -/
structure Leaves (entries : List Entry) (settings : Settings) : Prop where
  given : ∀ setting n, .known setting n ∈ entries → settings.get setting = n
  standard : ∀ setting, setting ∉ settingsIn entries →
    settings.get setting = Settings.standard.get setting

private theorem Chooses.leaves {entries : List Entry} {chosen : Choices}
    (chooses : Chooses entries .none chosen) : Leaves entries (standard.override chosen) where
  given setting n member := by
    rw [get_override, chooses.given setting n member, Option.getD_some]
  standard setting absent := by
    rw [get_override, chooses.kept setting absent, Choices.get_none, Option.getD_none]

private theorem configuration_read {entries : List Entry} {text : List Char}
    (spelled : SpellsConfiguration entries text) :
    ∃ after, Blanks after ∧ Outcome entries .none after (configuration text) := by
  cases spelled with
  | @intro before gap after members front blank each back =>
    refine ⟨after, back, ?_⟩
    rw [configuration, Json.skip_blanks_append front, Json.skip_no_blanks rfl]
    exact members_read each .none (Json.skip_blanks_append blank _)

/-- A written configuration is read for what it sets, or refused for a setting that comes again. -/
theorem readChoices_spelled {entries : List Entry} {text : String}
    (spelled : SpellsConfiguration entries text.toList) :
    ((settingsIn entries).Nodup →
      ∃ chosen, readChoices text = .ok chosen ∧ Chooses entries .none chosen) ∧
    (¬ (settingsIn entries).Nodup → ∃ fault setting, readChoices text = .error fault ∧
      fault.cause = .repeated setting ∧ List.Duplicate setting (settingsIn entries)) := by
  obtain ⟨after, blank, chooses, refuses⟩ := configuration_read spelled
  constructor
  · intro distinct
    obtain ⟨chosen, read, chooses⟩ := chooses ⟨distinct, fun setting _ => Choices.get_none setting⟩
    have ended : skipBlanks after = [] := by
      rw [← List.append_nil after, Json.skip_blanks_append blank]
      rfl
    refine ⟨chosen, ?_, chooses⟩
    rw [readChoices, read]
    change Json.finish _ chosen after = _
    rw [Json.finish, ended]
  · intro repeats
    obtain ⟨fault, setting, read, cause, again⟩ := refuses fun fresh => repeats fresh.distinct
    refine ⟨fault, setting, ?_, cause, ?_⟩
    · rw [readChoices, read]
    · rcases again with ⟨-, chosen⟩ | twice
      · simp at chosen
      · exact twice

/-- A setting as the compact text of an object has it, but for a gap before its value. -/
theorem spells_known (setting : Setting) (n : UInt64) {gap : List Char} (blank : Blanks gap) :
    SpellsEntry (.known setting n) (Json.quoted setting.key.toList ++ [':'] ++
      (gap ++ (decimalDigits n.toNat ++ []))) :=
  .known (Json.spells_key setting.key) blank (Json.spells_digits n.toNat) Json.blanks_nil

private def listing (settings : Settings) : List Entry :=
  Setting.all.map fun setting => .known setting (settings.get setting)

private theorem spells_listing (settings : Settings) :
    SpellsConfiguration (listing settings) settings.text.toList := by
  have spelled := @SpellsConfiguration.intro [] [] []
    (Setting.all.map fun setting => (.known setting (settings.get setting),
      Json.quoted setting.key.toList ++ [':'] ++
        ([] ++ (decimalDigits (settings.get setting).toNat ++ []))))
    Json.blanks_nil Json.blanks_nil
    (List.forall_mem_map.mpr fun setting _ => spells_known setting _ Json.blanks_nil)
    Json.blanks_nil
  rw [List.map_map, List.map_map] at spelled
  have number : ∀ n : UInt64,
      (Json.Value.ofNumber (.ofNat n.toNat n.toNat_lt_size)).compactChars =
        decimalDigits n.toNat := fun _ => rfl
  rw [text, Json.Value.compact, String.toList_ofList, toValue, Json.Value.compactChars,
    Json.Value.memberTexts_eq_map, List.map_map]
  simpa [listing, Function.comp_def, number] using spelled

private theorem text_read (settings : Settings) :
    ∃ chosen, readChoices settings.text = .ok chosen ∧ standard.override chosen = settings := by
  have listed : settingsIn (listing settings) = Setting.all := by
    rw [settingsIn, listing, List.filterMap_map]
    exact List.filterMap_some
  have distinct : (settingsIn (listing settings)).Nodup := by
    rw [listed]
    decide
  obtain ⟨chosen, read, chooses⟩ := (readChoices_spelled (spells_listing settings)).1 distinct
  refine ⟨chosen, read, PerSetting.ext_get fun setting => ?_⟩
  apply chooses.leaves.given
  apply List.mem_map_of_mem
  cases setting <;> decide

/-- A configuration is read for the settings in it: for all of them where it was written from
settings, and else for those that it has. Neither the order of its members nor the blanks between
its tokens count, and under keys that are no settings there may be any well-formed values. A setting
that comes twice is reported, whatever its values. -/
theorem configuration_undoes_writing :
    (∀ settings : Settings, ∃ chosen, readChoices settings.text = .ok chosen ∧
      standard.override chosen = settings) ∧
    ∀ (entries : List Entry) (text : String), SpellsConfiguration entries text.toList →
      ((settingsIn entries).Nodup → ∃ chosen, readChoices text = .ok chosen ∧
        Leaves entries (standard.override chosen)) ∧
      (¬ (settingsIn entries).Nodup → ∃ fault setting, readChoices text = .error fault ∧
        fault.cause = .repeated setting ∧ List.Duplicate setting (settingsIn entries)) := by
  refine ⟨text_read, fun entries text spelled => ?_⟩
  obtain ⟨reads, refuses⟩ := readChoices_spelled spelled
  refine ⟨fun distinct => ?_, refuses⟩
  obtain ⟨chosen, read, chooses⟩ := reads distinct
  exact ⟨chosen, read, chooses.leaves⟩

/-- A setting after a key that is none, with a number in its value that no word holds; and a setting
that comes twice with the same value. -/
theorem configuration_undoes_writing_past_unknown :
    (∃ chosen,
      readChoices "\x7b\n\"x\":[\x7b\"y\":-1.5e400\x7d] ,\"max_inline_children\": 7\x7d\n" =
        .ok chosen ∧ standard.override chosen = ⟨7, 4, 10⟩) ∧
    ∃ fault, readChoices "\x7b\"max_inline_children\":7,\"max_inline_children\":7\x7d" =
      .error fault ∧ fault.cause = .repeated .maxInlineChildren := by
  have number : Json.NumberForm ['1', '.', '5', 'e', '4', '0', '0'] :=
    .intro (Json.spells_digits 1)
      (@Json.FractionForm.present ['5'] ⟨nofun, List.all_eq_true.mp rfl⟩)
      (@Json.ExponentForm.present 'e' [] ['4', '0', '0'] (.inl rfl) (.inl rfl)
        ⟨nofun, List.all_eq_true.mp rfl⟩)
  have key : Json.LabelForm .object ['"', 'y', '"', ':'] :=
    @Json.LabelForm.key [] ['y'] [] Json.blanks_nil
      (.cons (.raw (by decide) (by decide) (by decide)) .nil) Json.blanks_nil
  have object : ValueForm
      ['\x7b', '"', 'y', '"', ':', '-', '1', '.', '5', 'e', '4', '0', '0', '\x7d'] :=
    @ValueForm.composite .object [] [(_, _)] Json.blanks_nil (List.forall_mem_singleton.mpr key)
      (List.forall_mem_singleton.mpr (.negative number))
  have array : ValueForm
      ['[', '\x7b', '"', 'y', '"', ':', '-', '1', '.', '5', 'e', '4', '0', '0', '\x7d', ']', ' '] :=
    @ValueForm.blanks [] _ [' '] Json.blanks_nil
      (@ValueForm.composite .array [] [(_, _)] Json.blanks_nil (List.forall_mem_singleton.mpr .none)
        (List.forall_mem_singleton.mpr object)) (by decide)
  have unknown : ∀ setting : Setting, setting.key ≠ "x" := by
    intro setting
    cases setting <;> decide
  have once : SpellsConfiguration [.other "x", .known .maxInlineChildren 7]
      "\x7b\n\"x\":[\x7b\"y\":-1.5e400\x7d] ,\"max_inline_children\": 7\x7d\n".toList :=
    @SpellsConfiguration.intro [] ['\n'] ['\n'] [(_, _), (_, _)] Json.blanks_nil (by decide)
      (List.forall_mem_cons.mpr ⟨.other (Json.spells_key "x") unknown array,
        List.forall_mem_singleton.mpr (@spells_known _ _ [' '] (by decide))⟩) (by decide)
  have twice : SpellsConfiguration [.known .maxInlineChildren 7, .known .maxInlineChildren 7]
      "\x7b\"max_inline_children\":7,\"max_inline_children\":7\x7d".toList :=
    @SpellsConfiguration.intro [] [] [] [(_, _), (_, _)] Json.blanks_nil Json.blanks_nil
      (List.forall_mem_cons.mpr ⟨spells_known _ _ Json.blanks_nil,
        List.forall_mem_singleton.mpr (spells_known _ _ Json.blanks_nil)⟩) Json.blanks_nil
  obtain ⟨chosen, read, leaves⟩ := (configuration_undoes_writing.2 _ _ once).1 (by decide)
  obtain ⟨fault, setting, failed, cause, again⟩ :=
    (configuration_undoes_writing.2 _ _ twice).2 (by decide)
  refine ⟨⟨chosen, read, PerSetting.ext_get fun setting => ?_⟩, fault, failed, ?_⟩
  · cases setting with
    | maxInlineChildren => exact leaves.given .maxInlineChildren 7 (by simp)
    | maxNamedArrayElements => exact leaves.standard _ (by decide)
    | nestingHintThreshold => exact leaves.standard _ (by decide)
  · have same : setting ∈ [Setting.maxInlineChildren, .maxInlineChildren] := again.mem
    simp at same
    rw [cause, same]

end JsonUnpack.Settings
