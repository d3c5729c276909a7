import JsonUnpack.Proofs.ConfigurationReading
import JsonUnpack.Proofs.FlagPlacement
import JsonUnpack.Proofs.RunOutcome

/-! A setting has one meaning, wherever it comes from. A run first finds out which settings are in
force; the rest of it knows nothing of where they came from. So two runs with the same settings in
force give the same program for the same document. -/
namespace JsonUnpack.Command

/-- The value of a setting in a run: that of its flag if it is given, else the one that the
configuration file chooses, else the one that holds otherwise. -/
def inForce (flags file : Choices) (setting : Setting) : UInt64 :=
  match flags.get setting, file.get setting with
  | some n, _ => n
  | none, some n => n
  | none, none => Settings.standard.get setting

section

variable {σ File : Type} (host : Host (StateM σ)) (storage : Storage σ File)
  (invocation : Invocation) (state : σ)

/-- The text is the program for the document of a run under given settings. -/
def Generates (settings : Settings) (text : String) : Prop :=
  ∃ source document, Supplies host storage invocation state source ∧
    Json.read source = .ok document ∧
    text = program settings (invocation.bufferSize.getD document.value.bufferSize) document ++ "\n"

/-- A run leaves the program under given settings in its place, or it fails. -/
structure RunsUnder (settings : Settings) (report : Report) (after : σ) : Prop where
  delivers : ∀ text, Generates host storage invocation state settings text →
    Takes host invocation state text → Delivered storage invocation text state report after
  fails : (∀ text, Generates host storage invocation state settings text →
    ¬ Takes host invocation state text) → Fruitless state report after

end

section

variable {σ File : Type} {host : Host (StateM σ)} {storage : Storage σ File}
  {invocation : Invocation} {state : σ}

theorem get_settingsOver (chosen : Choices) (setting : Setting) :
    (settingsOver invocation chosen).get setting = inForce invocation.choices chosen setting := by
  rw [settingsOver, Settings.get_override, Settings.get_override, inForce]
  cases invocation.choices.get setting with
  | some n => rfl
  | none =>
    cases chosen.get setting with
    | some n => rfl
    | none => rfl

private theorem reads_unique {ε : Type} {access : StateM σ (Except ε ByteArray)}
    {held : Option ByteArray} {text other : String} (first : Reads access held state text)
    (second : Reads access held state other) : text = other := by
  have same : text.toUTF8 = other.toUTF8 := Option.some.inj (first.held.symm.trans second.held)
  exact String.toByteArray_inj.mp same

/-- A configuration file chooses one way only. -/
theorem configures_unique {chosen other : Choices}
    (first : Configures host storage invocation state chosen)
    (second : Configures host storage invocation state other) : chosen = other := by
  unfold Configures at first second
  cases config : invocation.config with
  | none =>
    rw [config] at first second
    exact first.trans second.symm
  | some path =>
    rw [config] at first second
    obtain ⟨text, reads, chooses⟩ := first
    obtain ⟨text', reads', chooses'⟩ := second
    obtain rfl := reads_unique reads reads'
    exact Except.ok.inj (chooses.symm.trans chooses')

private theorem yields_iff {chosen : Choices} {settings : Settings} {text : String}
    (configures : Configures host storage invocation state chosen)
    (same : ∀ setting, settings.get setting = inForce invocation.choices chosen setting) :
    Yields host storage invocation state text ↔
      Generates host storage invocation state settings text := by
  obtain rfl : settings = settingsOver invocation chosen :=
    PerSetting.ext_get fun setting => (same setting).trans (get_settingsOver chosen setting).symm
  constructor
  · rintro ⟨other, source, document, configuresOther, supplies, read, rfl⟩
    obtain rfl := configures_unique configures configuresOther
    exact ⟨source, document, supplies, read, rfl⟩
  · rintro ⟨source, document, supplies, read, rfl⟩
    exact ⟨chosen, source, document, configures, supplies, read, rfl⟩

/-! Two runs. -/

/-- A setting is supplied in another way: not by the configuration file but by its flag, or by its
flag as well. -/
inductive Resupplied (flags file flags' file' : Choices) (setting : Setting) : Prop
  | kept (flag : flags'.get setting = flags.get setting)
    (choice : file'.get setting = file.get setting)
  | moved (flag : flags'.get setting = (flags.get setting).or (file.get setting))
    (choice : file'.get setting = none)
  | repeated (flag : flags'.get setting = some (inForce flags file setting))
    (choice : file'.get setting = file.get setting)

theorem Resupplied.inForce_eq {flags file flags' file' : Choices} {setting : Setting}
    (resupplied : Resupplied flags file flags' file' setting) :
    inForce flags' file' setting = inForce flags file setting := by
  unfold inForce
  cases resupplied with
  | kept flag choice => rw [flag, choice]
  | moved flag choice =>
    rw [flag, choice]
    cases flags.get setting with
    | some n => rfl
    | none => cases file.get setting <;> rfl
  | repeated flag choice => rw [flag, inForce]

/-- Another run is for the same document and puts its program in the same place, and there is
nothing in its way that was not there before. -/
structure Alike (host : Host (StateM σ)) (storage : Storage σ File) (invocation : Invocation)
    (state : σ) (other : Invocation) (place : σ) : Prop where
  input : other.input = invocation.input
  bufferSize : other.bufferSize = invocation.bufferSize
  output : other.output = invocation.output
  document : ∀ source, Supplies host storage invocation state source →
    Supplies host storage invocation place source
  takes : ∀ text, Takes host invocation state text → Takes host invocation place text

/-- Another content of the configuration file is no matter to what is not a setting, unless that
file is the document too. -/
theorem Alike.edit {around : Surroundings} {directory : Directory} {other : Invocation}
    {location : Location} (held : (directory.content? location).isSome)
    (apart : ∀ path, invocation.input = some path →
      directory.target around path ≠ .ok (.file location))
    (same : other = { invocation with config := other.config, choices := other.choices })
    (content : ByteArray) :
    Alike (Directory.host around) (Directory.storage around) invocation directory other
      (directory.put location content) := by
  refine ⟨by rw [same], by rw [same], by rw [same], ?_, ?_⟩
  · intro source supplies
    unfold Supplies at supplies ⊢
    cases asked : invocation.input with
    | none =>
      rw [asked] at supplies
      have input : directory.input = source.toUTF8 := Option.some.inj supplies.held
      exact ⟨supplies.held, Prod.ext (congrArg Except.ok input) rfl⟩
    | some path =>
      rw [asked] at supplies
      have answered := (reads_iff (Directory.read_gives directory around path)).mp supplies
      apply (reads_iff (Directory.read_gives _ around path)).mpr
      exact (Directory.read_edit held content (apart path asked)).trans answered
  · intro text takes path asked
    obtain ⟨goal, bare, leads⟩ := Directory.host_writes_iff.mp (takes path asked)
    refine Directory.host_writes_iff.mpr ⟨goal, bare, ?_⟩
    rwa [Directory.target_edit held content path]

/-- The output of a run: whether it succeeded, and every byte that it wrote. -/
structure SameOutput (storage : Storage σ File) (invocation : Invocation) (report : Report)
    (after : σ) (report' : Report) (after' : σ) : Prop where
  exitCode : report'.exitCode = report.exitCode
  stdout : report'.stdout = report.stdout
  file : ∀ path, invocation.output = some path →
    storage.held? after' path = storage.held? after path

variable {other : Invocation} {place : σ}

private theorem Alike.generates (alike : Alike host storage invocation state other place)
    {settings : Settings} {text : String}
    (generates : Generates host storage invocation state settings text) :
    Generates host storage other place settings text := by
  obtain ⟨source, document, supplies, read, rfl⟩ := generates
  refine ⟨source, document, ?_, read, by rw [alike.bufferSize]⟩
  have supplied := alike.document source supplies
  unfold Supplies at supplied ⊢
  rwa [alike.input]

private theorem Alike.takes_other (alike : Alike host storage invocation state other place)
    {text : String} (takes : Takes host invocation state text) :
    Takes host other place text := by
  intro path asked
  exact alike.takes text takes path (alike.output ▸ asked)

private theorem Delivered.same {text : String} {report report' : Report} {after after' : σ}
    (first : Delivered storage invocation text state report after)
    (second : Delivered storage other text place report' after')
    (output : other.output = invocation.output) :
    SameOutput storage invocation report after report' after' where
  exitCode := second.succeeded.trans first.succeeded.symm
  stdout := by
    cases asked : invocation.output with
    | none => rw [(first.printed asked).1, (second.printed (output.trans asked)).1]
    | some path => rw [(first.written path asked).1, (second.written path (output.trans asked)).1]
  file path asked := by
    obtain ⟨-, file, written⟩ := first.written path asked
    obtain ⟨-, file', written'⟩ := second.written path (output.trans asked)
    rw [written.held, written'.held]

private theorem RunsUnder.delivered {settings : Settings} {report : Report} {after : σ}
    (runs : RunsUnder host storage invocation state settings report after)
    (succeeds : report.exitCode = 0) :
    ∃ text, Generates host storage invocation state settings text ∧
      Takes host invocation state text ∧
      Delivered storage invocation text state report after := by
  by_cases program : ∃ text, Generates host storage invocation state settings text ∧
      Takes host invocation state text
  · obtain ⟨text, generates, takes⟩ := program
    exact ⟨text, generates, takes, runs.delivers text generates takes⟩
  · have fruitless := runs.fails fun text generates takes => program ⟨text, generates, takes⟩
    exact absurd succeeds fruitless.failed

private theorem runs_under (faithful : host.Faithful storage) {line : List String}
    (accepted : parse line = .ok (.run invocation)) (state : σ) :
    ∃ report after, (runLine host line).run state = (report, after) ∧
      (∀ chosen settings, Configures host storage invocation state chosen →
        (∀ setting, settings.get setting = inForce invocation.choices chosen setting) →
        RunsUnder host storage invocation state settings report after) ∧
      ((∀ chosen, ¬ Configures host storage invocation state chosen) →
        Fruitless state report after) := by
  obtain ⟨report, after, ran, delivers, fails⟩ :=
    found_delivered faithful (@finds_program _ _ state _ _ faithful invocation) steps_split
  refine ⟨report, after, (run_of_accepted accepted).trans ran, ?_, ?_⟩
  · intro chosen settings configures same
    constructor
    · intro text generates
      exact delivers text ((yields_iff configures same).mpr generates)
    · intro refused
      exact fails fun text yields => refused text ((yields_iff configures same).mp yields)
  · intro unconfigured
    apply fails
    rintro text ⟨chosen, _, _, configures, _⟩
    exact absurd configures (unconfigured chosen)

/-- Settings have one meaning, however they are supplied. A run is the run under the settings in
force: for each setting by itself the value of its flag, else that of the configuration file, else
the one that holds otherwise. A configuration file that cannot be read, or that is none, makes the
run fail. Where a run succeeds, so does any other for the same document in which settings are moved
from the configuration file to flags, or repeated by flags, and its output is the same. -/
theorem settings_have_one_meaning (faithful : host.Faithful storage) {line : List String}
    (accepted : parse line = .ok (.run invocation)) (state : σ) :
    ∃ report after, (runLine host line).run state = (report, after) ∧
      (∀ chosen settings, Configures host storage invocation state chosen →
        (∀ setting, settings.get setting = inForce invocation.choices chosen setting) →
        RunsUnder host storage invocation state settings report after) ∧
      ((∀ chosen, ¬ Configures host storage invocation state chosen) →
        Fruitless state report after) ∧
      ∀ chosen, report.exitCode = 0 → Configures host storage invocation state chosen →
        ∀ line' other place chosen', parse line' = .ok (.run other) →
          Alike host storage invocation state other place →
          Configures host storage other place chosen' →
          (∀ setting, Resupplied invocation.choices chosen other.choices chosen' setting) →
          ∃ report' after', (runLine host line').run place = (report', after') ∧
            SameOutput storage invocation report after report' after' := by
  obtain ⟨report, after, ran, runs, unconfigured⟩ := runs_under faithful accepted state
  refine ⟨report, after, ran, runs, unconfigured, ?_⟩
  intro chosen succeeds configures line' other place chosen' accepted' alike configures' resupplied
  obtain ⟨report', after', ran', runs', -⟩ := runs_under faithful accepted' place
  have under := runs chosen (settingsOver invocation chosen) configures (get_settingsOver chosen)
  have under' := runs' chosen' (settingsOver invocation chosen) configures' fun setting =>
    (get_settingsOver chosen setting).trans (resupplied setting).inForce_eq.symm
  obtain ⟨text, generates, takes, delivered⟩ := under.delivered succeeds
  have delivered' := under'.delivers text (alike.generates generates) (alike.takes_other takes)
  exact ⟨report', after', ran', delivered.same delivered' alike.output⟩

/-- A setting is moved from the configuration file to its flag, and another flag repeats what holds
otherwise. -/
theorem settings_have_one_meaning_moved :
    let around : Surroundings := ⟨["srv", "run"], []⟩
    let before : Directory := ⟨[(["srv", "d"], "[null]".toUTF8),
      (["srv", "c"], "\x7b\"max_inline_children\":0\x7d".toUTF8)], .empty⟩
    ∃ report after report' after',
      (runLine (Directory.host around) ["../d", "--config", "/srv/c"]).run before =
        (report, after) ∧
      (runLine (Directory.host around) [flagText .nestingHintThreshold 10,
        flagText .maxInlineChildren 0, "../d", "--config", "/srv/c"]).run
          (before.put ["srv", "c"] "\x7b\x7d".toUTF8) = (report', after') ∧
      report.exitCode = 0 ∧ report'.exitCode = 0 ∧ report'.stdout = report.stdout := by
  intro around before
  have accepted : parse ["../d", "--config", "/srv/c"] =
      .ok (.run { input := some "../d", config := some "/srv/c" }) := by decide
  have first : parse [flagText .maxInlineChildren 0, "../d", "--config", "/srv/c"] =
      .ok (.run _) := parse_flagText accepted rfl 0
  have second : parse [flagText .nestingHintThreshold 10, flagText .maxInlineChildren 0, "../d",
      "--config", "/srv/c"] = .ok (.run _) := parse_flagText first rfl 10
  have written : Settings.SpellsConfiguration [.known .maxInlineChildren 0]
      "\x7b\"max_inline_children\":0\x7d".toList :=
    @Settings.SpellsConfiguration.intro [] [] [] [(_, _)] Json.blanks_nil Json.blanks_nil
      (List.forall_mem_singleton.mpr (Settings.spells_known _ _ Json.blanks_nil)) Json.blanks_nil
  obtain ⟨chosen, chooses, given, kept⟩ := (Settings.readChoices_spelled written).1 (by decide)
  have configures : Configures (Directory.host around) (Directory.storage around)
      { input := some "../d", config := some "/srv/c" } before chosen := ⟨_, ⟨rfl, rfl⟩, chooses⟩
  have read : Json.read "[null]" = .ok ⟨.array [.null], by simp⟩ :=
    @Json.read_compact ⟨.array [.null], by simp⟩ (by simp [Json.Value.Floatless]) (by decide)
  have elsewhere : ∀ setting, Resupplied .none chosen ⟨some 0, none, some 10⟩ .none setting := by
    intro setting
    cases setting with
    | maxInlineChildren =>
      have set : chosen.get .maxInlineChildren = some 0 := given .maxInlineChildren 0 (by simp)
      exact .moved (by rw [set]; rfl) rfl
    | maxNamedArrayElements => exact .kept rfl (kept .maxNamedArrayElements (by decide)).symm
    | nestingHintThreshold =>
      have unset : chosen.get .nestingHintThreshold = none :=
        kept .nestingHintThreshold (by decide)
      exact .repeated (by rw [inForce, unset]; rfl) unset.symm
  have apart : ∀ path, some "../d" = some path →
      before.target around path ≠ .ok (.file ["srv", "c"]) := by
    rintro path ⟨⟩
    decide
  have alike : ∀ flags : Choices, Alike (Directory.host around) (Directory.storage around)
      { input := some "../d", config := some "/srv/c" } before
      { input := some "../d", config := some "/srv/c", choices := flags }
      (before.put ["srv", "c"] "\x7b\x7d".toUTF8) := fun flags => Alike.edit rfl apart rfl _
  obtain ⟨report, after, ran, runs, -, resupplied⟩ :=
    settings_have_one_meaning (Directory.host_faithful around) accepted before
  have takes : ∀ text, Takes (Directory.host around)
      { input := some "../d", config := some "/srv/c" } before text := by
    intro text path asked
    cases asked
  have delivered := (runs chosen _ configures (get_settingsOver chosen)).delivers _
    ⟨"[null]", _, ⟨rfl, rfl⟩, read, rfl⟩ (takes _)
  obtain ⟨report', after', ran', same⟩ := resupplied chosen delivered.succeeded configures _ _ _
    .none second (alike _) ⟨"\x7b\x7d", ⟨rfl, rfl⟩, by cbv⟩ elsewhere
  exact ⟨report, after, report', after', ran, ran', delivered.succeeded,
    same.exitCode.trans delivered.succeeded, same.stdout⟩

end

end JsonUnpack.Command
