import JsonUnpack.Command.Run
import JsonUnpack.Proofs.DocumentReading
import JsonUnpack.Proofs.FileStorage

/-! A run is all or nothing. It reads first, and what it has read decides the program; the program
is then put in its place in one piece. A run that fails on its way has written nothing, not even to
standard output. -/
namespace JsonUnpack.Command

variable {σ File ε α β : Type}

/-- There is a text to be read, and reading it is not refused. -/
structure Reads (access : StateM σ (Except ε ByteArray)) (held : Option ByteArray) (state : σ)
    (text : String) : Prop where
  held : held = some text.toUTF8
  granted : access state = (.ok text.toUTF8, state)

section

variable (host : Host (StateM σ)) (storage : Storage σ File) (invocation : Invocation) (state : σ)

/-- A path leads to a file that may be read and holds a text. -/
def ReadsFile (path text : String) : Prop :=
  Reads (host.read path) (storage.held? state path) state text

/-- Standard input may be read and holds a text. -/
def ReadsInput (text : String) : Prop :=
  Reads host.readInput (some (storage.input state)) state text

/-- What the configuration file chooses, or nothing without one. -/
def Configures (chosen : Choices) : Prop :=
  match invocation.config with
  | none => chosen = .none
  | some path => ∃ text, ReadsFile host storage state path text ∧
      Settings.readChoices text = .ok chosen

/-- The text that the program is for: that of the input file, or standard input without one. -/
def Supplies (text : String) : Prop :=
  match invocation.input with
  | none => ReadsInput host storage state text
  | some path => ReadsFile host storage state path text

/-- The settings of a run whose configuration file chooses some of them. -/
def settingsOver (chosen : Choices) : Settings :=
  (Settings.standard.override chosen).override invocation.choices

/-- The program with a line break after it. -/
def programText (chosen : Choices) (document : Json.Document) : String :=
  program (settingsOver invocation chosen)
    (invocation.bufferSize.getD document.value.bufferSize) document ++ "\n"

/-- All that is read can be read, and is what it should be: a text is the program for it. -/
def Yields (text : String) : Prop :=
  ∃ chosen source document, Configures host storage invocation state chosen ∧
    Supplies host storage invocation state source ∧ Json.read source = .ok document ∧
    text = programText invocation chosen document

/-- The output file, if there is one, can be written. -/
def Takes (text : String) : Prop :=
  ∀ path, invocation.output = some path → ∃ after, host.write path text state = (.ok (), after)

end

/-- The program is where it was asked for, nothing else was printed, and no other file changed. -/
structure Delivered (storage : Storage σ File) (invocation : Invocation) (text : String)
    (before : σ) (report : Report) (after : σ) : Prop where
  succeeded : report.exitCode = 0
  printed : invocation.output = none → report.stdout = text ∧ after = before
  written : ∀ path, invocation.output = some path →
    report.stdout = "" ∧ ∃ file, storage.Written before path file text after

/-- There is no program, not even a part of one, and nothing has changed. -/
structure Fruitless (before : σ) (report : Report) (after : σ) : Prop where
  failed : report.exitCode ≠ 0
  silent : report.stdout = ""
  unchanged : after = before

section Decoding

private theorem mapError_eq_ok_iff {κ : Type} {describe : κ → ε} {answer : Except κ α} {a : α} :
    answer.mapError describe = .ok a ↔ answer = .ok a := by
  cases answer <;> simp [Except.mapError]

private theorem decode_eq_ok_iff {bytes : ByteArray} {text : String} :
    decode bytes = .ok text ↔ bytes = text.toUTF8 := by
  unfold decode String.fromUTF8?
  by_cases valid : bytes.IsValidUTF8
  · rw [dif_pos valid]
    constructor
    · intro same
      exact congrArg String.toUTF8 (Except.ok.inj same)
    · rintro rfl
      rfl
  · rw [dif_neg valid]
    refine ⟨nofun, ?_⟩
    rintro rfl
    exact absurd text.isValidUTF8 valid

private theorem decoded_eq_ok_iff {failure : Reason → Failure} {bytes : ByteArray} {text : String} :
    decoded failure bytes = .ok text ↔ bytes = text.toUTF8 := by
  rw [← decode_eq_ok_iff, decoded, mapError_eq_ok_iff]

private theorem textOf_eq_ok_iff {path text : String} {content : Except ReadFault ByteArray} :
    textOf path content = .ok text ↔ content = .ok text.toUTF8 := by
  rcases content with (reason | reason) | bytes
  · simp [textOf]
  · simp [textOf]
  · rw [textOf, decoded_eq_ok_iff, Except.ok.injEq]

private theorem textOfInput_eq_ok_iff {text : String} {content : Except Reason ByteArray} :
    textOfInput content = .ok text ↔ content = .ok text.toUTF8 := by
  cases content with
  | error reason => simp [textOfInput]
  | ok bytes => rw [textOfInput, decoded_eq_ok_iff, Except.ok.injEq]

private theorem choicesOf_eq_ok_iff {path : String} {content : Except ReadFault ByteArray}
    {chosen : Choices} :
    choicesOf path content = .ok chosen ↔
      ∃ text : String, content = .ok text.toUTF8 ∧ Settings.readChoices text = .ok chosen := by
  cases content with
  | error fault => simp [choicesOf]
  | ok bytes =>
    simp only [choicesOf, Except.ok.injEq]
    cases decoding : decoded (.configUnreadable path) bytes with
    | error failure =>
      refine ⟨nofun, ?_⟩
      rintro ⟨text, held, -⟩
      cases decoding.symm.trans (decoded_eq_ok_iff.mpr held)
    | ok text =>
      simp only [mapError_eq_ok_iff]
      constructor
      · intro read
        exact ⟨text, decoded_eq_ok_iff.mp decoding, read⟩
      · rintro ⟨other, held, read⟩
        obtain rfl : text = other :=
          Except.ok.inj (decoding.symm.trans (decoded_eq_ok_iff.mpr held))
        exact read

private theorem output_eq_ok_iff {invocation : Invocation} {settings : Settings}
    {source text : String} :
    output invocation settings source = .ok text ↔
      ∃ document, Json.read source = .ok document ∧ text = program settings
        (invocation.bufferSize.getD document.value.bufferSize) document ++ "\n" := by
  unfold output
  cases Json.read source with
  | error fault => simp
  | ok document => simp [eq_comm]

end Decoding

section Reading

variable {state : σ}

/-- A part of a run only looks at the files, and finds what it should or fails. -/
def Finds (part : ExceptT Failure (StateM σ) α) (state : σ) (Expected : α → Prop) : Prop :=
  ∃ answer, part.run state = (answer, state) ∧ ∀ a, answer = .ok a ↔ Expected a

private theorem bind_run (part : StateM σ α) (next : α → StateM σ β) :
    (part >>= next) state = next (part state).1 (part state).2 := rfl

private theorem map_run (access : StateM σ α) (f : α → β) :
    (f <$> access) state = (f (access state).1, (access state).2) := rfl

private theorem run_bind_of_ok {part : ExceptT Failure (StateM σ) α}
    {next : α → ExceptT Failure (StateM σ) β} {after : σ} {a : α}
    (ran : part.run state = (.ok a, after)) :
    (part >>= next).run state = (next a).run after := by
  rw [ExceptT.run_bind, bind_run, ran]

private theorem run_bind_of_error {part : ExceptT Failure (StateM σ) α}
    {next : α → ExceptT Failure (StateM σ) β} {after : σ} {failure : Failure}
    (ran : part.run state = (.error failure, after)) :
    (part >>= next).run state = (.error failure, after) := by
  rw [ExceptT.run_bind, bind_run, ran]
  rfl

private theorem finds_bind {part : ExceptT Failure (StateM σ) α}
    {next : α → ExceptT Failure (StateM σ) β} {First : α → Prop} {Second : α → β → Prop}
    (first : Finds part state First) (second : ∀ a, First a → Finds (next a) state (Second a)) :
    Finds (part >>= next) state fun b => ∃ a, First a ∧ Second a b := by
  obtain ⟨answer, ran, found⟩ := first
  cases answer with
  | error failure =>
    refine ⟨.error failure, run_bind_of_error ran, ?_⟩
    intro b
    simp [← found]
  | ok a =>
    obtain ⟨answer, ranNext, foundNext⟩ := second a ((found a).mp rfl)
    refine ⟨answer, (run_bind_of_ok ran).trans ranNext, ?_⟩
    intro b
    simp [← found, ← foundNext]

theorem reads_iff {access : StateM σ (Except ε ByteArray)} {held : Option ByteArray}
    {text : String} (gives : Gives access held state) :
    Reads access held state text ↔ (access state).1 = .ok text.toUTF8 := by
  constructor
  · intro reads
    rw [reads.granted]
  · intro answered
    rcases gives with ⟨bytes, holds, given⟩ | ⟨fault, refused⟩
    · rw [given] at answered
      obtain rfl := Except.ok.inj answered
      exact ⟨holds, given⟩
    · rw [refused] at answered
      cases answered

private theorem finds_read {access : StateM σ (Except ε ByteArray)} {held : Option ByteArray}
    {use : Except ε ByteArray → Except Failure α} {Good : String → α → Prop}
    (gives : Gives access held state)
    (used : ∀ {content a}, use content = .ok a ↔
      ∃ text : String, content = .ok text.toUTF8 ∧ Good text a) :
    Finds (ExceptT.mk (use <$> access)) state fun a =>
      ∃ text, Reads access held state text ∧ Good text a := by
  have keeps : (access state).2 = state := by
    rcases gives with ⟨bytes, -, given⟩ | ⟨fault, refused⟩
    · rw [given]
    · rw [refused]
  refine ⟨use (access state).1, ?_, ?_⟩
  · rw [ExceptT.run_mk, map_run, keeps]
  · intro a
    simp only [used, reads_iff gives]

variable {host : Host (StateM σ)} {storage : Storage σ File}

private theorem finds_settings (faithful : host.Faithful storage) (invocation : Invocation) :
    Finds (settingsFor host invocation) state fun settings =>
      ∃ chosen, Configures host storage invocation state chosen ∧
        settings = settingsOver invocation chosen := by
  have settled : ∀ chosen, Finds (pure (settingsOver invocation chosen)) state fun settings =>
      settings = settingsOver invocation chosen := by
    intro chosen
    exact ⟨.ok (settingsOver invocation chosen), rfl, fun settings => by simp [eq_comm]⟩
  unfold settingsFor Configures
  cases invocation.config with
  | none => simpa [settingsOver] using settled .none
  | some path =>
    exact finds_bind (finds_read (faithful.read path state) choicesOf_eq_ok_iff)
      fun chosen _ => settled chosen

private theorem finds_text (faithful : host.Faithful storage) (invocation : Invocation) :
    Finds (textFor host invocation) state (Supplies host storage invocation state) := by
  unfold textFor Supplies
  cases invocation.input with
  | none =>
    have found := @finds_read _ _ _ state _ _ textOfInput (· = ·) (faithful.readInput state)
      (by simp [textOfInput_eq_ok_iff])
    simpa [ReadsInput] using found
  | some path =>
    have found := @finds_read _ _ _ state _ _ (textOf path) (· = ·) (faithful.read path state)
      (by simp [textOf_eq_ok_iff])
    simpa [ReadsFile] using found

/-- What a run reads comes before what it writes. -/
theorem finds_program (faithful : host.Faithful storage) (invocation : Invocation) :
    Finds (do
      let settings ← settingsFor host invocation
      let text ← textFor host invocation
      ExceptT.mk (pure (output invocation settings text))) state
      (Yields host storage invocation state) := by
  have found := finds_bind (finds_settings faithful invocation) fun settings _ =>
    finds_bind (finds_text faithful invocation) fun source _ =>
      show Finds (ExceptT.mk (pure (output invocation settings source))) state _ from
        ⟨output invocation settings source, rfl, fun text => output_eq_ok_iff⟩
  obtain ⟨answer, ran, produced⟩ := found
  refine ⟨answer, ran, ?_⟩
  intro text
  rw [produced, Yields]
  constructor
  · rintro ⟨_, ⟨chosen, configures, rfl⟩, source, supplies, document, read, rfl⟩
    exact ⟨chosen, source, document, configures, supplies, read, rfl⟩
  · rintro ⟨chosen, source, document, configures, supplies, read, rfl⟩
    exact ⟨_, ⟨chosen, configures, rfl⟩, source, supplies, document, read, rfl⟩

end Reading

section Outcome

variable {host : Host (StateM σ)} {storage : Storage σ File} {invocation : Invocation} {state : σ}

private theorem run_of_steps_ok {report : Report} {after : σ}
    (ran : (steps host invocation).run state = (.ok report, after)) :
    run host invocation state = (report, after) := by
  rw [run, bind_run, ran]
  rfl

private theorem run_of_steps_error {failure : Failure} {after : σ}
    (ran : (steps host invocation).run state = (.error failure, after)) :
    run host invocation state = (failure.report, after) := by
  rw [run, bind_run, ran]
  rfl

private theorem fruitless (failure : Failure) : Fruitless state failure.report state :=
  ⟨by simp [Failure.report], rfl, rfl⟩

private theorem deliver_of_takes (faithful : host.Faithful storage) {text : String}
    (takes : Takes host invocation state text) :
    ∃ report after, (deliver host invocation text).run state = (.ok report, after) ∧
      Delivered storage invocation text state report after := by
  unfold deliver
  cases asked : invocation.output with
  | none =>
    refine ⟨⟨0, text, ""⟩, state, rfl, rfl, fun _ => ⟨rfl, rfl⟩, ?_⟩
    intro path other
    cases asked.symm.trans other
  | some path =>
    obtain ⟨after, wrote⟩ := takes path asked
    obtain ⟨file, after, wrote, written⟩ : ∃ file after,
        host.write path text state = (.ok (), after) ∧
          storage.Written state path file text after := by
      rcases faithful.write path text state with written | ⟨reason, refused⟩
      · exact written
      · cases wrote.symm.trans refused
    refine ⟨⟨0, "", ""⟩, after, ?_, rfl, ?_, ?_⟩
    · refine run_bind_of_ok (a := ()) ?_
      rw [ExceptT.run_mk, map_run, wrote]
      rfl
    · intro other
      cases asked.symm.trans other
    · intro other same
      obtain rfl : path = other := Option.some.inj (asked.symm.trans same)
      exact ⟨rfl, file, written⟩

private theorem deliver_of_not_takes (faithful : host.Faithful storage) {text : String}
    (refuses : ¬ Takes host invocation state text) :
    ∃ failure, (deliver host invocation text).run state = (.error failure, state) := by
  obtain ⟨path, asked, failed⟩ : ∃ path, invocation.output = some path ∧
      ¬ ∃ after, host.write path text state = (.ok (), after) := by
    simpa only [Takes, not_forall, exists_prop] using refuses
  obtain ⟨reason, wrote⟩ : ∃ reason, host.write path text state = (.error reason, state) := by
    rcases faithful.write path text state with ⟨_, after, wrote, -⟩ | refused
    · exact absurd ⟨after, wrote⟩ failed
    · exact refused
  refine ⟨.notWritten path reason, ?_⟩
  rw [deliver, asked]
  refine run_bind_of_error ?_
  rw [ExceptT.run_mk, map_run, wrote]
  rfl

theorem steps_split :
    steps host invocation = (do
      let settings ← settingsFor host invocation
      let text ← textFor host invocation
      ExceptT.mk (pure (output invocation settings text))) >>= deliver host invocation := by
  simp only [steps, bind_assoc]

/-- What the first part of a run finds is delivered by the second part, or the run fails and nothing
has changed. -/
theorem found_delivered (faithful : host.Faithful storage)
    {part : ExceptT Failure (StateM σ) String} {Expected : String → Prop}
    (found : Finds part state Expected)
    (split : steps host invocation = part >>= deliver host invocation) :
    ∃ report after, run host invocation state = (report, after) ∧
      (∀ text, Expected text → Takes host invocation state text →
        Delivered storage invocation text state report after) ∧
      ((∀ text, Expected text → ¬ Takes host invocation state text) →
        Fruitless state report after) := by
  obtain ⟨answer, ran, expected⟩ := found
  cases answer with
  | error failure =>
    have stepped : (steps host invocation).run state = (.error failure, state) :=
      split ▸ run_bind_of_error ran
    refine ⟨_, _, run_of_steps_error stepped, ?_, fun _ => fruitless failure⟩
    intro text wanted
    cases (expected text).mpr wanted
  | ok text =>
    have stepped : (steps host invocation).run state =
        (deliver host invocation text).run state := split ▸ run_bind_of_ok ran
    have only : ∀ other, Expected other → other = text := fun other wanted =>
      (Except.ok.inj ((expected other).mpr wanted)).symm
    by_cases takes : Takes host invocation state text
    · obtain ⟨report, after, delivered, outcome⟩ := deliver_of_takes faithful takes
      refine ⟨report, after, run_of_steps_ok (stepped.trans delivered), ?_, ?_⟩
      · rintro other wanted -
        rwa [only other wanted]
      · exact fun refused => absurd takes (refused text ((expected text).mp rfl))
    · obtain ⟨failure, failed⟩ := deliver_of_not_takes faithful takes
      refine ⟨_, _, run_of_steps_error (stepped.trans failed), ?_, fun _ => fruitless failure⟩
      intro other wanted taken
      exact absurd (only other wanted ▸ taken) takes

theorem run_of_accepted {line : List String} (accepted : parse line = .ok (.run invocation)) :
    (runLine host line).run state = run host invocation state := by
  rw [runLine, accepted]
  rfl

end Outcome

/-- A run that is asked for properly is all or nothing, on every system with files. If all that it
reads is there and in order, and the output file can be written, its one effect is the program for
what was there before, with a line break after it: on standard output, or as the content of the
output file, which may be a file that was read. If anything fails it has no effect. -/
theorem run_all_or_nothing {host : Host (StateM σ)} {storage : Storage σ File}
    (faithful : host.Faithful storage) {line : List String} {invocation : Invocation}
    (accepted : parse line = .ok (.run invocation)) (state : σ) :
    ∃ report after, (runLine host line).run state = (report, after) ∧
      (∀ text, Yields host storage invocation state text → Takes host invocation state text →
        Delivered storage invocation text state report after) ∧
      ((∀ text, Yields host storage invocation state text → ¬ Takes host invocation state text) →
        Fruitless state report after) := by
  rw [run_of_accepted accepted]
  exact found_delivered faithful (finds_program faithful invocation) steps_split

/-- One file is the configuration, the document and the place for the program. It is not where the
run works, and three paths lead to it. -/
theorem run_all_or_nothing_over_its_input :
    let around : Surroundings := ⟨["home", "work"], []⟩
    let before : Directory := ⟨[(["tmp", "a"], "{}".toUTF8)], .empty⟩
    ∃ report after,
      (runLine (Directory.host around)
        ["/tmp/a", "--config", "../../tmp/a", "-o", "/home/../tmp/a"]).run before =
          (report, after) ∧
      report.exitCode = 0 ∧ report.stdout = "" ∧
      (Directory.storage around).held? after "/tmp/a" = some (program .standard
        (Json.Value.bufferSize (.object [])) (.object []) ++ "\n").toUTF8 := by
  intro around before
  obtain ⟨report, after, ran, delivered, -⟩ := @run_all_or_nothing _ _ (Directory.host around)
    (Directory.storage around) (Directory.host_faithful around)
    ["/tmp/a", "--config", "../../tmp/a", "-o", "/home/../tmp/a"]
    { input := some "/tmp/a", config := some "../../tmp/a", output := some "/home/../tmp/a" }
    (by decide) before
  have read : Json.read "{}" = .ok ⟨.object [], by simp⟩ :=
    @Json.read_compact ⟨.object [], by simp⟩ (by simp [Json.Value.Floatless]) (by decide)
  have leads : ∀ path ∈ ["/tmp/a", "/home/../tmp/a"],
      (Directory.storage around).find? before path = some ["tmp", "a"] := by decide
  have outcome := delivered _
    ⟨.none, "{}", _, ⟨"{}", ⟨rfl, rfl⟩, by cbv⟩, ⟨rfl, rfl⟩, read, rfl⟩ ?_
  · obtain ⟨silent, file, written⟩ := outcome.written _ rfl
    have output := written.paths _ _ (leads "/home/../tmp/a" (by simp))
    have input := written.paths _ _ (leads "/tmp/a" (by simp))
    obtain rfl : ["tmp", "a"] = file := Option.some.inj (output.symm.trans written.leads)
    exact ⟨report, after, ran, outcome.succeeded, silent,
      Option.bind_eq_some_iff.mpr ⟨_, input, written.content⟩⟩
  · rintro path ⟨⟩
    exact ⟨_, rfl⟩

end JsonUnpack.Command
