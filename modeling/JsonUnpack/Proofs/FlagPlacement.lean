import JsonUnpack.Command.Arguments

/-! A setting can be given by its flag in front of any command line on which it is not given yet.
The arguments are read in order, and what has been given so far only grows; so a setting that is
free at the end has been free all along, and giving it first makes no difference to the rest. -/
namespace JsonUnpack.Command

/-- An invocation in which one more setting is given. -/
def Invocation.choose (invocation : Invocation) (setting : Setting) (n : UInt64) : Invocation :=
  { invocation with choices := invocation.choices.set setting (some n) }

/-- The flag of a setting with its value attached. -/
def flagText (setting : Setting) (n : UInt64) : String :=
  .ofList ('-' :: '-' :: ((Flag.setting setting).longName.toList ++ '=' :: decimalDigits n.toNat))

variable {invocation result : Invocation} {setting : Setting} {n : UInt64}

/-! One argument. -/

private theorem give_choose {flag : Flag} {value : String}
    (given : invocation.give flag value = .ok result) (free : result.choices.get setting = none) :
    invocation.choices.get setting = none ∧
      (invocation.choose setting n).give flag value = .ok (result.choose setting n) := by
  unfold Invocation.give at given ⊢
  split at given
  · cases given
  · rename_i fresh
    cases flag with
    | bufferSize =>
      cases given
      exact ⟨free, if_neg fresh⟩
    | output | config =>
      dsimp only at given
      split at given
      · cases given
      · rename_i named
        cases given
        exact ⟨free, (if_neg fresh).trans (if_neg named)⟩
    | setting other =>
      dsimp only at given
      split at given
      · cases given
      · cases given
        have apart : setting ≠ other := by
          rintro rfl
          cases (PerSetting.get_set_self ..).symm.trans free
        have fresh : ¬ (invocation.choose setting n).has (.setting other) = true := by
          rwa [Invocation.has, Invocation.choose, PerSetting.get_set_other _ _ apart.symm]
        refine ⟨(PerSetting.get_set_other _ _ apart).symm.trans free, (if_neg fresh).trans ?_⟩
        simp only [Invocation.choose, PerSetting.set_comm _ _ _ apart]

private theorem giveFile_choose {file : String} (given : invocation.giveFile file = .ok result)
    (free : result.choices.get setting = none) :
    invocation.choices.get setting = none ∧
      (invocation.choose setting n).giveFile file = .ok (result.choose setting n) := by
  unfold Invocation.giveFile at given ⊢
  split at given
  · cases given
  · rename_i fresh
    split at given
    · cases given
    · rename_i named
      cases given
      exact ⟨free, (if_neg fresh).trans (if_neg named)⟩

/-! All arguments. -/

private theorem bind_choose {step other : Except UsageError Invocation}
    {next : Invocation → Except UsageError Request}
    (first : ∀ after, step = .ok after → after.choices.get setting = none →
      invocation.choices.get setting = none ∧ other = .ok (after.choose setting n))
    (later : ∀ after, next after = .ok (.run result) → after.choices.get setting = none ∧
      next (after.choose setting n) = .ok (.run (result.choose setting n)))
    (accepted : step >>= next = .ok (.run result)) :
    invocation.choices.get setting = none ∧
      other >>= next = .ok (.run (result.choose setting n)) := by
  cases given : step with
  | error problem =>
    rw [given] at accepted
    cases accepted
  | ok after =>
    rw [given] at accepted
    obtain ⟨freeAfter, read⟩ := later after accepted
    obtain ⟨free, givenOther⟩ := first after given freeAfter
    rw [givenOther]
    exact ⟨free, read⟩

private theorem files_choose {list : List String} (free : result.choices.get setting = none)
    (accepted : files invocation list = .ok (.run result)) :
    invocation.choices.get setting = none ∧
      files (invocation.choose setting n) list = .ok (.run (result.choose setting n)) := by
  induction list generalizing invocation with
  | nil =>
    cases accepted
    exact ⟨free, rfl⟩
  | cons file rest ih => exact bind_choose (fun _ => giveFile_choose) (fun _ => ih) accepted

private theorem arguments_choose {line : List String} (free : result.choices.get setting = none)
    (accepted : arguments invocation line = .ok (.run result)) :
    invocation.choices.get setting = none ∧
      arguments (invocation.choose setting n) line = .ok (.run (result.choose setting n)) := by
  fun_induction arguments invocation line with
  | case1 =>
    cases accepted
    exact ⟨free, rfl⟩
  | case2 _ _ _ form ih =>
    rw [arguments, form]
    exact bind_choose (fun _ => giveFile_choose) ih accepted
  | case3 _ _ _ form =>
    rw [arguments, form]
    exact files_choose free accepted
  | case4 => cases accepted
  | case5 => cases accepted
  | case6 _ _ _ _ _ form ih =>
    rw [arguments, form]
    exact bind_choose (fun _ => give_choose) ih accepted
  | case7 => cases accepted
  | case8 _ _ _ form _ _ attached ih =>
    rw [arguments, form]
    dsimp only
    rw [if_pos attached]
    exact bind_choose (fun _ => give_choose) ih accepted
  | case9 => cases accepted

/-! The flag of a setting. -/

private theorem longName_setting (setting : Setting) :
    (Flag.setting setting).longName =
      match setting with
      | .maxInlineChildren => "max-inline-children"
      | .maxNamedArrayElements => "max-named-array-elements"
      | .nestingHintThreshold => "nesting-hint-threshold" := by
  apply String.toList_inj.mp
  rw [Flag.longName, String.toList_map]
  cases setting <;> decide

private theorem ofLong?_setting (setting : Setting) :
    Flag.ofLong? (Flag.setting setting).longName = some (.setting setting) := by
  have first : [Flag.bufferSize, .output, .config].find?
      (·.longName = (Flag.setting setting).longName) = none := by
    rw [longName_setting]
    cases setting <;> decide
  rw [Flag.ofLong?, Flag.all, List.find?_append, first, Option.none_or]
  simp only [Setting.all, List.map_cons, List.find?_cons, longName_setting]
  cases setting <;> rfl

private theorem value_read (n : UInt64) :
    settingValue? (.ofList (decimalDigits n.toNat)) = some n := by
  obtain ⟨d, more, digits, isDigit⟩ := digits_start n.toNat
  have value : Nat.ofDigitChars 10 (d :: more) 0 = n.toNat := by
    rw [← digits]
    exact Nat.ofDigitChars_ten_toDigits
  have all : (d :: more).all Char.isDigit = true := by
    rw [← digits]
    exact List.all_eq_true.mpr fun c member => digit_of_mem member
  have number : naturalNumber? (d :: more) = some n.toNat := by
    rw [← value, naturalNumber?, if_pos ⟨List.cons_ne_nil d more, all⟩]
    rfl
  rw [settingValue?, String.toList_ofList, decimalDigits, digits]
  split
  · rename_i plus
    cases plus
    cases isDigit
  · rw [number]
    refine (dif_pos n.toNat_lt_size).trans ?_
    rw [UInt64.ofNatLT_toNat]

private theorem flagText_form (setting : Setting) (n : UInt64) :
    Argument.ofString (flagText setting n) =
      .option (.setting setting) (some (.ofList (decimalDigits n.toNat))) := by
  have named : (Flag.setting setting).longName.toList ≠ [] := by
    rw [longName_setting]
    cases setting <;> decide
  have plain : ∀ c ∈ (Flag.setting setting).longName.toList, decide (c ≠ '=') = true := by
    apply List.all_eq_true.mp
    rw [longName_setting]
    cases setting <;> decide
  have long : Argument.ofString (flagText setting n) =
      longArgument ((Flag.setting setting).longName.toList ++ '=' :: decimalDigits n.toNat) := by
    rw [Argument.ofString, flagText, String.toList_ofList]
    rcases name : (Flag.setting setting).longName.toList with _ | ⟨c, rest⟩
    · exact absurd name named
    · rfl
  rw [long, longArgument, List.takeWhile_append_of_pos plain, List.dropWhile_append_of_pos plain]
  simp [ofLong?_setting]

/-- With the flag of a setting in front, a line asks for the same and for that setting too. -/
theorem parse_flagText {line : List String} (accepted : parse line = .ok (.run invocation))
    (free : invocation.choices.get setting = none) (n : UInt64) :
    parse (flagText setting n :: line) = .ok (.run (invocation.choose setting n)) := by
  have given : Invocation.give {} (.setting setting) (.ofList (decimalDigits n.toNat)) =
      .ok (Invocation.choose {} setting n) := by
    have fresh : ¬ Invocation.has {} (.setting setting) = true := by
      simp [Invocation.has]
    refine (if_neg fresh).trans ?_
    dsimp only
    rw [value_read]
    rfl
  rw [parse, arguments, flagText_form]
  dsimp only
  rw [given]
  exact (arguments_choose free accepted).2

end JsonUnpack.Command
