import JsonUnpack.Json.Value

/-! The settings of a generator. They can come from several sources, each of which may leave some
of them open, so everything about them is said once for whatever is stored per setting. -/
namespace JsonUnpack

inductive Setting
  | maxInlineChildren
  | maxNamedArrayElements
  | nestingHintThreshold
  deriving DecidableEq

/-- The key of a setting in a configuration. -/
def Setting.key : Setting → String
  | maxInlineChildren => "max_inline_children"
  | maxNamedArrayElements => "max_named_array_elements"
  | nestingHintThreshold => "nesting_hint_threshold"

/-- The settings in the order in which a configuration lists them. -/
def Setting.all : List Setting :=
  [.maxInlineChildren, .maxNamedArrayElements, .nestingHintThreshold]

/-- The setting with a given key. -/
def Setting.ofKey? (key : String) : Option Setting := Setting.all.find? (·.key = key)

theorem Setting.ofKey?_key (setting : Setting) : ofKey? setting.key = some setting := by
  cases setting <;> decide

theorem Setting.ofKey?_other {key : String} (other : ∀ setting : Setting, setting.key ≠ key) :
    ofKey? key = none := by
  apply List.find?_eq_none.mpr
  intro setting _
  simpa using other setting

/-- Something for each setting. -/
structure PerSetting (α : Type) where
  /-- An array or object with more children than this gets a variable. -/
  maxInlineChildren : α
  /-- So many elements are taken from an array that has a variable. -/
  maxNamedArrayElements : α
  /-- A document nested deeper than this passes its depth to the parser. -/
  nestingHintThreshold : α
  deriving DecidableEq

namespace PerSetting

variable {α β γ : Type}

def get (p : PerSetting α) : Setting → α
  | .maxInlineChildren => p.maxInlineChildren
  | .maxNamedArrayElements => p.maxNamedArrayElements
  | .nestingHintThreshold => p.nestingHintThreshold

def set (p : PerSetting α) (setting : Setting) (a : α) : PerSetting α :=
  match setting with
  | .maxInlineChildren => { p with maxInlineChildren := a }
  | .maxNamedArrayElements => { p with maxNamedArrayElements := a }
  | .nestingHintThreshold => { p with nestingHintThreshold := a }

@[simp] theorem get_set_self (p : PerSetting α) (setting : Setting) (a : α) :
    (p.set setting a).get setting = a := by
  cases setting <;> rfl

theorem get_set_other (p : PerSetting α) {setting other : Setting} (a : α)
    (apart : other ≠ setting) : (p.set setting a).get other = p.get other := by
  cases setting <;> cases other <;> first | rfl | exact absurd rfl apart

theorem set_comm (p : PerSetting α) {setting other : Setting} (a b : α) (apart : other ≠ setting) :
    (p.set setting a).set other b = (p.set other b).set setting a := by
  cases setting <;> cases other <;> first | rfl | exact absurd rfl apart

theorem ext_get {p q : PerSetting α} (same : ∀ setting, p.get setting = q.get setting) : p = q := by
  cases p
  cases q
  congr
  · exact same .maxInlineChildren
  · exact same .maxNamedArrayElements
  · exact same .nestingHintThreshold

end PerSetting

/-- A value for each setting. -/
abbrev Settings := PerSetting UInt64

/-- Values for some of the settings. -/
abbrev Choices := PerSetting (Option UInt64)

/-- No setting is chosen. -/
def Choices.none : Choices := ⟨.none, .none, .none⟩

@[simp] theorem Choices.get_none (setting : Setting) : none.get setting = .none := by
  cases setting <;> rfl

namespace Settings

/-- What holds where nothing is chosen. -/
def standard : Settings := ⟨2, 4, 10⟩

/-- Each setting that is chosen takes the chosen value. -/
def override (settings : Settings) (choices : Choices) : Settings :=
  ⟨choices.maxInlineChildren.getD settings.maxInlineChildren,
    choices.maxNamedArrayElements.getD settings.maxNamedArrayElements,
    choices.nestingHintThreshold.getD settings.nestingHintThreshold⟩

@[simp] theorem get_override (settings : Settings) (choices : Choices) (setting : Setting) :
    (settings.override choices).get setting =
      (choices.get setting).getD (settings.get setting) := by
  cases setting <;> rfl

/-- A configuration that lists all settings. -/
def toValue (settings : Settings) : Json.Value :=
  .object (Setting.all.map fun setting =>
    let n := settings.get setting
    (setting.key, .ofNumber (.ofNat n.toNat n.toNat_lt_size)))

/-- The text of a configuration that lists all settings. -/
def text (settings : Settings) : String := settings.toValue.compact

end Settings

end JsonUnpack
