/-
  GraphSchema.Proofs.Types.InputEntries — an input object keeps its valid entries, and these
  only.

  One pass over the entries leaves out what has no valid name or no known input type, and
  goes on. What an entry comes to does not depend on the entries around it, so those that
  stay keep their order (`keepsSound_published`), and entries that are left out anyway can be
  put in or taken out wherever they stand (`fields_published_of_differs`).
  - `define_keeps`: what a configuration with an entry is built to, and every configuration
    that differs from it in invalid entries.
-/

import GraphSchema.Proofs.Types.Building

namespace GraphSchema

namespace InputFieldConfig

variable {owner : String} {kinds : KindTable} {name : String} {config : InputFieldConfig}

/-- A valid name, and the type of something known that is read. -/
structure Sound (kinds : KindTable) (name : String) (config : InputFieldConfig) : Prop where
  name : isValidName name = true
  type : kinds.KnownInput config.type

theorem valid_iff_sound : config.Valid kinds name ↔ config.Sound kinds name := by
  constructor
  · intro h
    exact ⟨h.name, KindTable.acceptsInput_eq_true_iff.mp h.type⟩
  · intro h
    exact ⟨h.name, KindTable.acceptsInput_eq_true_iff.mpr h.type⟩

instance : Decidable (config.Sound kinds name) :=
  decidable_of_iff
    (isValidName name = true ∧ (kinds.acceptsInput config.type).toOption = some true) <| by
      rw [toOption_eq_some_iff, ← valid_iff_sound]
      exact ⟨fun h => ⟨h.1, h.2⟩, fun h => ⟨h.name, h.type⟩⟩

theorem toOption_define_of_sound (h : config.Sound kinds name) :
    (config.define owner kinds name).toOption = some (config.published name) :=
  toOption_eq_some_iff.mpr (define_eq_ok_iff.mpr ⟨valid_iff_sound.mpr h, rfl⟩)

theorem toOption_define_of_not_sound (h : ¬ config.Sound kinds name) :
    (config.define owner kinds name).toOption = none := by
  rw [Option.eq_none_iff_forall_ne_some]
  intro field hfield
  exact h (valid_iff_sound.mp (define_eq_ok_iff.mp (toOption_eq_some_iff.mp hfield)).1)

end InputFieldConfig

/-- Of the entries, the sound ones are fields, in their order and with all that was
configured. -/
inductive KeepsSound (kinds : KindTable) :
    List (String × InputFieldConfig) → List (String × InputField) → Prop
  | nil : KeepsSound kinds [] []
  | keeps {name : String} {config : InputFieldConfig} {rest : List (String × InputFieldConfig)}
      {fields : List (String × InputField)} :
      config.Sound kinds name → KeepsSound kinds rest fields →
      KeepsSound kinds ((name, config) :: rest)
        ((name, ⟨name, config.type, config.defaultValue, config.description⟩) :: fields)
  | leavesOut {name : String} {config : InputFieldConfig}
      {rest : List (String × InputFieldConfig)} {fields : List (String × InputField)} :
      ¬ config.Sound kinds name → KeepsSound kinds rest fields →
      KeepsSound kinds ((name, config) :: rest) fields

/-- The second list of entries is the first after entries that are not sound were put in and
taken out. -/
inductive DiffersInUnsound (kinds : KindTable) :
    List (String × InputFieldConfig) → List (String × InputFieldConfig) → Prop
  | nil : DiffersInUnsound kinds [] []
  | same (entry : String × InputFieldConfig) {entries others : List (String × InputFieldConfig)} :
      DiffersInUnsound kinds entries others →
      DiffersInUnsound kinds (entry :: entries) (entry :: others)
  | putIn {name : String} {config : InputFieldConfig}
      {entries others : List (String × InputFieldConfig)} :
      ¬ config.Sound kinds name → DiffersInUnsound kinds entries others →
      DiffersInUnsound kinds entries ((name, config) :: others)
  | takenOut {name : String} {config : InputFieldConfig}
      {entries others : List (String × InputFieldConfig)} :
      ¬ config.Sound kinds name → DiffersInUnsound kinds entries others →
      DiffersInUnsound kinds ((name, config) :: entries) others

namespace InputObjectConfig

variable {kinds : KindTable} {config : InputObjectConfig}

theorem keepsSound_published (config : InputObjectConfig) (kinds : KindTable) :
    KeepsSound kinds config.fields.resolve.entries (config.published kinds).fields.entries := by
  show KeepsSound kinds _ (Keyed.filterMapEntries _ config.fields.resolve.entries)
  induction config.fields.resolve.entries with
  | nil => exact .nil
  | cons entry rest ih =>
    obtain ⟨name, field⟩ := entry
    rw [Keyed.filterMapEntries]
    by_cases h : field.Sound kinds name
    · rw [InputFieldConfig.toOption_define_of_sound h]
      exact .keeps h ih
    · rw [InputFieldConfig.toOption_define_of_not_sound h]
      exact .leavesOut h ih

theorem fields_published_of_differs {fields : Deferred (Keyed InputFieldConfig)}
    (h : DiffersInUnsound kinds config.fields.resolve.entries fields.resolve.entries) :
    { config with fields }.published kinds = config.published kinds := by
  have hentries : ∀ {entries others : List (String × InputFieldConfig)},
      DiffersInUnsound kinds entries others →
        (Keyed.filterMapEntries fun name field =>
          (InputFieldConfig.define config.name kinds name field).toOption) others =
        (Keyed.filterMapEntries fun name field =>
          (InputFieldConfig.define config.name kinds name field).toOption) entries := by
    intro entries others hdiffers
    induction hdiffers with
    | nil => rfl
    | same entry _ ih => simp only [Keyed.filterMapEntries, ih]
    | putIn hnot _ ih =>
      rw [Keyed.filterMapEntries, InputFieldConfig.toOption_define_of_not_sound hnot]
      exact ih
    | takenOut hnot _ ih =>
      rw [ih, Keyed.filterMapEntries, InputFieldConfig.toOption_define_of_not_sound hnot]
  have hfields : ({ config with fields }.published kinds).fields =
      (config.published kinds).fields := Keyed.ext_entries (hentries h)
  exact congrArg (InputObjectType.mk config.name config.description) hfields

/-- A configuration with an entry is built, to an input object of its valid entries, and so is
every other that differs from it in invalid entries, to the same. -/
theorem define_keeps (config : InputObjectConfig) (kinds : KindTable)
    (h : config.fields.resolve.isEmpty = false) :
    ∃ input, config.define kinds = .ok input ∧
      input.name = config.name ∧ input.description = config.description ∧
      KeepsSound kinds config.fields.resolve.entries input.fields.entries ∧
      ∀ fields : Deferred (Keyed InputFieldConfig), fields.resolve.isEmpty = false →
        DiffersInUnsound kinds config.fields.resolve.entries fields.resolve.entries →
          { config with fields }.define kinds = .ok input := by
  refine ⟨config.published kinds, define_eq_ok_iff.mpr ⟨h, rfl⟩, rfl, rfl,
    config.keepsSound_published kinds, ?_⟩
  intro fields hfields hdiffers
  exact define_eq_ok_iff.mpr ⟨hfields, fields_published_of_differs hdiffers⟩

/-! Guests are asked for by name and tags. Of the other entries one has no valid name, one is
of an object, one of a type that is not known and one of a scalar without readers. -/

def guestKinds : KindTable := .classify [
  ("String", .scalar true), ("Stamp", .scalar false), ("Guest", .object), ("Tag", .enum)]

def guestTags : InputFieldConfig := {
  type := .list (.nonNull (.named "Tag"))
  defaultValue := some (.array [])
  description := some "All of them." }

def guestFilter : InputObjectConfig := {
  name := "GuestFilter"
  fields := .now (.ofList [
    ("name", { type := .named "String" }),
    ("last-name", { type := .named "String" }),
    ("friend", { type := .named "Guest" }),
    ("tags", guestTags),
    ("pet", { type := .named "Pet" })]) }

def guestEntries : Deferred (Keyed InputFieldConfig) := .later fun _ => .ofList [
  ("seen", { type := .nonNull (.named "Stamp") }),
  ("name", { type := .named "String" }),
  ("pet", { type := .named "Pet" }),
  ("tags", guestTags)]

theorem guest_filter_kept :
    ∃ input, guestFilter.define guestKinds = .ok input ∧
      KeepsSound guestKinds guestFilter.fields.resolve.entries input.fields.entries ∧
      input.fields.keys = ["name", "tags"] ∧
      { guestFilter with fields := guestEntries }.define guestKinds = .ok input := by
  obtain ⟨input, hinput, _, _, hkept, hdiffers⟩ := define_keeps guestFilter guestKinds rfl
  refine ⟨input, hinput, hkept, ?_, hdiffers guestEntries rfl ?_⟩
  · cases hinput
    decide
  · exact .putIn (by decide) <| .same _ <| .takenOut (by decide) <| .takenOut (by decide) <|
      .putIn (by decide) <| .same _ <| .takenOut (by decide) .nil

end InputObjectConfig

end GraphSchema
