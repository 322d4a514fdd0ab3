/-
  GraphSchema.Proofs.Types.FieldFaults — a field map is built whole, or refused for its first
  fault.

  The loops over fields and their arguments, with an exit at each check, are one list of
  checks: of each field its name, its type, and of each argument its name and its type
  (`FieldConfig.items`). A map that has a field is built if every item passes, and otherwise
  its error is that of the first item that is refused (`defineFields_eq_checks`,
  `defineFields_eq_error_iff`). The order in which arguments were configured is in none of
  the definitions (`published_of_perm`).
  - `defineFields_exact`: when a field map is built, what is in it, and by what it is
    refused.
-/

import GraphSchema.Proofs.Types.FieldMap

namespace GraphSchema

/-! ## What is checked, in order -/

/-- What can be at fault in a field map. -/
inductive FieldItem where
  /-- The name of a field or an argument. -/
  | name (text : String)
  | fieldType (field : String) (type : TypeRef)
  | argumentType (field argument : String) (type : TypeRef)

namespace FieldItem

/-- Why an item in a field map of `owner` is refused. -/
inductive Refused (owner : String) (kinds : KindTable) : FieldItem → TypeError → Prop
  | invalidName {text : String} : isValidName text = false →
      Refused owner kinds (.name text) (.invalidName text)
  | unknownField {field : String} {type : TypeRef} : kinds.Unknown type →
      Refused owner kinds (.fieldType field type) (.unknownType type.innermostName)
  | notOutput {field : String} {type : TypeRef} :
      kinds.kinds.get? type.innermostName = some .inputObject →
      Refused owner kinds (.fieldType field type) (.fieldNotOutput owner field type)
  | unknownArgument {field argument : String} {type : TypeRef} : kinds.Unknown type →
      Refused owner kinds (.argumentType field argument type) (.unknownType type.innermostName)
  | notInput {field argument : String} {type : TypeRef} :
      ¬ kinds.Unknown type → ¬ kinds.KnownInput type →
      Refused owner kinds (.argumentType field argument type)
        (.argumentNotInput owner field argument type)

def check (owner : String) (kinds : KindTable) : FieldItem → Except TypeError Unit
  | name text => checkName text
  | fieldType field type => do
    if !(← kinds.acceptsOutput type) then .error (.fieldNotOutput owner field type)
  | argumentType field argument type => do
    if !(← kinds.acceptsInput type) then .error (.argumentNotInput owner field argument type)

variable {owner : String} {kinds : KindTable}

theorem check_eq_error_iff {item : FieldItem} {error : TypeError} :
    item.check owner kinds = .error error ↔ item.Refused owner kinds error := by
  cases item with
  | name text =>
    have hname : (FieldItem.name text).check owner kinds = .error error ↔
        isValidName text = false ∧ .invalidName text = error := by
      rw [check, checkName]
      cases isValidName text <;> simp
    rw [hname]
    constructor
    · intro h
      obtain ⟨hinvalid, herror⟩ := h
      subst herror
      exact .invalidName hinvalid
    · intro h
      cases h with
      | invalidName hinvalid => exact ⟨hinvalid, rfl⟩
  | fieldType field type =>
    rw [check, guard_eq_error_iff, KindTable.acceptsOutput_eq_error_iff,
      KindTable.acceptsOutput_eq_false_iff]
    constructor
    · intro h
      rcases h with ⟨hunknown, herror⟩ | ⟨hkind, herror⟩
      · exact herror ▸ .unknownField hunknown
      · exact herror ▸ .notOutput hkind
    · intro h
      cases h with
      | unknownField hunknown => exact Or.inl ⟨hunknown, rfl⟩
      | notOutput hkind => exact Or.inr ⟨hkind, rfl⟩
  | argumentType field argument type =>
    rw [check, guard_eq_error_iff, KindTable.acceptsInput_eq_error_iff,
      KindTable.acceptsInput_eq_false_iff]
    constructor
    · intro h
      rcases h with ⟨hunknown, herror⟩ | ⟨⟨hknown, hnot⟩, herror⟩
      · exact herror ▸ .unknownArgument hunknown
      · exact herror ▸ .notInput hknown hnot
    · intro h
      cases h with
      | unknownArgument hunknown => exact Or.inl ⟨hunknown, rfl⟩
      | notInput hknown hnot => exact Or.inr ⟨⟨hknown, hnot⟩, rfl⟩

theorem check_eq_ok_iff {item : FieldItem} :
    item.check owner kinds = .ok () ↔ ∀ fault, ¬ item.Refused owner kinds fault := by
  simp only [← check_eq_error_iff]
  cases item.check owner kinds <;> simp

end FieldItem

def ArgumentConfig.items (field name : String) (config : ArgumentConfig) : List FieldItem :=
  [.name name, .argumentType field name config.type]

def FieldConfig.items (name : String) (config : FieldConfig) : List FieldItem :=
  .name name :: .fieldType name config.type ::
    config.args.entries.flatMap fun argument => argument.2.items name argument.1

/-- The items of all fields, in order of configuration. -/
def fieldItems (configs : Keyed FieldConfig) : List FieldItem :=
  configs.entries.flatMap fun field => field.2.items field.1

/-- Every item before this one passes, and this one is refused. -/
def FirstFault (owner : String) (kinds : KindTable) (items : List FieldItem) (error : TypeError) :
    Prop :=
  ∃ passed item rest, items = passed ++ item :: rest ∧
    (∀ before ∈ passed, ∀ fault, ¬ before.Refused owner kinds fault) ∧
    item.Refused owner kinds error

/-! ## The checks are made in this order -/

section

variable {owner : String} {kinds : KindTable}

theorem ArgumentConfig.define_eq_checks (owner : String) (kinds : KindTable)
    (field name : String) (config : ArgumentConfig) :
    config.define owner field kinds name =
      (config.items field name).forM (FieldItem.check owner kinds) >>= fun _ =>
        .ok (config.published name) := by
  have hchecks : (config.items field name).forM (FieldItem.check owner kinds) =
      checkName name >>= fun _ =>
        FieldItem.check owner kinds (.argumentType field name config.type) >>= fun _ => .ok () := rfl
  rw [hchecks, define, FieldItem.check]
  cases checkName name with
  | error error => rfl
  | ok done =>
    cases kinds.acceptsInput config.type with
    | error error => rfl
    | ok accepted => cases accepted <;> rfl

theorem FieldConfig.define_eq_checks (owner : String) (kinds : KindTable) (name : String)
    (config : FieldConfig) :
    config.define owner kinds name =
      (config.items name).forM (FieldItem.check owner kinds) >>= fun _ =>
        .ok (config.published name) := by
  have hargs := Keyed.traverse_eq_forM (ArgumentConfig.define_eq_checks owner kinds name)
    config.args
  have hchecks : (config.items name).forM (FieldItem.check owner kinds) =
      checkName name >>= fun _ =>
        FieldItem.check owner kinds (.fieldType name config.type) >>= fun _ =>
          (config.args.entries.flatMap fun argument => argument.2.items name argument.1).forM
            (FieldItem.check owner kinds) := rfl
  rw [hchecks, define, hargs, FieldItem.check]
  cases checkName name with
  | error error => rfl
  | ok done =>
    cases kinds.acceptsOutput config.type with
    | error error => rfl
    | ok accepted =>
      cases accepted with
      | false => rfl
      | true =>
        cases (config.args.entries.flatMap fun argument => argument.2.items name argument.1).forM
          (FieldItem.check owner kinds) <;> rfl

theorem defineFields_eq_checks {configs : Keyed FieldConfig} (h : configs.isEmpty = false) :
    defineFields owner kinds configs =
      (fieldItems configs).forM (FieldItem.check owner kinds) >>= fun _ =>
        .ok (publishedFields configs) := by
  have hfields := Keyed.traverse_eq_forM (FieldConfig.define_eq_checks owner kinds) configs
  rw [defineFields, h, if_neg Bool.false_ne_true, hfields]
  rfl

/-- A field map that has a field is refused for its first fault. -/
theorem defineFields_eq_error_iff {configs : Keyed FieldConfig} (h : configs.isEmpty = false)
    {error : TypeError} :
    defineFields owner kinds configs = .error error ↔
      FirstFault owner kinds (fieldItems configs) error := by
  have herror : defineFields owner kinds configs = .error error ↔
      (fieldItems configs).forM (FieldItem.check owner kinds) = .error error := by
    rw [defineFields_eq_checks h]
    exact map_eq_error_iff
  rw [herror, forM_eq_error_iff, FirstFault]
  simp only [FieldItem.check_eq_ok_iff, FieldItem.check_eq_error_iff]

end

/-! ## What is built -/

namespace FieldConfig

variable {kinds : KindTable} {name : String} {config : FieldConfig}

/-- Valid names, the type of something known that is answered, and for every argument the
type of something known that is read. -/
structure Sound (kinds : KindTable) (name : String) (config : FieldConfig) : Prop where
  name : isValidName name = true
  type : kinds.KnownOutput config.type
  args : ∀ argument argumentConfig, config.args.get? argument = some argumentConfig →
    isValidName argument = true ∧ kinds.KnownInput argumentConfig.type

theorem valid_iff_sound : config.Valid kinds name ↔ config.Sound kinds name := by
  constructor
  · intro h
    refine ⟨h.name, KindTable.acceptsOutput_eq_true_iff.mp h.type, ?_⟩
    intro argument argumentConfig hargument
    have hvalid := h.args argument argumentConfig hargument
    exact ⟨hvalid.name, KindTable.acceptsInput_eq_true_iff.mp hvalid.type⟩
  · intro h
    refine ⟨h.name, KindTable.acceptsOutput_eq_true_iff.mpr h.type, ?_⟩
    intro argument argumentConfig hargument
    obtain ⟨hname, htype⟩ := h.args argument argumentConfig hargument
    exact ⟨hname, KindTable.acceptsInput_eq_true_iff.mpr htype⟩

/-- The definition has all that was configured, and of arguments nothing else. -/
structure CarriedBy (name : String) (config : FieldConfig) (field : FieldDefinition) : Prop where
  name : field.name = name
  type : field.type = config.type
  description : field.description = config.description
  deprecation : field.deprecationReason = config.deprecationReason
  resolver : field.resolver = config.resolve
  increasing : field.args.Pairwise fun argument next => argument.name < next.name
  args : ∀ argument, argument ∈ field.args ↔
    ∃ argumentConfig, config.args.get? argument.name = some argumentConfig ∧
      argument.type = argumentConfig.type ∧
      argument.defaultValue = argumentConfig.defaultValue ∧
      argument.description = argumentConfig.description
  found : ∀ key, (∃ argument, field.argument? key = some argument) ↔
    ∃ argumentConfig, config.args.get? key = some argumentConfig

theorem carriedBy_published (name : String) (config : FieldConfig) :
    config.CarriedBy name (config.published name) where
  name := rfl
  type := rfl
  description := rfl
  deprecation := rfl
  resolver := rfl
  increasing := pairwise_sortOn Argument.name config.publishedArgs.values
  args := by
    intro argument
    rw [mem_args_published_iff]
    constructor
    · intro h
      obtain ⟨key, argumentConfig, hargument, hpublished⟩ := h
      subst hpublished
      exact ⟨argumentConfig, hargument, rfl, rfl, rfl⟩
    · intro h
      obtain ⟨argumentConfig, hargument, htype, hdefault, hdescription⟩ := h
      refine ⟨argument.name, argumentConfig, hargument, ?_⟩
      rw [ArgumentConfig.published, ← htype, ← hdefault, ← hdescription]
  found := by
    intro key
    rw [argument?_published]
    cases config.args.get? key <;> simp

/-- The order in which arguments were configured does not show. -/
theorem published_of_perm {args : Keyed ArgumentConfig}
    (h : config.args.entries.Perm args.entries) (name : String) :
    { config with args }.published name = config.published name := by
  have hvalues : config.publishedArgs.values.Perm
      { config with args }.publishedArgs.values := (h.map _).map _
  have hsorted := sortOn_eq_of_perm config.nodup_name_publishedArgs hvalues
  simp only [published, hsorted]

theorem Valid.of_perm {args : Keyed ArgumentConfig} (h : config.args.entries.Perm args.entries)
    (hvalid : config.Valid kinds name) : { config with args }.Valid kinds name where
  name := hvalid.name
  type := hvalid.type
  args := by
    intro argument argumentConfig hargument
    refine hvalid.args argument argumentConfig ?_
    rw [Keyed.get?_eq_of_perm h]
    exact hargument

end FieldConfig

section

variable {kinds : KindTable} {configs : Keyed FieldConfig} {name : String} {config : FieldConfig}
  {args : Keyed ArgumentConfig}

theorem publishedFields_of_perm (hconfig : configs.get? name = some config)
    (h : config.args.entries.Perm args.entries) :
    publishedFields (configs.insert name { config with args }) = publishedFields configs := by
  have hfield : (publishedFields configs).get? name = some (config.published name) :=
    get?_publishedFields_eq_some_iff.mpr ⟨config, hconfig, rfl⟩
  rw [publishedFields, Keyed.mapValues_insert, FieldConfig.published_of_perm h]
  exact Keyed.insert_eq_self hfield

theorem ValidFields.of_perm (hvalid : ValidFields kinds configs)
    (hconfig : configs.get? name = some config) (h : config.args.entries.Perm args.entries) :
    ValidFields kinds (configs.insert name { config with args }) where
  nonempty := Keyed.isEmpty_eq_false_iff.mpr
    ⟨name, _, (Keyed.get?_insert ..).trans (if_pos rfl)⟩
  valid := by
    intro other otherConfig hother
    rw [Keyed.get?_insert] at hother
    split at hother
    · rename_i hname
      cases hother
      exact hname ▸ (hvalid.valid name config hconfig).of_perm h
    · exact hvalid.valid other otherConfig hother

end

/-- When a field map is built, what is in it, and by what it is refused. -/
structure DefinesFields (owner : String) (kinds : KindTable) (configs : Keyed FieldConfig) : Prop where
  succeeds : (∃ fields, defineFields owner kinds configs = .ok fields) ↔
    configs.isEmpty = false ∧
      ∀ name config, configs.get? name = some config → config.Sound kinds name
  keys : ∀ fields, defineFields owner kinds configs = .ok fields → fields.keys = configs.keys
  carries : ∀ fields, defineFields owner kinds configs = .ok fields →
    ∀ name config, configs.get? name = some config →
      ∃ field, fields.get? name = some field ∧ config.CarriedBy name field
  /-- The arguments of a field may be configured in any order. -/
  permutes : ∀ fields, defineFields owner kinds configs = .ok fields →
    ∀ name config (args : Keyed ArgumentConfig), configs.get? name = some config →
      config.args.entries.Perm args.entries →
        defineFields owner kinds (configs.insert name { config with args }) = .ok fields
  empty : configs.isEmpty = true → defineFields owner kinds configs = .error (.emptyFields owner)
  refuses : configs.isEmpty = false → ∀ error,
    defineFields owner kinds configs = .error error ↔
      FirstFault owner kinds (fieldItems configs) error

theorem defineFields_exact (owner : String) (kinds : KindTable) (configs : Keyed FieldConfig) :
    DefinesFields owner kinds configs where
  succeeds := by
    simp only [defineFields_eq_ok_iff, ← FieldConfig.valid_iff_sound]
    constructor
    · intro h
      obtain ⟨fields, hvalid, _⟩ := h
      exact ⟨hvalid.nonempty, hvalid.valid⟩
    · intro h
      exact ⟨publishedFields configs, ⟨h.1, h.2⟩, rfl⟩
  keys := by
    intro fields h
    rw [← (defineFields_eq_ok_iff.mp h).2]
    exact Keyed.keys_mapValues ..
  carries := by
    intro fields h name config hconfig
    rw [← (defineFields_eq_ok_iff.mp h).2]
    exact ⟨config.published name, get?_publishedFields_eq_some_iff.mpr ⟨config, hconfig, rfl⟩,
      config.carriedBy_published name⟩
  permutes := by
    intro fields h name config args hconfig hperm
    obtain ⟨hvalid, hfields⟩ := defineFields_eq_ok_iff.mp h
    exact defineFields_eq_ok_iff.mpr
      ⟨hvalid.of_perm hconfig hperm, (publishedFields_of_perm hconfig hperm).trans hfields⟩
  empty := fun h => if_pos h
  refuses := fun h _ => defineFields_eq_error_iff h

/-! A garden: a plan of its beds that is built whatever the order of the arguments, and a draft
with a fault in an argument, before a field whose name and type are faults too. -/

def gardenKinds : KindTable := .classify [
  ("Int", .scalar true), ("Sketch", .scalar false), ("Season", .enum), ("Plant", .object),
  ("PlantFilter", .inputObject)]

def bedPlan (args : Keyed ArgumentConfig) : Keyed FieldConfig := .ofList [
  ("plants", { type := .list (.named "Plant"), args, deprecationReason := some "Too many." }),
  ("plan", { type := .nonNull (.named "Sketch"), description := some "Seen from above." })]

def bedArgs : Keyed ArgumentConfig := .ofList [
  ("season", { type := .named "Season" }),
  ("first", { type := .named "Int", defaultValue := some (.int 10) }),
  ("filter", { type := .nonNull (.named "PlantFilter") })]

def bedArgsTurned : Keyed ArgumentConfig := .ofList [
  ("filter", { type := .nonNull (.named "PlantFilter") }),
  ("season", { type := .named "Season" }),
  ("first", { type := .named "Int", defaultValue := some (.int 10) })]

def bedDraft : Keyed FieldConfig := .ofList [
  ("plants", {
    type := .list (.named "Plant")
    args := .ofList [("first", { type := .named "Int" }), ("like", { type := .named "Sketch" })] }),
  ("bed-size", { type := .named "PlantFilter" })]

theorem garden_fields :
    (∃ fields, defineFields "Garden" gardenKinds (bedPlan bedArgs) = .ok fields ∧
      fields.keys = ["plants", "plan"] ∧
      (∃ plants, fields.get? "plants" = some plants ∧
        plants.args.map Argument.name = ["filter", "first", "season"] ∧
        plants.args.Pairwise fun argument next => argument.name < next.name) ∧
      defineFields "Garden" gardenKinds (bedPlan bedArgsTurned) = .ok fields) ∧
    FirstFault "Garden" gardenKinds (fieldItems bedDraft)
      (.argumentNotInput "Garden" "plants" "like" (.named "Sketch")) := by
  obtain ⟨fields, hfields⟩ : ∃ fields,
      defineFields "Garden" gardenKinds (bedPlan bedArgs) = .ok fields := ⟨_, rfl⟩
  have hplan := defineFields_exact "Garden" gardenKinds (bedPlan bedArgs)
  have hdraft := defineFields_exact "Garden" gardenKinds bedDraft
  have hturned : bedArgs.entries.Perm bedArgsTurned.entries := @List.perm_append_comm _ [_, _] [_]
  refine ⟨⟨fields, hfields, hplan.keys fields hfields, ?_, ?_⟩, (hdraft.refuses rfl _).mp rfl⟩
  · obtain ⟨plants, hplants, hcarried⟩ := hplan.carries fields hfields "plants" _ rfl
    refine ⟨plants, hplants, ?_, hcarried.increasing⟩
    cases hfields
    cases hplants
    decide +kernel
  · exact hplan.permutes fields hfields "plants" _ bedArgsTurned rfl hturned

end GraphSchema
