/-
  GraphSchema.Proofs.Schema.Closed — nothing in a published schema leads out of it.

  Builders check references against the kind table, before any type exists, each with
  rules of its own; a union leaves out members that failed. What is published is closed
  all the same (`published_closed`): fields have output types and arguments and input
  fields have input types of the schema, under valid names; interfaces, members and
  implementations are types of the schema itself; no type is empty. And an account of a
  field is made exactly for the fields that objects and interfaces have.
-/

import GraphSchema.Proofs.Schema.Published

namespace GraphSchema

namespace Schema

/-- The fields of an object or interface of the schema. -/
inductive Declares (schema : Schema) (name : String) : Keyed FieldDefinition → Prop
  | object (type : ObjectType) :
      schema.type? name = some (.object type) → Declares schema name type.fields
  | interface (type : InterfaceType) :
      schema.type? name = some (.interface type) → Declares schema name type.fields

/-- A field stands under its own valid name, and its references resolve: its type to an
output type and those of its arguments to input types. -/
structure ClosedField (schema : Schema) (key : String) (field : FieldDefinition) : Prop where
  name : field.name = key ∧ isValidName key = true
  type : ∃ type, schema.resolve? field.type = some type ∧ type.isOutput = true
  args : ∀ argument ∈ field.args, isValidName argument.name = true ∧
    ∃ type, schema.resolve? argument.type = some type ∧ type.isInput = true

structure ClosedInputField (schema : Schema) (key : String) (field : InputField) : Prop where
  name : field.name = key ∧ isValidName key = true
  type : ∃ type, schema.resolve? field.type = some type ∧ type.isInput = true

structure Closed (schema : Schema) : Prop where
  fields : ∀ name fields, schema.Declares name fields → fields.isEmpty = false ∧
    ∀ key field, fields.get? key = some field → schema.ClosedField key field
  inputFields : ∀ name input, schema.type? name = some (.inputObject input) →
    ∀ key field, input.fields.get? key = some field → schema.ClosedInputField key field
  interfaces : ∀ name object, schema.object? name = some object →
    ∀ interface ∈ object.interfaces, ∃ type, schema.type? interface = some (.interface type)
  /-- Members and implementations are the objects of their names. -/
  possibleTypes : ∀ name type, schema.abstract? name = some type →
    ∀ object ∈ type.possibleTypes, schema.object? object.name = some object
  members : ∀ name union, schema.type? name = some (.union union) → union.types ≠ []
  values : ∀ name enum, schema.type? name = some (.enum enum) → enum.values ≠ [] ∧
    ∀ value ∈ enum.values, isValidName value.name = true
  resolveInfo : ∀ parent field, (schema.resolveInfo? parent field).isSome = true ↔
    ∃ fields, schema.Declares parent fields ∧ (fields.get? field).isSome = true

variable {config : SchemaConfig} {registry : TypeRegistry} {schema : Schema}

/-! ## Fields -/

/-- What an object or interface declares is the published form of a valid field map. -/
theorem Declares.configured (h : ofRegistry config registry = .ok schema) {name : String}
    {fields : Keyed FieldDefinition} (hd : schema.Declares name fields) :
    ∃ configs, ValidFields registry.kindTable configs ∧ publishedFields configs = fields := by
  cases hd with
  | object type htype =>
    obtain ⟨entry, _, hbuilds⟩ := (type?_eq_some_iff h).mp htype
    cases hbuilds with
    | object object hvalid => exact ⟨_, hvalid.fields, rfl⟩
  | interface type htype =>
    obtain ⟨entry, _, hbuilds⟩ := (type?_eq_some_iff h).mp htype
    cases hbuilds with
    | interface interface hvalid => exact ⟨_, hvalid, rfl⟩

theorem closedField_of_valid (h : ofRegistry config registry = .ok schema) {key : String}
    {field : FieldConfig} (hvalid : field.Valid registry.kindTable key) :
    schema.ClosedField key (field.published key) := by
  refine ⟨⟨rfl, hvalid.name⟩, resolve?_output h hvalid.type, ?_⟩
  intro argument hargument
  obtain ⟨name, argumentConfig, hconfig, hpublished⟩ :=
    FieldConfig.mem_args_published_iff.mp hargument
  subst hpublished
  have hargumentValid := hvalid.args name argumentConfig hconfig
  exact ⟨hargumentValid.name, resolve?_input h hargumentValid.type⟩

theorem fields_closed (h : ofRegistry config registry = .ok schema) {name : String}
    {fields : Keyed FieldDefinition} (hd : schema.Declares name fields) :
    fields.isEmpty = false ∧
      ∀ key field, fields.get? key = some field → schema.ClosedField key field := by
  obtain ⟨configs, hvalid, hfields⟩ := hd.configured h
  subst hfields
  refine ⟨(Keyed.isEmpty_mapValues _ configs).trans hvalid.nonempty, ?_⟩
  intro key field hfield
  obtain ⟨fieldConfig, hconfig, hpublished⟩ := get?_publishedFields_eq_some_iff.mp hfield
  subst hpublished
  exact closedField_of_valid h (hvalid.valid key fieldConfig hconfig)

theorem inputFields_closed (h : ofRegistry config registry = .ok schema) {name : String}
    {input : InputObjectType} (hinput : schema.type? name = some (.inputObject input))
    {key : String} {field : InputField} (hfield : input.fields.get? key = some field) :
    schema.ClosedInputField key field := by
  obtain ⟨entry, _, hbuilds⟩ := (type?_eq_some_iff h).mp hinput
  cases hbuilds with
  | inputObject inputConfig _ =>
    obtain ⟨fieldConfig, _, hvalid, hpublished⟩ :=
      InputObjectConfig.get?_published_fields.mp hfield
    subst hpublished
    exact ⟨⟨rfl, hvalid.name⟩, resolve?_input h hvalid.type⟩

/-! ## Objects of other types -/

theorem interfaces_known (h : ofRegistry config registry = .ok schema) {name : String}
    {object : ObjectType} (hobject : schema.object? name = some object) :
    ∀ interface ∈ object.interfaces, ∃ type, schema.type? interface = some (.interface type) := by
  intro interface hinterface
  obtain ⟨entry, _, hbuilds⟩ := (type?_eq_some_iff h).mp (object?_eq_some_iff.mp hobject)
  cases hbuilds with
  | object objectConfig hvalid =>
    have hlisted := ObjectConfig.mem_distinct_iff.mp hinterface
    obtain ⟨resolvesType, hkind, _⟩ :=
      ObjectConfig.checkInterface_eq_ok_iff.mp (hvalid.interfaces interface hlisted)
    obtain ⟨interfaceConfig, hentry, _⟩ := Publication.named?_kinds_eq_interface_iff.mp hkind
    obtain ⟨type, htype, hbuildsInterface⟩ := exists_type? h hentry
    cases hbuildsInterface with
    | interface _ _ => exact ⟨_, htype⟩

/-- A union has a member: its configuration names one, and no registered object failed. -/
theorem members_nonempty (hr : registry.Reachable) (h : ofRegistry config registry = .ok schema)
    {name : String} {union : UnionType} (hunion : schema.type? name = some (.union union)) :
    union.types ≠ [] := by
  obtain ⟨entry, hentry, hbuilds⟩ := (type?_eq_some_iff h).mp hunion
  cases hbuilds with
  | union unionConfig hvalid =>
    have ho := (succeeds h).built.objectsValid
    obtain ⟨first, hfirst⟩ := List.exists_mem_of_ne_nil _ (hr.consistent.checked name _ hentry)
    obtain ⟨object, hobject, _⟩ :=
      (Publication.admits_iff hr.consistent ho).mp (hvalid.members first hfirst)
    have hfound := Publication.find?_objects_of_valid hr.consistent ho hobject
    have hname : object.name = first := (hr.consistent.named first _ hobject).1
    have hmember : object.published (registry.addedTo first) ∈
        UnionConfig.memberObjects (Publication.mk registry config.options).objects
          unionConfig.types :=
      UnionConfig.mem_memberObjects_iff.mpr ⟨hname.symm ▸ hfirst, hname.symm ▸ hfound⟩
    exact List.ne_nil_of_mem hmember

theorem values_checked (hr : registry.Reachable) (h : ofRegistry config registry = .ok schema)
    {name : String} {enum : EnumType} (henum : schema.type? name = some (.enum enum)) :
    enum.values ≠ [] ∧ ∀ value ∈ enum.values, isValidName value.name = true := by
  obtain ⟨entry, hentry, hbuilds⟩ := (type?_eq_some_iff h).mp henum
  cases hbuilds with
  | enum _ => exact hr.consistent.checked name _ hentry

/-! ## Accounts of fields -/

theorem composite?_field?_iff {parent field : String} {definition : FieldDefinition} :
    (∃ type, schema.composite? parent = some type ∧ type.field? field = some definition) ↔
      ∃ fields, schema.Declares parent fields ∧ fields.get? field = some definition := by
  constructor
  · intro h
    obtain ⟨type, htype, hfield⟩ := h
    obtain ⟨found, hfound, hcomposite⟩ := Option.bind_eq_some_iff.mp htype
    cases found with
    | object object =>
      cases hcomposite
      exact ⟨object.fields, .object object hfound, hfield⟩
    | interface interface =>
      cases hcomposite
      exact ⟨interface.fields, .interface interface hfound, hfield⟩
    | union union =>
      cases hcomposite
      cases hfield
    | _ => cases hcomposite
  · intro h
    obtain ⟨fields, hd, hfield⟩ := h
    cases hd with
    | object object hfound =>
      exact ⟨.object object, by rw [composite?, hfound]; rfl, hfield⟩
    | interface interface hfound =>
      exact ⟨.interface interface, by rw [composite?, hfound]; rfl, hfield⟩

theorem resolveInfo?_isSome_iff {parent field : String} :
    (schema.resolveInfo? parent field).isSome = true ↔
      ∃ fields definition, schema.Declares parent fields ∧ fields.get? field = some definition ∧
        (schema.resolve? definition.type).isSome = true := by
  have hsplit : (schema.resolveInfo? parent field).isSome = true ↔
      ∃ definition, (∃ type, schema.composite? parent = some type ∧
        type.field? field = some definition) ∧ (schema.resolve? definition.type).isSome = true := by
    simp only [resolveInfo?, Option.isSome_iff_exists, bind, Option.bind_eq_some_iff]
    constructor
    · intro h
      obtain ⟨_, type, htype, definition, hfield, resolved, hresolved, _⟩ := h
      exact ⟨definition, ⟨type, htype, hfield⟩, resolved, hresolved⟩
    · intro h
      obtain ⟨definition, ⟨type, htype, hfield⟩, resolved, hresolved⟩ := h
      exact ⟨_, type, htype, definition, hfield, resolved, hresolved, rfl⟩
  simp only [hsplit, composite?_field?_iff]
  constructor
  · intro h
    obtain ⟨definition, ⟨fields, hd, hfield⟩, hresolved⟩ := h
    exact ⟨fields, definition, hd, hfield, hresolved⟩
  · intro h
    obtain ⟨fields, definition, hd, hfield, hresolved⟩ := h
    exact ⟨definition, ⟨fields, hd, hfield⟩, hresolved⟩

/-! ## Every published schema -/

/-- A published schema is closed and well typed. -/
theorem published_closed (hr : registry.Reachable) (h : ofRegistry config registry = .ok schema) :
    schema.Closed where
  fields := fun _ _ hd => fields_closed h hd
  inputFields := fun _ _ hinput _ _ hfield => inputFields_closed h hinput hfield
  interfaces := fun _ _ hobject => interfaces_known h hobject
  possibleTypes := fun _ _ htype _ hobject => ((mem_possibleTypes_iff hr h htype).mp hobject).1
  members := fun _ _ hunion => members_nonempty hr h hunion
  values := fun _ _ henum => values_checked hr h henum
  resolveInfo := by
    intro parent field
    rw [resolveInfo?_isSome_iff]
    constructor
    · intro h
      obtain ⟨fields, definition, hd, hfield, _⟩ := h
      exact ⟨fields, hd, by rw [hfield]; rfl⟩
    · intro h
      obtain ⟨fields, hd, hsome⟩ := h
      obtain ⟨definition, hfield⟩ := Option.isSome_iff_exists.mp hsome
      obtain ⟨type, hresolved, _⟩ := ((fields_closed h hd).2 field definition hfield).type
      exact ⟨fields, definition, hd, hfield, by rw [hresolved]; rfl⟩

theorem catalogue_closed :
    catalogue.Reachable ∧ ∃ schema, ofRegistry {} catalogue = .ok schema ∧ schema.Closed := by
  obtain ⟨schema, h⟩ := catalogue_published
  exact ⟨catalogue_reachable, schema, h, published_closed catalogue_reachable h⟩

end Schema

end GraphSchema
