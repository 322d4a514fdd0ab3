/-
  GraphSchema.Proofs.Schema.References — which references a schema is made of.

  A reference is used as the type of a field, of an argument or of an input field. What a
  schema uses is what its registry uses, unchanged, less the input fields that were left
  out (`refers_iff`): building looks a reference up by the name under its markers and
  never at the markers.

  `TypeRef.toNonNull` refuses to mark a reference non-null twice. References it made are
  exactly the checked ones (`made_iff_checked`), but a host may also write a reference
  down as it is, and no later step repeats the check: a published schema is free of
  doubled markers exactly if every reference its registry uses could have been made with
  the check (`doubled_nonNull_iff`). One that could not is published with the rest
  (`thimble_doubled`).
-/

import GraphSchema.Proofs.Schema.Closed

namespace GraphSchema

/-! ## References made with the check -/

namespace TypeRef

/-- References put together from names, lists and the checked non-null marker. -/
inductive Made : TypeRef → Prop
  | named (name : String) : Made (.named name)
  | list {item : TypeRef} : Made item → Made (.list item)
  | nonNull {item type : TypeRef} : Made item → item.toNonNull = .ok type → Made type

theorem toNonNull_eq_ok_iff {item type : TypeRef} :
    item.toNonNull = .ok type ↔ item.isNonNull = false ∧ .nonNull item = type := by
  unfold toNonNull
  by_cases h : item.isNonNull = true
  · simp [h]
  · simp [h]

theorem Made.checked {type : TypeRef} (h : type.Made) : type.Checked := by
  induction h with
  | named name => trivial
  | list _ ih => exact ih
  | nonNull _ hmarked ih =>
    obtain ⟨hnullable, htype⟩ := toNonNull_eq_ok_iff.mp hmarked
    subst htype
    exact ⟨hnullable, ih⟩

theorem Checked.made {type : TypeRef} (h : type.Checked) : type.Made := by
  induction type with
  | named name => exact .named name
  | list item ih => exact .list (ih h)
  | nonNull item ih =>
    obtain ⟨hnullable, hitem⟩ := h
    exact .nonNull (ih hitem) (toNonNull_eq_ok_iff.mpr ⟨hnullable, rfl⟩)

theorem made_iff_checked {type : TypeRef} : type.Made ↔ type.Checked := ⟨Made.checked, Checked.made⟩

end TypeRef

/-! ## References in use -/

/-- The fields an object or interface is configured with, added ones included. -/
inductive TypeRegistry.Configures (registry : TypeRegistry) (name : String) :
    Keyed FieldConfig → Prop
  | object (config : ObjectConfig) : registry.entries.get? name = some (.object config) →
      Configures registry name (config.fields.resolve.merge (registry.addedTo name))
  | interface (config : InterfaceConfig) : registry.entries.get? name = some (.interface config) →
      Configures registry name (config.fields.resolve.merge (registry.addedTo name))

/-- The references of a registry's types, input fields that will be left out apart. -/
inductive TypeRegistry.Refers (registry : TypeRegistry) : TypeRef → Prop
  | field {name key : String} {configs : Keyed FieldConfig} {field : FieldConfig} :
      registry.Configures name configs → configs.get? key = some field →
      Refers registry field.type
  | argument {name key argument : String} {configs : Keyed FieldConfig} {field : FieldConfig}
      {config : ArgumentConfig} :
      registry.Configures name configs → configs.get? key = some field →
      field.args.get? argument = some config → Refers registry config.type
  | inputField {name key : String} {config : InputObjectConfig} {field : InputFieldConfig} :
      registry.entries.get? name = some (.inputObject config) →
      config.fields.resolve.get? key = some field → field.Valid registry.kindTable key →
      Refers registry field.type

namespace Schema

/-- The references of a schema's types. -/
inductive Refers (schema : Schema) : TypeRef → Prop
  | field {name key : String} {fields : Keyed FieldDefinition} {field : FieldDefinition} :
      schema.Declares name fields → fields.get? key = some field → Refers schema field.type
  | argument {name key : String} {fields : Keyed FieldDefinition} {field : FieldDefinition}
      {argument : Argument} :
      schema.Declares name fields → fields.get? key = some field → argument ∈ field.args →
      Refers schema argument.type
  | inputField {name key : String} {input : InputObjectType} {field : InputField} :
      schema.type? name = some (.inputObject input) → input.fields.get? key = some field →
      Refers schema field.type

variable {config : SchemaConfig} {registry : TypeRegistry} {schema : Schema}

theorem declares_iff (h : ofRegistry config registry = .ok schema) {name : String}
    {fields : Keyed FieldDefinition} :
    schema.Declares name fields ↔
      ∃ configs, registry.Configures name configs ∧ publishedFields configs = fields := by
  constructor
  · intro hd
    cases hd with
    | object type htype =>
      obtain ⟨entry, hentry, hbuilds⟩ := (type?_eq_some_iff h).mp htype
      cases hbuilds with
      | object object _ => exact ⟨_, .object object hentry, rfl⟩
    | interface type htype =>
      obtain ⟨entry, hentry, hbuilds⟩ := (type?_eq_some_iff h).mp htype
      cases hbuilds with
      | interface interface _ => exact ⟨_, .interface interface hentry, rfl⟩
  · intro hconfigures
    obtain ⟨configs, hconfigs, hfields⟩ := hconfigures
    subst hfields
    cases hconfigs with
    | object object hentry =>
      obtain ⟨type, htype, hbuilds⟩ := exists_type? h hentry
      cases hbuilds with
      | object _ _ => exact .object _ htype
    | interface interface hentry =>
      obtain ⟨type, htype, hbuilds⟩ := exists_type? h hentry
      cases hbuilds with
      | interface _ _ => exact .interface _ htype

theorem Refers.configured (h : ofRegistry config registry = .ok schema) {reference : TypeRef}
    (hr : schema.Refers reference) : registry.Refers reference := by
  cases hr with
  | field hd hfield =>
    obtain ⟨configs, hconfigs, hfields⟩ := (declares_iff h).mp hd
    subst hfields
    obtain ⟨fieldConfig, hconfig, hpublished⟩ := get?_publishedFields_eq_some_iff.mp hfield
    subst hpublished
    exact .field hconfigs hconfig
  | argument hd hfield hargument =>
    obtain ⟨configs, hconfigs, hfields⟩ := (declares_iff h).mp hd
    subst hfields
    obtain ⟨fieldConfig, hconfig, hpublished⟩ := get?_publishedFields_eq_some_iff.mp hfield
    subst hpublished
    obtain ⟨key, argumentConfig, hfound, hpublished⟩ :=
      FieldConfig.mem_args_published_iff.mp hargument
    subst hpublished
    exact .argument hconfigs hconfig hfound
  | inputField htype hfield =>
    obtain ⟨entry, hentry, hbuilds⟩ := (type?_eq_some_iff h).mp htype
    cases hbuilds with
    | inputObject input _ =>
      obtain ⟨fieldConfig, hconfig, hvalid, hpublished⟩ :=
        InputObjectConfig.get?_published_fields.mp hfield
      subst hpublished
      exact .inputField hentry hconfig hvalid

theorem refers_of_configured (h : ofRegistry config registry = .ok schema) {reference : TypeRef}
    (hr : registry.Refers reference) : schema.Refers reference := by
  cases hr with
  | field hconfigs hconfig =>
    have hd := (declares_iff h).mpr ⟨_, hconfigs, rfl⟩
    exact .field hd (get?_publishedFields_eq_some_iff.mpr ⟨_, hconfig, rfl⟩)
  | argument hconfigs hconfig hfound =>
    have hd := (declares_iff h).mpr ⟨_, hconfigs, rfl⟩
    have hfield := get?_publishedFields_eq_some_iff.mpr ⟨_, hconfig, rfl⟩
    exact .argument hd hfield (FieldConfig.mem_args_published_iff.mpr ⟨_, _, hfound, rfl⟩)
  | inputField hentry hconfig hvalid =>
    obtain ⟨type, htype, hbuilds⟩ := exists_type? h hentry
    cases hbuilds with
    | inputObject input _ =>
      exact .inputField htype
        (InputObjectConfig.get?_published_fields.mpr ⟨_, hconfig, hvalid, rfl⟩)

/-- Publication neither drops a reference in use nor changes one. -/
theorem refers_iff (h : ofRegistry config registry = .ok schema) {reference : TypeRef} :
    schema.Refers reference ↔ registry.Refers reference :=
  ⟨Refers.configured h, refers_of_configured h⟩

/-! ## Doubled markers -/

/-- A published schema uses the references of its registry as they are, so it is free of
doubled non-null markers exactly if each of these could have been made with the check. -/
theorem doubled_nonNull_iff (h : ofRegistry config registry = .ok schema) :
    (∀ reference, schema.Refers reference ↔ registry.Refers reference) ∧
      ((∀ reference, schema.Refers reference → reference.Checked) ↔
        ∀ reference, registry.Refers reference → reference.Made) := by
  refine ⟨fun _ => refers_iff h, ?_⟩
  constructor
  · intro hchecked reference hrefers
    exact TypeRef.made_iff_checked.mpr (hchecked reference ((refers_iff h).mpr hrefers))
  · intro hmade reference hrefers
    exact TypeRef.made_iff_checked.mp (hmade reference ((refers_iff h).mp hrefers))

theorem catalogue_doubled_nonNull_iff :
    ∃ schema, ofRegistry {} catalogue = .ok schema ∧
      (∀ reference, schema.Refers reference ↔ catalogue.Refers reference) ∧
      ((∀ reference, schema.Refers reference → reference.Checked) ↔
        ∀ reference, catalogue.Refers reference → reference.Made) := by
  obtain ⟨schema, h⟩ := catalogue_published
  exact ⟨schema, h, doubled_nonNull_iff h⟩

/-- A query root whose one field is non-null twice over, written down without the check. -/
def thimble : TypeRegistry :=
  TypeRegistry.standard.run [
    .object {
      name := "Query"
      fields := .now (.ofList [("id", { type := .nonNull (.nonNull (.named "String")) })]) }]

theorem thimble_published : ∃ schema, ofRegistry {} thimble = .ok schema :=
  exists_of_isOk (by decide +kernel)

theorem thimble_refers : thimble.Refers (.nonNull (.nonNull (.named "String"))) := by
  have hquery : ∃ configs, thimble.Configures "Query" configs ∧
      configs.get? "id" = some { type := .nonNull (.nonNull (.named "String")) } :=
    ⟨_, .object _ rfl, rfl⟩
  obtain ⟨configs, hconfigs, hid⟩ := hquery
  exact .field hconfigs hid

/-- The doubled marker that `TypeRef.toNonNull` refuses is published. -/
theorem thimble_doubled :
    (TypeRef.nonNull (.named "String")).toNonNull =
        .error (.nonNullOfNonNull (.nonNull (.named "String"))) ∧
      ∃ schema, ofRegistry {} thimble = .ok schema ∧
        schema.Refers (.nonNull (.nonNull (.named "String"))) := by
  obtain ⟨schema, h⟩ := thimble_published
  exact ⟨rfl, schema, h, (refers_iff h).mpr thimble_refers⟩

end Schema

end GraphSchema
