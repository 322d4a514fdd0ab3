/-
  GraphSchema.Proofs.Schema.Published — a schema and the registry it was made from.

  Once every object is valid, a union's member passes if it is registered as an object and
  can be told (`admits_iff`). The types of a schema are the registered entries, each in
  its published form (`type?_eq_some_iff`, `exists_type?`), so a reference resolves if its
  name is registered, to a type that may be used as the kind table said
  (`resolve?_of_named?`).
-/

import GraphSchema.Proofs.Schema.Possible

namespace GraphSchema

namespace Publication

variable {publication : Publication} {name : String}

/-! ## When every object is valid -/

def ObjectsValid (publication : Publication) : Prop :=
  ∀ name config, publication.registry.entries.get? name = some (.object config) →
    config.Valid (publication.registry.addedTo name) publication.kinds publication.options

theorem AllBuilt.objectsValid (h : publication.AllBuilt) : publication.ObjectsValid := by
  intro name config hentry
  obtain ⟨type, hbuilds⟩ := h name _ hentry
  cases hbuilds with
  | object _ hvalid => exact hvalid

theorem find?_objects_of_valid (hc : publication.registry.Consistent)
    (ho : publication.ObjectsValid) {config : ObjectConfig}
    (hentry : publication.registry.entries.get? name = some (.object config)) :
    publication.objects.find? (·.name == name) =
      some (config.published (publication.registry.addedTo name)) :=
  (find?_objects_eq_some_iff hc).mpr
    ⟨config, hentry, buildObject_eq_ok_iff.mpr ⟨ho name config hentry, rfl⟩⟩

theorem named?_kinds_eq_object_iff :
    publication.kinds.named? name = some .object ↔
      ∃ config, publication.registry.entries.get? name = some (.object config) := by
  rw [kinds, TypeRegistry.named?_kindTable, Option.map_eq_some_iff]
  constructor
  · intro h
    obtain ⟨entry, hentry, hkind⟩ := h
    cases entry with
    | object config => exact ⟨config, hentry⟩
    | _ => cases hkind
  · intro h
    obtain ⟨config, hentry⟩ := h
    exact ⟨_, hentry, rfl⟩

theorem named?_kinds_eq_interface_iff {resolvesType : Bool} :
    publication.kinds.named? name = some (.interface resolvesType) ↔
      ∃ config, publication.registry.entries.get? name = some (.interface config) ∧
        config.resolveType.isSome = resolvesType := by
  rw [kinds, TypeRegistry.named?_kindTable, Option.map_eq_some_iff]
  constructor
  · intro h
    obtain ⟨entry, hentry, hkind⟩ := h
    cases entry with
    | interface config =>
      cases hkind
      exact ⟨config, hentry, rfl⟩
    | _ => cases hkind
  · intro h
    obtain ⟨config, hentry, hresolves⟩ := h
    exact ⟨_, hentry, by rw [← hresolves]; rfl⟩

/-- A member passes if it is registered as an object, and the union or the object tells
values of it. -/
theorem admits_iff (hc : publication.registry.Consistent) (ho : publication.ObjectsValid)
    {config : UnionConfig} :
    config.Admits publication.objects publication.kinds name ↔
      ∃ object, publication.registry.entries.get? name = some (.object object) ∧
        (config.resolveType.isSome = true ∨ object.isTypeOf.isSome = true) := by
  unfold UnionConfig.Admits
  cases hfound : publication.objects.find? (·.name == name) with
  | none =>
    constructor
    · intro hkind
      obtain ⟨object, hobject⟩ := named?_kinds_eq_object_iff.mp hkind
      rw [find?_objects_of_valid hc ho hobject] at hfound
      cases hfound
    · intro h
      obtain ⟨object, hobject, _⟩ := h
      exact named?_kinds_eq_object_iff.mpr ⟨object, hobject⟩
  | some found =>
    obtain ⟨object, hobject, hbuild⟩ := (find?_objects_eq_some_iff hc).mp hfound
    have hfoundIs := (buildObject_eq_ok_iff.mp hbuild).2
    subst hfoundIs
    constructor
    · intro htold
      exact ⟨object, hobject, htold⟩
    · intro h
      obtain ⟨other, hother, htold⟩ := h
      cases Keyed.eq_of_get?_eq_get? hobject hother
      exact htold

end Publication

/-! ## The types of a schema -/

theorem TypeDefinition.object?_eq_some_iff {type : TypeDefinition} {object : ObjectType} :
    type.object? = some object ↔ type = .object object := by
  cases type <;> simp [object?]

namespace TypeRef

/-- A definition inside the wrappers of a reference. -/
def around (definition : TypeDefinition) : TypeRef → ResolvedType
  | named _ => .named definition
  | list item => .list (item.around definition)
  | nonNull item => .nonNull (item.around definition)

@[simp] theorem definition_around (type : TypeRef) (definition : TypeDefinition) :
    (type.around definition).definition = definition := by
  induction type with
  | named _ => rfl
  | list _ ih => exact ih
  | nonNull _ ih => exact ih

end TypeRef

namespace Schema

variable {config : SchemaConfig} {registry : TypeRegistry} {schema : Schema} {name : String}

/-- The publication a schema comes from. -/
theorem succeeds (h : ofRegistry config registry = .ok schema) :
    (Publication.mk registry config.options).Succeeds :=
  (ofRegistry_eq_ok_iff.mp h).1

theorem types_eq (h : ofRegistry config registry = .ok schema) :
    (Publication.mk registry config.options).types = schema.types :=
  (ofRegistry_eq_ok_iff.mp h).2.1

theorem type?_eq_some_iff (h : ofRegistry config registry = .ok schema) {type : TypeDefinition} :
    schema.type? name = some type ↔
      ∃ entry, registry.entries.get? name = some entry ∧
        Publication.Builds ⟨registry, config.options⟩ name entry type := by
  rw [type?, ← types_eq h]
  exact Publication.get?_types_eq_some_iff

/-- Every registered name is the name of a type. -/
theorem exists_type? (h : ofRegistry config registry = .ok schema) {entry : Registered}
    (hentry : registry.entries.get? name = some entry) :
    ∃ type, schema.type? name = some type ∧
      Publication.Builds ⟨registry, config.options⟩ name entry type := by
  obtain ⟨type, hbuilds⟩ := (succeeds h).built name entry hentry
  exact ⟨type, (type?_eq_some_iff h).mpr ⟨entry, hentry, hbuilds⟩, hbuilds⟩

theorem object?_eq_some_iff {object : ObjectType} :
    schema.object? name = some object ↔ schema.type? name = some (.object object) := by
  simp only [object?, Option.bind_eq_some_iff, TypeDefinition.object?_eq_some_iff, exists_eq_right]

theorem abstract?_eq_some_iff {type : AbstractType} :
    schema.abstract? name = some type ↔
      (∃ interface, schema.type? name = some (.interface interface) ∧ .interface interface = type) ∨
        ∃ union, schema.type? name = some (.union union) ∧ .union union = type := by
  rw [abstract?, Option.bind_eq_some_iff]
  constructor
  · intro h
    obtain ⟨found, hfound, htype⟩ := h
    cases found with
    | interface interface =>
      cases htype
      exact Or.inl ⟨interface, hfound, rfl⟩
    | union union =>
      cases htype
      exact Or.inr ⟨union, hfound, rfl⟩
    | _ => cases htype
  · intro hcases
    rcases hcases with ⟨interface, hfound, htype⟩ | ⟨union, hfound, htype⟩
    · exact ⟨_, hfound, congrArg some htype⟩
    · exact ⟨_, hfound, congrArg some htype⟩

theorem object?_published (h : ofRegistry config registry = .ok schema) {object : ObjectConfig}
    (hentry : registry.entries.get? name = some (.object object)) :
    schema.object? name = some (object.published (registry.addedTo name)) := by
  obtain ⟨type, htype, hbuilds⟩ := exists_type? h hentry
  cases hbuilds with
  | object _ _ => exact object?_eq_some_iff.mpr htype

theorem abstract?_published (h : ofRegistry config registry = .ok schema) {type : AbstractType}
    (htype : schema.abstract? name = some type) :
    (∃ interface, registry.entries.get? name = some (.interface interface) ∧
        .interface (interface.published (registry.addedTo name)
          (Publication.mk registry config.options).objects) = type) ∨
      ∃ union, registry.entries.get? name = some (.union union) ∧
        .union (union.published (Publication.mk registry config.options).objects) = type := by
  rw [abstract?, type?, ← types_eq h] at htype
  exact Publication.abstract_types_eq_some htype

/-- The objects of a schema are the objects that were built. -/
theorem object?_name_iff (hr : registry.Reachable) (h : ofRegistry config registry = .ok schema)
    {object : ObjectType} :
    schema.object? object.name = some object ↔
      object ∈ (Publication.mk registry config.options).objects := by
  rw [object?_eq_some_iff, type?, ← types_eq h,
    Publication.get?_types_eq_object_iff hr.consistent]
  exact ⟨fun hfound => hfound.1, fun hmem => ⟨hmem, rfl⟩⟩

/-- The possible types of an interface or union are the objects of the schema that the
configurations call possible. -/
theorem mem_possibleTypes_iff (hr : registry.Reachable)
    (h : ofRegistry config registry = .ok schema) {type : AbstractType}
    (htype : schema.abstract? name = some type) {object : ObjectType} :
    object ∈ type.possibleTypes ↔
      schema.object? object.name = some object ∧ registry.Possible object.name name := by
  rw [abstract?, type?, ← types_eq h] at htype
  rw [object?_name_iff hr h]
  exact Publication.mem_possibleTypes_iff hr.consistent htype

/-! ## References -/

/-- A reference resolves to its wrappers around the definition of its name. -/
theorem resolve?_eq (schema : Schema) (type : TypeRef) :
    schema.resolve? type = (schema.type? type.innermostName).map type.around := by
  induction type with
  | named name => rfl
  | list item ih =>
    rw [resolve?, ih, Option.map_map]
    rfl
  | nonNull item ih =>
    rw [resolve?, ih, Option.map_map]
    rfl

theorem resolve?_of_type? {type : TypeRef} {definition : TypeDefinition}
    (h : schema.type? type.innermostName = some definition) :
    ∃ resolved, schema.resolve? type = some resolved ∧ resolved.definition = definition :=
  ⟨type.around definition, by rw [resolve?_eq, h]; rfl, type.definition_around definition⟩

/-- A reference whose name the kind table knows resolves to a type of that kind. -/
theorem resolve?_of_named? (h : ofRegistry config registry = .ok schema) {type : TypeRef}
    {kind : NamedKind} (hkind : registry.kindTable.named? type.innermostName = some kind) :
    ∃ resolved, schema.resolve? type = some resolved ∧ resolved.isOutput = kind.isOutput ∧
      resolved.isInput = kind.isInput := by
  rw [TypeRegistry.named?_kindTable, Option.map_eq_some_iff] at hkind
  obtain ⟨entry, hentry, hkind⟩ := hkind
  subst hkind
  obtain ⟨definition, htype, hbuilds⟩ := exists_type? h hentry
  obtain ⟨resolved, hresolved, hdefinition⟩ := resolve?_of_type? htype
  subst hdefinition
  exact ⟨resolved, hresolved, resolved.isOutput_eq.trans hbuilds.isOutput_eq,
    resolved.isInput_eq.trans hbuilds.isInput_eq⟩

theorem resolve?_output (h : ofRegistry config registry = .ok schema) {type : TypeRef}
    (haccepts : registry.kindTable.acceptsOutput type = .ok true) :
    ∃ resolved, schema.resolve? type = some resolved ∧ resolved.isOutput = true := by
  obtain ⟨kind, hkind, houtput⟩ := KindTable.acceptsOutput_eq_ok_iff.mp haccepts
  obtain ⟨resolved, hresolved, hsame, _⟩ := resolve?_of_named? h hkind
  exact ⟨resolved, hresolved, hsame.trans houtput⟩

theorem resolve?_input (h : ofRegistry config registry = .ok schema) {type : TypeRef}
    (haccepts : registry.kindTable.acceptsInput type = .ok true) :
    ∃ resolved, schema.resolve? type = some resolved ∧ resolved.isInput = true := by
  obtain ⟨kind, hkind, hinput⟩ := KindTable.acceptsInput_eq_ok_iff.mp haccepts
  obtain ⟨resolved, hresolved, _, hsame⟩ := resolve?_of_named? h hkind
  exact ⟨resolved, hresolved, hsame.trans hinput⟩

end Schema

/-! ## A catalogue

One type of each kind beside the built-in scalars, with a field added to an object that
has none of its own, a member and an interface mentioned twice, an input field that is
left out, and a call that is refused. -/

def catalogue : TypeRegistry :=
  TypeRegistry.standard.run [
    .interface {
      name := "Work"
      fields := .now (.ofList [
        ("title", { type := .nonNull (.named "String") }),
        ("related", {
          type := .list (.named "Item")
          args := .ofList [("first", { type := .named "Int", defaultValue := some (.int 10) })] })])
      resolveType := some fun _ _ => some "Book" },
    .object {
      name := "Book"
      fields := .later fun _ => .ofList [
        ("title", { type := .nonNull (.named "String") }),
        ("related", {
          type := .nonNull (.list (.nonNull (.named "Book")))
          args := .ofList [
            ("sort", { type := .named "Order" }),
            ("first", { type := .named "Int" })] })]
      interfaces := .now ["Work", "Work"] },
    .union { name := "Item", types := ["Book", "Map", "Book"], resolveType := some fun _ _ => none },
    .enum { name := "Order", values := .ofList [("TITLE", {}), ("AUTHOR", {})] },
    .inputObject {
      name := "Filter"
      fields := .now (.ofList [
        ("title", { type := .named "String" }),
        ("bad-name", { type := .named "String" }),
        ("work", { type := .named "Work" })]) },
    .object { name := "Map", fields := .now (.ofList [("scale", { type := .named "Int" })]) },
    .object { name := "Query" },
    .addField "Query" "works" {
      type := .list (.nonNull (.named "Work"))
      args := .ofList [("filter", { type := .nonNull (.named "Filter") })] },
    .addField "Missing" "works" { type := .named "Work" }]

theorem catalogue_reachable : catalogue.Reachable := TypeRegistry.Reachable.standard.run _

/-- The fields of a composite type, with their types. -/
def TypeDefinition.fieldTypes? (type : TypeDefinition) : Option (List (String × TypeRef)) :=
  (type.composite?.bind CompositeType.fields?).map fun fields =>
    fields.entries.map fun field => (field.1, field.2.type)

/-- The names of the possible types of an abstract type, in order. -/
def TypeDefinition.possibleNames? (type : TypeDefinition) : Option (List String) :=
  type.abstract?.map fun abstract => abstract.possibleTypes.map ObjectType.name

/-- A schema of which a check of one of its types was evaluated. -/
theorem Schema.exists_of_check {config : SchemaConfig} {registry : TypeRegistry} {name : String}
    {check : TypeDefinition → Bool}
    (h : ((ofRegistry config registry).toOption.any fun schema =>
      (schema.type? name).any check) = true) :
    ∃ schema type, ofRegistry config registry = .ok schema ∧ schema.type? name = some type ∧
      check type = true := by
  obtain ⟨schema, hschema, htypes⟩ := (Option.any_eq_true _ _).mp h
  obtain ⟨type, htype, hcheck⟩ := (Option.any_eq_true _ _).mp htypes
  exact ⟨schema, type, toOption_eq_some_iff.mp hschema, htype, hcheck⟩

theorem catalogue_published : ∃ schema, Schema.ofRegistry {} catalogue = .ok schema :=
  exists_of_isOk (by decide +kernel)

end GraphSchema
