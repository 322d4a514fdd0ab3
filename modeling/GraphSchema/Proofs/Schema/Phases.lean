/-
  GraphSchema.Proofs.Schema.Phases — what the phases of publication leave.

  The kind table knows exactly the registered names (`named?_kindTable`). An object that
  was built is found under its name among the objects (`find?_objects_eq_some_iff`), and a
  type that was built is found under its name among the types, as the published form of
  its configuration (`get?_types_eq_some_iff`). Publication succeeds if every entry can be
  built and every implementation conforms (`publish_eq_ok_iff`), and a schema is what is
  published together with root objects (`ofRegistry_eq_ok_iff`).
-/

import GraphSchema.Schema.Basic
import GraphSchema.Proofs.Registry.Reachable

namespace GraphSchema

theorem TypeRegistry.named?_kindTable (registry : TypeRegistry) (name : String) :
    registry.kindTable.named? name = (registry.entries.get? name).map Registered.namedKind := by
  have distinct : ((registry.entries.entries.map fun entry =>
      (entry.1, entry.2.namedKind)).map Prod.fst).Nodup := by
    simpa [Function.comp_def] using registry.entries.keys_nodup
  rw [kindTable, KindTable.named?_classify distinct]
  exact Keyed.lookup_map_value (fun _ => Registered.namedKind) name registry.entries.entries

namespace Publication

variable {publication : Publication} {name : String}

/-! ## Objects -/

theorem mem_objects_iff {object : ObjectType} :
    object ∈ publication.objects ↔
      ∃ name config, publication.registry.entries.get? name = some (.object config) ∧
        publication.buildObject name config = .ok object := by
  simp only [objects, List.mem_filterMap, Keyed.get?_eq_some_iff]
  constructor
  · intro h
    obtain ⟨⟨name, entry⟩, hentry, h⟩ := h
    split at h
    · rename_i other config heq
      cases heq
      exact ⟨name, config, hentry, toOption_eq_some_iff.mp h⟩
    · cases h
  · intro h
    obtain ⟨name, config, hentry, h⟩ := h
    exact ⟨(name, .object config), hentry, toOption_eq_some_iff.mpr h⟩

theorem buildObject_eq_ok_iff {config : ObjectConfig} {object : ObjectType} :
    publication.buildObject name config = .ok object ↔
      config.Valid (publication.registry.addedTo name) publication.kinds publication.options ∧
        config.published (publication.registry.addedTo name) = object :=
  ObjectConfig.define_eq_ok_iff

theorem buildObject_name (hc : publication.registry.Consistent) {config : ObjectConfig}
    {object : ObjectType} (hentry : publication.registry.entries.get? name = some (.object config))
    (h : publication.buildObject name config = .ok object) : object.name = name := by
  rw [← (buildObject_eq_ok_iff.mp h).2]
  exact (hc.named name _ hentry).1

theorem find?_objects_eq_some_iff (hc : publication.registry.Consistent) {object : ObjectType} :
    publication.objects.find? (·.name == name) = some object ↔
      ∃ config, publication.registry.entries.get? name = some (.object config) ∧
        publication.buildObject name config = .ok object := by
  constructor
  · intro h
    have hname : object.name = name := by simpa using List.find?_some h
    obtain ⟨key, config, hentry, hbuild⟩ := mem_objects_iff.mp (List.mem_of_find?_eq_some h)
    have hkey : key = name := (buildObject_name hc hentry hbuild).symm.trans hname
    subst hkey
    exact ⟨config, hentry, hbuild⟩
  · intro h
    obtain ⟨config, hentry, hbuild⟩ := h
    have hmem : object ∈ publication.objects := mem_objects_iff.mpr ⟨name, config, hentry, hbuild⟩
    have hname := buildObject_name hc hentry hbuild
    have hsome : (publication.objects.find? (·.name == name)).isSome = true :=
      List.find?_isSome.mpr ⟨object, hmem, by simpa using hname⟩
    obtain ⟨found, hfound⟩ := Option.isSome_iff_exists.mp hsome
    -- What is found has the same name, so it was built from the same entry.
    have hfoundName : found.name = name := by simpa using List.find?_some hfound
    obtain ⟨key, other, hother, hbuildOther⟩ :=
      mem_objects_iff.mp (List.mem_of_find?_eq_some hfound)
    have hkey : key = name := (buildObject_name hc hother hbuildOther).symm.trans hfoundName
    subst hkey
    cases Keyed.eq_of_get?_eq_get? hentry hother
    rw [hbuild] at hbuildOther
    cases hbuildOther
    exact hfound

/-- Objects are told apart by their names. -/
theorem nodup_name_objects (hc : publication.registry.Consistent) :
    (publication.objects.map ObjectType.name).Nodup := by
  refine Keyed.nodup_map_filterMap fun named hnamed object hobject => ?_
  obtain ⟨name, entry⟩ := named
  cases entry with
  | object config =>
    exact buildObject_name hc (Keyed.get?_eq_some_iff.mpr hnamed) (toOption_eq_some_iff.mp hobject)
  | _ => cases hobject

/-! ## Types -/

/-- The entries that can be built under a name, with the types they are built to. -/
inductive Builds (publication : Publication) (name : String) : Registered → TypeDefinition → Prop
  | scalar (type : ScalarType) : Builds publication name (.scalar type) (.scalar type)
  | enum (type : EnumType) : Builds publication name (.enum type) (.enum type)
  | object (config : ObjectConfig) :
      config.Valid (publication.registry.addedTo name) publication.kinds publication.options →
      Builds publication name (.object config)
        (.object (config.published (publication.registry.addedTo name)))
  | interface (config : InterfaceConfig) :
      ValidFields publication.kinds
        (config.fields.resolve.merge (publication.registry.addedTo name)) →
      Builds publication name (.interface config)
        (.interface (config.published (publication.registry.addedTo name) publication.objects))
  | union (config : UnionConfig) : config.Valid publication.objects publication.kinds →
      Builds publication name (.union config) (.union (config.published publication.objects))
  | inputObject (config : InputObjectConfig) : config.fields.resolve.isEmpty = false →
      Builds publication name (.inputObject config)
        (.inputObject (config.published publication.kinds))

theorem builds_of_build {entry : Registered} {type : TypeDefinition}
    (h : publication.build name entry = .ok type) : Builds publication name entry type := by
  cases entry with
  | scalar scalar =>
    cases h
    exact .scalar scalar
  | enum enum =>
    cases h
    exact .enum enum
  | object config =>
    obtain ⟨object, hobject, htype⟩ := map_eq_ok_iff.mp h
    obtain ⟨hvalid, hpublished⟩ := buildObject_eq_ok_iff.mp hobject
    subst hpublished htype
    exact .object config hvalid
  | interface config =>
    obtain ⟨interface, hinterface, htype⟩ := map_eq_ok_iff.mp h
    obtain ⟨hvalid, hpublished⟩ := InterfaceConfig.define_eq_ok_iff.mp hinterface
    subst hpublished htype
    exact .interface config hvalid
  | union config =>
    obtain ⟨union, hunion, htype⟩ := map_eq_ok_iff.mp h
    obtain ⟨hvalid, hpublished⟩ := UnionConfig.define_eq_ok_iff.mp hunion
    subst hpublished htype
    exact .union config hvalid
  | inputObject config =>
    obtain ⟨input, hinput, htype⟩ := map_eq_ok_iff.mp h
    obtain ⟨hvalid, hpublished⟩ := InputObjectConfig.define_eq_ok_iff.mp hinput
    subst hpublished htype
    exact .inputObject config hvalid

theorem build_of_builds {entry : Registered} {type : TypeDefinition}
    (h : Builds publication name entry type) : publication.build name entry = .ok type := by
  cases h with
  | scalar scalar => rfl
  | enum enum => rfl
  | object config hvalid =>
    exact map_eq_ok_iff.mpr ⟨_, buildObject_eq_ok_iff.mpr ⟨hvalid, rfl⟩, rfl⟩
  | interface config hvalid =>
    exact map_eq_ok_iff.mpr ⟨_, InterfaceConfig.define_eq_ok_iff.mpr ⟨hvalid, rfl⟩, rfl⟩
  | union config hvalid =>
    exact map_eq_ok_iff.mpr ⟨_, UnionConfig.define_eq_ok_iff.mpr ⟨hvalid, rfl⟩, rfl⟩
  | inputObject config hvalid =>
    exact map_eq_ok_iff.mpr ⟨_, InputObjectConfig.define_eq_ok_iff.mpr ⟨hvalid, rfl⟩, rfl⟩

theorem build_eq_ok_iff {entry : Registered} {type : TypeDefinition} :
    publication.build name entry = .ok type ↔ Builds publication name entry type :=
  ⟨builds_of_build, build_of_builds⟩

theorem get?_types_eq_some_iff {type : TypeDefinition} :
    publication.types.get? name = some type ↔
      ∃ entry, publication.registry.entries.get? name = some entry ∧
        Builds publication name entry type := by
  simp only [types, Keyed.get?_filterMap_eq_some_iff, toOption_eq_some_iff, build_eq_ok_iff]

theorem Builds.name_eq {entry : Registered} {type : TypeDefinition}
    (h : Builds publication name entry type) : type.name = entry.name := by
  cases h <;> rfl

/-- A type that was built has the name it is registered under. -/
theorem Builds.name_eq_key (hc : publication.registry.Consistent) {entry : Registered}
    {type : TypeDefinition} (hentry : publication.registry.entries.get? name = some entry)
    (h : Builds publication name entry type) : type.name = name :=
  h.name_eq.trans (hc.named name entry hentry).1

theorem Builds.kind_eq {entry : Registered} {type : TypeDefinition}
    (h : Builds publication name entry type) : type.kind = entry.kind := by
  cases h <;> rfl

theorem Builds.isOutput_eq {entry : Registered} {type : TypeDefinition}
    (h : Builds publication name entry type) : type.isOutput = entry.namedKind.isOutput := by
  cases h <;> rfl

theorem Builds.isInput_eq {entry : Registered} {type : TypeDefinition}
    (h : Builds publication name entry type) : type.isInput = entry.namedKind.isInput := by
  cases h <;> rfl

/-- The objects among the types are the objects that were built. -/
theorem get?_types_eq_object_iff (hc : publication.registry.Consistent) {object : ObjectType} :
    publication.types.get? name = some (.object object) ↔
      object ∈ publication.objects ∧ object.name = name := by
  rw [get?_types_eq_some_iff, mem_objects_iff]
  constructor
  · intro h
    obtain ⟨entry, hentry, hbuilds⟩ := h
    have hbuild := build_of_builds hbuilds
    cases entry with
    | object config =>
      obtain ⟨found, hfound, htype⟩ := map_eq_ok_iff.mp hbuild
      cases htype
      exact ⟨⟨name, config, hentry, hfound⟩, buildObject_name hc hentry hfound⟩
    | _ => cases hbuilds
  · intro h
    obtain ⟨⟨key, config, hentry, hbuild⟩, hname⟩ := h
    have hkey : key = name := (buildObject_name hc hentry hbuild).symm.trans hname
    subst hkey
    obtain ⟨hvalid, hpublished⟩ := buildObject_eq_ok_iff.mp hbuild
    subst hpublished
    exact ⟨_, hentry, .object config hvalid⟩

/-- The object that an entry is built to, if it is one. -/
theorem object?_build (publication : Publication) (name : String) (entry : Registered) :
    (publication.build name entry).toOption.bind TypeDefinition.object? =
      match entry with
      | .object config => (publication.buildObject name config).toOption
      | _ => none := by
  cases entry with
  | scalar type => rfl
  | enum type => rfl
  | object config =>
    simp only [build]
    cases publication.buildObject name config <;> rfl
  | interface config =>
    simp only [build]
    cases config.define _ publication.objects publication.kinds <;> rfl
  | union config =>
    simp only [build]
    cases config.define publication.objects publication.kinds <;> rfl
  | inputObject config =>
    simp only [build]
    cases config.define publication.kinds <;> rfl

theorem objects_eq_filterMap_types :
    publication.objects = publication.types.values.filterMap TypeDefinition.object? := by
  rw [types, Keyed.values_filterMap, List.filterMap_filterMap]
  refine congrArg (List.filterMap · _) (funext fun named => ?_)
  obtain ⟨name, entry⟩ := named
  rw [object?_build]
  cases entry <;> rfl

/-! ## Errors -/

/-- Every entry can be built. -/
def AllBuilt (publication : Publication) : Prop :=
  ∀ name entry, publication.registry.entries.get? name = some entry →
    ∃ type, Builds publication name entry type

theorem errorsOfKind_eq_nil_iff {kind : TypeKind} :
    publication.errorsOfKind kind = [] ↔
      ∀ name entry, publication.registry.entries.get? name = some entry → entry.kind = kind →
        ∃ type, Builds publication name entry type := by
  simp only [errorsOfKind, List.filterMap_eq_nil_iff, Keyed.get?_eq_some_iff]
  constructor
  · intro h name entry hentry hkind
    have hnone := h (name, entry) hentry
    cases hbuild : publication.build name entry with
    | error e => simp [hbuild, hkind] at hnone
    | ok type => exact ⟨type, builds_of_build hbuild⟩
  · intro h named hentry
    obtain ⟨name, entry⟩ := named
    cases hbuild : publication.build name entry with
    | error e =>
      by_cases hkind : entry.kind = kind
      · obtain ⟨type, htype⟩ := h name entry hentry hkind
        rw [build_of_builds htype] at hbuild
        cases hbuild
      · simp [hkind]
    | ok type => simp

theorem definitionErrors_eq_nil_iff : publication.definitionErrors = [] ↔ publication.AllBuilt := by
  simp only [definitionErrors, List.flatMap_eq_nil_iff, errorsOfKind_eq_nil_iff]
  constructor
  · intro h name entry hentry
    cases entry with
    | scalar type => exact ⟨_, .scalar type⟩
    | enum type => exact ⟨_, .enum type⟩
    | object config => exact h .object (by decide) name _ hentry rfl
    | interface config => exact h .interface (by decide) name _ hentry rfl
    | union config => exact h .union (by decide) name _ hentry rfl
    | inputObject config => exact h .inputObject (by decide) name _ hentry rfl
  · intro h kind _ name entry hentry _
    exact h name entry hentry

end Publication

/-! ## Conformance -/

/-- A field that keeps what an interface promises of it. -/
structure Keeps (types : Keyed TypeDefinition) (found expected : FieldDefinition) : Prop where
  type : isCovariant types found.type expected.type = true
  args : ∀ argument ∈ expected.args, ∃ given, found.argument? argument.name = some given ∧
    given.type = argument.type

/-- An object that has every field of an interface and keeps its promise. -/
def Conforms (types : Keyed TypeDefinition) (interface : InterfaceType) (object : ObjectType) :
    Prop :=
  ∀ field expected, interface.field? field = some expected →
    ∃ found, object.field? field = some found ∧ Keeps types found expected

theorem checkArgument_eq_nil_iff {interface object field : String} {found : FieldDefinition}
    {expected : Argument} :
    checkArgument interface object field found expected = [] ↔
      ∃ given, found.argument? expected.name = some given ∧ given.type = expected.type := by
  unfold checkArgument
  cases found.argument? expected.name with
  | none => simp
  | some given => simp

theorem checkField_eq_nil_iff {types : Keyed TypeDefinition} {interface : String}
    {object : ObjectType} {field : String} {expected : FieldDefinition} :
    checkField types interface object field expected = [] ↔
      ∃ found, object.field? field = some found ∧ Keeps types found expected := by
  unfold checkField
  cases object.field? field with
  | none => simp
  | some found =>
    simp only [List.append_eq_nil_iff, ite_eq_left_iff, reduceCtorEq, imp_false,
      Decidable.not_not, List.flatMap_eq_nil_iff, checkArgument_eq_nil_iff, Option.some.injEq,
      exists_eq_left']
    exact ⟨fun h => ⟨h.1, h.2⟩, fun h => ⟨h.type, h.args⟩⟩

theorem checkImplementation_eq_nil_iff {types : Keyed TypeDefinition} {interface : InterfaceType}
    {object : ObjectType} :
    checkImplementation types interface object = [] ↔ Conforms types interface object := by
  simp only [checkImplementation, List.flatMap_eq_nil_iff, checkField_eq_nil_iff, Conforms,
    InterfaceType.field?, Keyed.get?_eq_some_iff]
  exact ⟨fun h field expected hmem => h (field, expected) hmem, fun h entry hmem => h _ _ hmem⟩

theorem conformanceErrors_eq_nil_iff {types : Keyed TypeDefinition} :
    conformanceErrors types = [] ↔
      ∀ name interface, types.get? name = some (.interface interface) →
        ∀ object ∈ interface.implementations, Conforms types interface object := by
  simp only [conformanceErrors, List.flatMap_eq_nil_iff, Keyed.values, List.mem_map]
  constructor
  · intro h name interface hget object hobject
    have hnil := h (.interface interface) ⟨_, Keyed.get?_eq_some_iff.mp hget, rfl⟩
    exact checkImplementation_eq_nil_iff.mp (List.flatMap_eq_nil_iff.mp hnil object hobject)
  · intro h type hvalue
    obtain ⟨⟨name, found⟩, hmem, htype⟩ := hvalue
    subst htype
    cases found with
    | interface interface =>
      refine List.flatMap_eq_nil_iff.mpr fun object hobject => ?_
      exact checkImplementation_eq_nil_iff.mpr
        (h name interface (Keyed.get?_eq_some_iff.mpr hmem) object hobject)
    | _ => rfl

/-! ## Publication -/

namespace Publication

/-- Every entry can be built, and every implementation conforms. -/
structure Succeeds (publication : Publication) : Prop where
  built : publication.AllBuilt
  conforms : ∀ name interface, publication.types.get? name = some (.interface interface) →
    ∀ object ∈ interface.implementations, Conforms publication.types interface object

theorem errors_eq_nil_iff {publication : Publication} :
    publication.errors = [] ↔ publication.Succeeds := by
  rw [errors, List.append_eq_nil_iff, definitionErrors_eq_nil_iff, conformanceErrors_eq_nil_iff]
  exact ⟨fun h => ⟨h.1, h.2⟩, fun h => ⟨h.built, h.conforms⟩⟩

end Publication

theorem publish_eq_ok_iff {registry : TypeRegistry} {options : BuildOptions}
    {types : Keyed TypeDefinition} :
    publish registry options = .ok types ↔
      (Publication.mk registry options).Succeeds ∧ (Publication.mk registry options).types = types := by
  rw [← Publication.errors_eq_nil_iff]
  unfold publish
  by_cases h : (Publication.mk registry options).errors = []
  · simp [h]
  · simp [h]

/-! ## Schemas -/

namespace Schema

theorem root_eq_ok_iff {types : Keyed TypeDefinition} {notObject : String → TypeError}
    {name : String} {object : ObjectType} :
    root types notObject name = .ok object ↔ types.get? name = some (.object object) := by
  unfold root
  cases types.get? name with
  | none => simp
  | some type => cases type <;> simp

theorem mutationRoot_eq_ok_iff {types : Keyed TypeDefinition} {config : SchemaConfig}
    {mutation : Option ObjectType} :
    mutationRoot types config = .ok mutation ↔
      config.mutation = none ∧ mutation = none ∨
        ∃ name object, config.mutation = some name ∧ types.get? name = some (.object object) ∧
          mutation = some object := by
  unfold mutationRoot
  cases config.mutation with
  | none => simp [eq_comm]
  | some name =>
    simp only [map_eq_ok_iff, root_eq_ok_iff, reduceCtorEq, false_and, false_or, Option.some.injEq]
    constructor
    · intro h
      obtain ⟨object, hobject, hmutation⟩ := h
      exact ⟨name, object, rfl, hobject, hmutation.symm⟩
    · intro h
      obtain ⟨other, object, hname, hobject, hmutation⟩ := h
      exact ⟨object, hname ▸ hobject, hmutation.symm⟩

theorem ofTypes_eq_ok_iff {types : Keyed TypeDefinition} {config : SchemaConfig} {schema : Schema} :
    ofTypes config types = .ok schema ↔
      queryRoot types config = .ok schema.query ∧ mutationRoot types config = .ok schema.mutation ∧
        types = schema.types := by
  unfold ofTypes
  cases schema with
  | mk query mutation published =>
    cases queryRoot types config with
    | error e => cases mutationRoot types config <;> simp
    | ok found => cases mutationRoot types config <;> simp

/-- A schema is made of what a registry publishes and of root objects among it. -/
theorem ofRegistry_eq_ok_iff {config : SchemaConfig} {registry : TypeRegistry} {schema : Schema} :
    ofRegistry config registry = .ok schema ↔
      (Publication.mk registry config.options).Succeeds ∧
        (Publication.mk registry config.options).types = schema.types ∧
        queryRoot schema.types config = .ok schema.query ∧
        mutationRoot schema.types config = .ok schema.mutation := by
  simp only [ofRegistry, bind_eq_ok_iff, publish_eq_ok_iff, ofTypes_eq_ok_iff]
  constructor
  · intro h
    obtain ⟨types, ⟨hsucceeds, htypes⟩, hquery, hmutation, hschema⟩ := h
    subst hschema
    exact ⟨hsucceeds, htypes, hquery, hmutation⟩
  · intro h
    obtain ⟨hsucceeds, htypes, hquery, hmutation⟩ := h
    exact ⟨_, ⟨hsucceeds, htypes⟩, hquery, hmutation, rfl⟩

end Schema

end GraphSchema
