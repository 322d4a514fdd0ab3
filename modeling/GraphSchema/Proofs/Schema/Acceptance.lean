/-
  GraphSchema.Proofs.Schema.Acceptance — which registries make a schema.

  What is asked of a registry (`Publishable`) mentions configurations only: fields and
  arguments with valid names and references of a registered and suitable kind, interfaces
  and members that are registered as such and whose values can be told, input objects that
  are not configured empty, objects that keep what their interfaces promise, and roots
  that are objects. Phase by phase, a registry that can come about makes a schema exactly
  if it is publishable (`exists_ofRegistry_iff`): no later phase is misled by what an
  earlier one left out.
-/

import GraphSchema.Proofs.Schema.Published

namespace GraphSchema

/-! ## What is asked of the configurations -/

/-- Enums, input objects, and scalars that were given both readers. -/
inductive Registered.Reads : Registered → Prop
  | enum (type : EnumType) : Reads (.enum type)
  | inputObject (config : InputObjectConfig) : Reads (.inputObject config)
  | scalar (type : ScalarType) (readers : ScalarReaders) :
      type.readers = some readers → Reads (.scalar type)

namespace TypeRegistry

/-- A reference to something a field may answer with. -/
def Answers (registry : TypeRegistry) (type : TypeRef) : Prop :=
  ∃ entry, registry.entries.get? type.innermostName = some entry ∧ entry.kind ≠ .inputObject

/-- A reference to something input is read as. -/
def Reads (registry : TypeRegistry) (type : TypeRef) : Prop :=
  ∃ entry, registry.entries.get? type.innermostName = some entry ∧ entry.Reads

/-- A type's own fields with the added ones merged over them. -/
def merged (registry : TypeRegistry) (name : String) (own : Deferred (Keyed FieldConfig)) :
    Keyed FieldConfig :=
  own.resolve.merge (registry.addedTo name)

structure WellFormedField (registry : TypeRegistry) (name : String) (field : FieldConfig) :
    Prop where
  name : isValidName name = true
  type : registry.Answers field.type
  args : ∀ argument config, field.args.get? argument = some config →
    isValidName argument = true ∧ registry.Reads config.type

structure WellFormedFields (registry : TypeRegistry) (fields : Keyed FieldConfig) : Prop where
  nonempty : fields.isEmpty = false
  valid : ∀ name field, fields.get? name = some field → registry.WellFormedField name field

/-- A narrower type, and each promised argument with the promised type. -/
structure KeepsPromise (registry : TypeRegistry) (found expected : FieldConfig) : Prop where
  type : found.type.Narrows registry.Possible expected.type
  args : ∀ argument promised, expected.args.get? argument = some promised →
    ∃ given, found.args.get? argument = some given ∧ given.type = promised.type

/-- The object has each field of the interface and keeps what is promised of it. -/
def Provides (registry : TypeRegistry) (name : String) (object : ObjectConfig) (listed : String)
    (interface : InterfaceConfig) : Prop :=
  ∀ field expected, (registry.merged listed interface.fields).get? field = some expected →
    ∃ found, (registry.merged name object.fields).get? field = some found ∧
      registry.KeepsPromise found expected

/-- What the types are asked, each for itself. -/
structure Buildable (registry : TypeRegistry) (options : BuildOptions) : Prop where
  objects : ∀ name object, registry.entries.get? name = some (.object object) →
    registry.WellFormedFields (registry.merged name object.fields)
  interfaces : ∀ name interface, registry.entries.get? name = some (.interface interface) →
    registry.WellFormedFields (registry.merged name interface.fields)
  /-- Listed interfaces are interfaces, and values of the object can be told in them. -/
  implementable : ∀ name object, registry.entries.get? name = some (.object object) →
    ∀ listed ∈ object.interfaces.resolve,
      ∃ interface, registry.entries.get? listed = some (.interface interface) ∧
        (interface.resolveType.isSome = true ∨
          options.requireInterfaceResolveType = false ∧ object.isTypeOf.isSome = true)
  /-- Members are objects, and values of them can be told in the union. -/
  members : ∀ name union, registry.entries.get? name = some (.union union) →
    ∀ member ∈ union.types,
      ∃ object, registry.entries.get? member = some (.object object) ∧
        (union.resolveType.isSome = true ∨ object.isTypeOf.isSome = true)
  inputObjects : ∀ name input, registry.entries.get? name = some (.inputObject input) →
    input.fields.resolve.isEmpty = false

structure Publishable (registry : TypeRegistry) (config : SchemaConfig) : Prop where
  buildable : registry.Buildable config.options
  promises : ∀ name object, registry.entries.get? name = some (.object object) →
    ∀ listed ∈ object.interfaces.resolve,
      ∀ interface, registry.entries.get? listed = some (.interface interface) →
        registry.Provides name object listed interface
  query : ∃ object, registry.entries.get? config.query = some (.object object)
  mutation : ∀ name, config.mutation = some name →
    ∃ object, registry.entries.get? name = some (.object object)

/-! ## Fields -/

variable {registry : TypeRegistry}

theorem isOutput_namedKind_iff {entry : Registered} :
    entry.namedKind.isOutput = true ↔ entry.kind ≠ .inputObject := by
  cases entry <;>
    simp [Registered.namedKind, NamedKind.isOutput, Registered.kind, NamedKind.kind]

theorem isInput_namedKind_iff {entry : Registered} :
    entry.namedKind.isInput = true ↔ entry.Reads := by
  cases entry with
  | scalar type =>
    constructor
    · intro h
      obtain ⟨readers, hreaders⟩ := Option.isSome_iff_exists.mp h
      exact .scalar type readers hreaders
    · intro h
      cases h with
      | scalar _ readers hreaders => exact Option.isSome_iff_exists.mpr ⟨readers, hreaders⟩
  | enum type => exact iff_of_true rfl (.enum type)
  | inputObject config => exact iff_of_true rfl (.inputObject config)
  | _ =>
    constructor
    · intro h
      cases h
    · intro h
      cases h

/-- What the kind table knows of a name is known of the entry registered under it. -/
theorem exists_named?_kindTable_iff {name : String} {holds : NamedKind → Prop} :
    (∃ kind, registry.kindTable.named? name = some kind ∧ holds kind) ↔
      ∃ entry, registry.entries.get? name = some entry ∧ holds entry.namedKind := by
  rw [named?_kindTable]
  constructor
  · intro h
    obtain ⟨kind, hkind, hholds⟩ := h
    obtain ⟨entry, hentry, hof⟩ := Option.map_eq_some_iff.mp hkind
    exact ⟨entry, hentry, hof ▸ hholds⟩
  · intro h
    obtain ⟨entry, hentry, hholds⟩ := h
    exact ⟨_, Option.map_eq_some_iff.mpr ⟨entry, hentry, rfl⟩, hholds⟩

theorem acceptsOutput_kindTable_iff {type : TypeRef} :
    registry.kindTable.acceptsOutput type = .ok true ↔ registry.Answers type := by
  rw [KindTable.acceptsOutput_eq_ok_iff, exists_named?_kindTable_iff]
  simp only [isOutput_namedKind_iff, Answers]

theorem acceptsInput_kindTable_iff {type : TypeRef} :
    registry.kindTable.acceptsInput type = .ok true ↔ registry.Reads type := by
  rw [KindTable.acceptsInput_eq_ok_iff,
    exists_named?_kindTable_iff]
  simp only [isInput_namedKind_iff, Reads]

theorem validField_kindTable_iff {name : String} {field : FieldConfig} :
    field.Valid registry.kindTable name ↔ registry.WellFormedField name field := by
  constructor
  · intro h
    refine ⟨h.name, acceptsOutput_kindTable_iff.mp h.type, ?_⟩
    intro argument config hconfig
    have hvalid := h.args argument config hconfig
    exact ⟨hvalid.name, acceptsInput_kindTable_iff.mp hvalid.type⟩
  · intro h
    refine ⟨h.name, acceptsOutput_kindTable_iff.mpr h.type, ?_⟩
    intro argument config hconfig
    obtain ⟨hname, hreads⟩ := h.args argument config hconfig
    exact ⟨hname, acceptsInput_kindTable_iff.mpr hreads⟩

theorem validFields_kindTable_iff {fields : Keyed FieldConfig} :
    ValidFields registry.kindTable fields ↔ registry.WellFormedFields fields := by
  constructor
  · intro h
    exact ⟨h.nonempty, fun name field hfield => validField_kindTable_iff.mp (h.valid name field hfield)⟩
  · intro h
    exact ⟨h.nonempty, fun name field hfield => validField_kindTable_iff.mpr (h.valid name field hfield)⟩

end TypeRegistry

/-! ## Building -/

namespace Publication

open TypeRegistry

variable {publication : Publication} {name : String}

theorem implementable_iff {object : ObjectConfig} {listed : String} :
    ObjectConfig.checkInterface object.name object.isTypeOf.isSome publication.kinds
        publication.options listed = .ok () ↔
      ∃ interface, publication.registry.entries.get? listed = some (.interface interface) ∧
        (interface.resolveType.isSome = true ∨
          publication.options.requireInterfaceResolveType = false ∧
            object.isTypeOf.isSome = true) := by
  rw [ObjectConfig.checkInterface_eq_ok_iff]
  constructor
  · intro h
    obtain ⟨resolvesType, hkind, htold⟩ := h
    obtain ⟨interface, hentry, hresolves⟩ := named?_kinds_eq_interface_iff.mp hkind
    subst hresolves
    exact ⟨interface, hentry, htold⟩
  · intro h
    obtain ⟨interface, hentry, htold⟩ := h
    exact ⟨_, named?_kinds_eq_interface_iff.mpr ⟨interface, hentry, rfl⟩, htold⟩

theorem objectsValid_of_buildable (h : publication.registry.Buildable publication.options) :
    publication.ObjectsValid := by
  intro name object hentry
  refine ⟨?_, validFields_kindTable_iff.mpr (h.objects name object hentry)⟩
  intro listed hlisted
  exact implementable_iff.mpr (h.implementable name object hentry listed hlisted)

theorem buildable_of_allBuilt (hc : publication.registry.Consistent) (hb : publication.AllBuilt) :
    publication.registry.Buildable publication.options where
  objects := fun name object hentry =>
    validFields_kindTable_iff.mp (hb.objectsValid name object hentry).fields
  interfaces := by
    intro name interface hentry
    obtain ⟨_, hbuilds⟩ := hb name _ hentry
    cases hbuilds with
    | interface _ hvalid => exact validFields_kindTable_iff.mp hvalid
  implementable := fun name object hentry listed hlisted =>
    implementable_iff.mp ((hb.objectsValid name object hentry).interfaces listed hlisted)
  members := by
    intro name union hentry member hmember
    obtain ⟨_, hbuilds⟩ := hb name _ hentry
    cases hbuilds with
    | union _ hvalid => exact (admits_iff hc hb.objectsValid).mp (hvalid.members member hmember)
  inputObjects := by
    intro name input hentry
    obtain ⟨_, hbuilds⟩ := hb name _ hentry
    cases hbuilds with
    | inputObject _ hnonempty => exact hnonempty

theorem allBuilt_of_buildable (hc : publication.registry.Consistent)
    (h : publication.registry.Buildable publication.options) : publication.AllBuilt := by
  have ho := objectsValid_of_buildable h
  intro name entry hentry
  cases entry with
  | scalar type => exact ⟨_, .scalar type⟩
  | enum type => exact ⟨_, .enum type⟩
  | object object => exact ⟨_, .object object (ho name object hentry)⟩
  | interface interface =>
    exact ⟨_, .interface interface
      (validFields_kindTable_iff.mpr (h.interfaces name interface hentry))⟩
  | union union =>
    have hname : union.name = name ∧ isValidName name = true := hc.named name _ hentry
    have hcheck : union.check = .ok () :=
      UnionConfig.check_eq_ok_iff.mpr ⟨hname.1 ▸ hname.2, hc.checked name _ hentry⟩
    refine ⟨_, .union union ⟨hcheck, ?_⟩⟩
    intro member hmember
    exact (admits_iff hc ho).mpr (h.members name union hentry member hmember)
  | inputObject input => exact ⟨_, .inputObject input (h.inputObjects name input hentry)⟩

/-! ## Conformance -/

theorem isCovariant_types_iff (hc : publication.registry.Consistent) (hb : publication.AllBuilt)
    {found expected : TypeRef} :
    isCovariant publication.types found expected = true ↔
      found.Narrows publication.registry.Possible expected := by
  rw [isCovariant_eq_true_iff (unchained_types hc)]
  constructor
  · intro h
    exact h.mono fun object type => (isPossibleIn_types_iff hc hb).mp
  · intro h
    exact h.mono fun object type => (isPossibleIn_types_iff hc hb).mpr

theorem keeps_published_iff (hc : publication.registry.Consistent) (hb : publication.AllBuilt)
    {key : String} {found expected : FieldConfig} :
    Keeps publication.types (found.published key) (expected.published key) ↔
      publication.registry.KeepsPromise found expected := by
  constructor
  · intro h
    refine ⟨(isCovariant_types_iff hc hb).mp h.type, ?_⟩
    intro argument promised hpromised
    have hmem : promised.published argument ∈ (expected.published key).args :=
      FieldConfig.mem_args_published_iff.mpr ⟨argument, promised, hpromised, rfl⟩
    obtain ⟨given, hgiven, htype⟩ := h.args _ hmem
    rw [FieldConfig.argument?_published] at hgiven
    obtain ⟨givenConfig, hconfig, hpublished⟩ := Option.map_eq_some_iff.mp hgiven
    subst hpublished
    exact ⟨givenConfig, hconfig, htype⟩
  · intro h
    refine ⟨(isCovariant_types_iff hc hb).mpr h.type, ?_⟩
    intro argument hargument
    obtain ⟨name, promised, hpromised, hpublished⟩ :=
      FieldConfig.mem_args_published_iff.mp hargument
    subst hpublished
    obtain ⟨given, hgiven, htype⟩ := h.args name promised hpromised
    refine ⟨given.published name, ?_, htype⟩
    rw [FieldConfig.argument?_published]
    exact Option.map_eq_some_iff.mpr ⟨given, hgiven, rfl⟩

theorem conforms_published_iff (hc : publication.registry.Consistent) (hb : publication.AllBuilt)
    {listed : String} {interface : InterfaceConfig} {object : ObjectConfig} :
    Conforms publication.types
        (interface.published (publication.registry.addedTo listed) publication.objects)
        (object.published (publication.registry.addedTo name)) ↔
      publication.registry.Provides name object listed interface := by
  constructor
  · intro h field expected hexpected
    obtain ⟨found, hfound, hkeeps⟩ :=
      h field _ (get?_publishedFields_eq_some_iff.mpr ⟨expected, hexpected, rfl⟩)
    obtain ⟨foundConfig, hconfig, hpublished⟩ := get?_publishedFields_eq_some_iff.mp hfound
    subst hpublished
    exact ⟨foundConfig, hconfig, (keeps_published_iff hc hb).mp hkeeps⟩
  · intro h field expected hexpected
    obtain ⟨expectedConfig, hconfig, hpublished⟩ :=
      get?_publishedFields_eq_some_iff.mp hexpected
    subst hpublished
    obtain ⟨found, hfound, hkeeps⟩ := h field expectedConfig hconfig
    exact ⟨_, get?_publishedFields_eq_some_iff.mpr ⟨found, hfound, rfl⟩,
      (keeps_published_iff hc hb).mpr hkeeps⟩

/-- Where everything was built, every implementation conforms if every listed interface is
kept: the interface found the objects that list it. -/
theorem conforms_iff (hc : publication.registry.Consistent) (hb : publication.AllBuilt) :
    (∀ name interface, publication.types.get? name = some (.interface interface) →
      ∀ object ∈ interface.implementations, Conforms publication.types interface object) ↔
    ∀ name object, publication.registry.entries.get? name = some (.object object) →
      ∀ listed ∈ object.interfaces.resolve,
        ∀ interface, publication.registry.entries.get? listed = some (.interface interface) →
          publication.registry.Provides name object listed interface := by
  constructor
  · intro h name object hobject listed hlisted interface hinterface
    obtain ⟨type, hbuilds⟩ := hb listed _ hinterface
    have htype := get?_types_eq_some_iff.mpr ⟨_, hinterface, hbuilds⟩
    have hname : (object.published (publication.registry.addedTo name)).name = name :=
      (hc.named name _ hobject).1
    cases hbuilds with
    | interface _ _ =>
      have hmem := (mem_implementations_iff hc hinterface).mpr
        ⟨published_mem_objects hb hobject,
          hname.symm ▸ .implements object interface hobject hinterface hlisted⟩
      exact (conforms_published_iff hc hb).mp (h listed _ htype _ hmem)
  · intro h name type htype object hmem
    obtain ⟨entry, hentry, hbuilds⟩ := get?_types_eq_some_iff.mp htype
    cases hbuilds with
    | interface interface _ =>
      obtain ⟨hbuilt, hpossible⟩ := (mem_implementations_iff hc hentry).mp hmem
      obtain ⟨key, config, hconfig, hbuild⟩ := mem_objects_iff.mp hbuilt
      have hkey := buildObject_name hc hconfig hbuild
      subst hkey
      obtain ⟨_, hpublished⟩ := buildObject_eq_ok_iff.mp hbuild
      rw [← hpublished]
      cases hpossible with
      | implements other _ hother _ hlisted =>
        cases Keyed.eq_of_get?_eq_get? hconfig hother
        exact (conforms_published_iff hc hb).mpr
          (h object.name config hconfig name hlisted interface hentry)
      | member _ union _ hunion _ => cases Keyed.eq_of_get?_eq_get? hentry hunion

/-! ## Roots -/

theorem exists_object_iff (hb : publication.AllBuilt) :
    (∃ object, publication.types.get? name = some (.object object)) ↔
      ∃ config, publication.registry.entries.get? name = some (.object config) := by
  constructor
  · intro h
    obtain ⟨object, hobject⟩ := h
    obtain ⟨entry, hentry, hbuilds⟩ := get?_types_eq_some_iff.mp hobject
    cases hbuilds with
    | object config _ => exact ⟨config, hentry⟩
  · intro h
    obtain ⟨config, hentry⟩ := h
    obtain ⟨type, hbuilds⟩ := hb name _ hentry
    have htype := get?_types_eq_some_iff.mpr ⟨_, hentry, hbuilds⟩
    cases hbuilds with
    | object _ _ => exact ⟨_, htype⟩

end Publication

/-! ## Schemas -/

namespace Schema

open Publication

variable {config : SchemaConfig} {registry : TypeRegistry}

theorem publishable_of_ofRegistry (hr : registry.Reachable) {schema : Schema}
    (h : ofRegistry config registry = .ok schema) : registry.Publishable config := by
  obtain ⟨hsucceeds, htypes, hquery, hmutation⟩ := ofRegistry_eq_ok_iff.mp h
  have hc := hr.consistent
  have hb := hsucceeds.built
  rw [← htypes] at hquery hmutation
  refine ⟨buildable_of_allBuilt hc hb, (conforms_iff hc hb).mp hsucceeds.conforms, ?_, ?_⟩
  · exact (exists_object_iff hb).mp ⟨_, root_eq_ok_iff.mp hquery⟩
  · intro name hname
    rcases mutationRoot_eq_ok_iff.mp hmutation with ⟨hnone, _⟩ | ⟨other, object, hother, hobject, _⟩
    · rw [hname] at hnone
      cases hnone
    · rw [hname] at hother
      cases hother
      exact (exists_object_iff hb).mp ⟨object, hobject⟩

theorem ofRegistry_of_publishable (hr : registry.Reachable) (h : registry.Publishable config) :
    ∃ schema, ofRegistry config registry = .ok schema := by
  have hc := hr.consistent
  have hb : (Publication.mk registry config.options).AllBuilt :=
    allBuilt_of_buildable hc h.buildable
  have hsucceeds : (Publication.mk registry config.options).Succeeds :=
    ⟨hb, (conforms_iff hc hb).mpr h.promises⟩
  obtain ⟨query, hquery⟩ := (exists_object_iff hb).mpr h.query
  have hmutation : ∃ mutation, mutationRoot (Publication.mk registry config.options).types config =
      .ok mutation := by
    cases hname : config.mutation with
    | none => exact ⟨none, mutationRoot_eq_ok_iff.mpr (Or.inl ⟨hname, rfl⟩)⟩
    | some name =>
      obtain ⟨object, hobject⟩ := (exists_object_iff hb).mpr (h.mutation name hname)
      exact ⟨some object, mutationRoot_eq_ok_iff.mpr (Or.inr ⟨name, object, hname, hobject, rfl⟩)⟩
  obtain ⟨mutation, hmutation⟩ := hmutation
  exact ⟨⟨query, mutation, _⟩, ofRegistry_eq_ok_iff.mpr
    ⟨hsucceeds, rfl, root_eq_ok_iff.mpr hquery, hmutation⟩⟩

/-- Publication accepts the publishable registries and no others. -/
theorem exists_ofRegistry_iff (hr : registry.Reachable) :
    (∃ schema, ofRegistry config registry = .ok schema) ↔ registry.Publishable config := by
  constructor
  · intro h
    obtain ⟨schema, h⟩ := h
    exact publishable_of_ofRegistry hr h
  · intro h
    exact ofRegistry_of_publishable hr h

/-- The catalogue is publishable, but not with an interface as its query root. -/
theorem catalogue_publishable :
    catalogue.Reachable ∧ catalogue.Publishable {} ∧ ¬ catalogue.Publishable { query := "Work" } := by
  refine ⟨catalogue_reachable, ?_, ?_⟩
  · exact (exists_ofRegistry_iff catalogue_reachable).mp catalogue_published
  · intro h
    obtain ⟨schema, hschema⟩ := (exists_ofRegistry_iff catalogue_reachable).mpr h
    have hrefused : (ofRegistry { query := "Work" } catalogue).isOk = false := by decide +kernel
    rw [hschema] at hrefused
    cases hrefused

end Schema

end GraphSchema
