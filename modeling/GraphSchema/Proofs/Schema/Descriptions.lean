/-
  GraphSchema.Proofs.Schema.Descriptions — descriptions have no part in what is published.

  Calls that are reworded are accepted and refused as before, so they leave the registry
  that the calls left, reworded (`run_reworded`). Every entry of a reworded registry is
  built to the type it was built to, reworded (`Builds.reworded`), and promises between
  types are kept as before. What is published of it is therefore the schema as it was,
  reworded (`ofRegistry_reworded`).
-/

import GraphSchema.Proofs.Print.Roots
import GraphSchema.Proofs.Schema.AddedFields
import GraphSchema.Proofs.Types.Descriptions

namespace GraphSchema

variable (wording : Wording)

/-! ## Registries and calls -/

def Registered.reworded : Registered → Registered
  | scalar type => .scalar (type.reworded wording)
  | enum type => .enum (type.reworded wording)
  | object config => .object (config.reworded wording)
  | interface config => .interface (config.reworded wording)
  | union config => .union (config.reworded wording)
  | inputObject config => .inputObject (config.reworded wording)

def TypeRegistry.reworded (registry : TypeRegistry) : TypeRegistry where
  entries := registry.entries.mapValues fun _ => Registered.reworded wording
  added := registry.added.mapValues fun type => .mapValues (FieldConfig.reworded wording type)

def Registration.reworded : Registration → Registration
  | scalar config => .scalar (config.reworded wording)
  | enum config => .enum (config.reworded wording)
  | object config => .object (config.reworded wording)
  | interface config => .interface (config.reworded wording)
  | union config => .union (config.reworded wording)
  | inputObject config => .inputObject (config.reworded wording)
  | addField typeName field config =>
    .addField typeName field (config.reworded wording typeName field)

variable {wording} {registry : TypeRegistry}

namespace Registered

@[simp] theorem name_reworded (entry : Registered) :
    (entry.reworded wording).name = entry.name := by
  cases entry <;> rfl

@[simp] theorem namedKind_reworded (entry : Registered) :
    (entry.reworded wording).namedKind = entry.namedKind := by
  cases entry <;> rfl

@[simp] theorem hasFields_reworded (entry : Registered) :
    (entry.reworded wording).hasFields = entry.hasFields := by
  cases entry <;> rfl

end Registered

namespace TypeRegistry

theorem get?_reworded (name : String) :
    (registry.reworded wording).entries.get? name =
      (registry.entries.get? name).map (Registered.reworded wording) :=
  Keyed.get?_mapValues ..

@[simp] theorem contains_reworded (name : String) :
    (registry.reworded wording).contains name = registry.contains name := by
  rw [contains, contains, Keyed.contains, Keyed.contains, get?_reworded, Option.isSome_map]

theorem addedTo_reworded (name : String) :
    (registry.reworded wording).addedTo name =
      (registry.addedTo name).mapValues (FieldConfig.reworded wording name) := by
  have hadded : (registry.reworded wording).added.get? name =
      (registry.added.get? name).map (.mapValues (FieldConfig.reworded wording name)) :=
    Keyed.get?_mapValues ..
  rw [addedTo, addedTo, hadded]
  cases registry.added.get? name <;> rfl

theorem kindTable_reworded (registry : TypeRegistry) :
    (registry.reworded wording).kindTable = registry.kindTable := by
  simp [kindTable, reworded, Keyed.mapValues, Function.comp_def]

/-- A wording that leaves the built-in scalars as they are does so with what a host starts from. -/
theorem reworded_start {start : TypeRegistry} (hstart : start = .empty ∨ start = .standard)
    (hkept : ∀ scalar ∈ BuiltinScalar.all,
      wording (.type scalar.name) scalar.description = scalar.description) :
    start.reworded wording = start := by
  rcases hstart with rfl | rfl
  · rfl
  · have hentries : standard.entries.mapValues (fun _ => Registered.reworded wording) =
        standard.entries := by
      refine Keyed.mapValues_eq_self fun key entry hentry => ?_
      obtain ⟨scalar, hscalar, _, hsame⟩ := builtin_of_get?_standard hentry
      subst hsame
      simp only [Registered.reworded, ScalarType.reworded, hkept scalar hscalar]
    exact congrArg (TypeRegistry.mk · .empty) hentries

end TypeRegistry

namespace Registration

/-- A call registers what it registered, reworded, or fails as it failed. -/
theorem registers?_reworded (call : Registration) :
    (call.reworded wording).registers? =
      call.registers?.map (Except.map (Registered.reworded wording)) := by
  have hchecked : ∀ (check : Except TypeError Unit) (entry : Registered),
      some (check.map fun _ => entry.reworded wording) =
        some ((check.map fun _ => entry).map (Registered.reworded wording)) := by
    intro check entry
    cases check <;> rfl
  cases call with
  | scalar config =>
    simp only [reworded, registers?, ScalarType.ofConfig_reworded]
    cases ScalarType.ofConfig config <;> rfl
  | enum config =>
    simp only [reworded, registers?, EnumType.ofConfig_reworded]
    cases EnumType.ofConfig config <;> rfl
  | object config => exact hchecked (checkTypeName config.name) (.object config)
  | interface config => exact hchecked (checkTypeName config.name) (.interface config)
  | union config => exact hchecked config.check (.union config)
  | inputObject config => exact hchecked (checkTypeName config.name) (.inputObject config)
  | addField typeName field config => rfl

theorem after_reworded (call : Registration) (registry : TypeRegistry) :
    (call.reworded wording).after (registry.reworded wording) =
      (call.after registry).reworded wording := by
  cases hcall : call.registers? with
  | some checked =>
    have hreworded : (call.reworded wording).registers? =
        some (checked.map (Registered.reworded wording)) := by
      rw [registers?_reworded, hcall]
      rfl
    rw [after_of_registers? hreworded, after_of_registers? hcall]
    cases checked with
    | error error => rfl
    | ok entry =>
      simp only [Except.map, TypeRegistry.contains_reworded, Registered.name_reworded]
      split
      · rfl
      · simp only [TypeRegistry.reworded, Keyed.mapValues_insert]
  | none =>
    cases call with
    | addField typeName field config =>
      simp only [reworded, after_addField, TypeRegistry.get?_reworded, Option.any_map,
        Registered.hasFields_reworded, TypeRegistry.addedTo_reworded]
      split
      · simp only [TypeRegistry.reworded, Keyed.mapValues_insert]
      · rfl
    | _ => cases hcall

end Registration

/-- Reworded calls leave what the calls left, reworded. -/
theorem TypeRegistry.run_reworded (registry : TypeRegistry) (calls : List Registration) :
    (registry.reworded wording).run (calls.map (Registration.reworded wording)) =
      (registry.run calls).reworded wording := by
  induction calls generalizing registry with
  | nil => rfl
  | cons call rest ih =>
    have hrest := ih (call.after registry)
    rw [← Registration.after_reworded] at hrest
    exact hrest

/-! ## Publication -/

namespace Publication

variable {publication : Publication} {name : String}

def reworded (wording : Wording) (publication : Publication) : Publication :=
  { publication with registry := publication.registry.reworded wording }

theorem kinds_reworded (publication : Publication) :
    (publication.reworded wording).kinds = publication.kinds :=
  publication.registry.kindTable_reworded

theorem get?_entries_reworded (publication : Publication) (name : String) :
    (publication.reworded wording).registry.entries.get? name =
      (publication.registry.entries.get? name).map (Registered.reworded wording) :=
  TypeRegistry.get?_reworded name

/-- Where an object is valid, so is the reworded one, and it is built as that one reworded. -/
theorem buildObject_reworded (hc : publication.registry.Consistent) {config : ObjectConfig}
    {object : ObjectType}
    (hentry : publication.registry.entries.get? name = some (.object config))
    (h : publication.buildObject name config = .ok object) :
    (publication.reworded wording).buildObject name (config.reworded wording) =
      .ok (object.reworded wording) := by
  obtain ⟨hvalid, hobject⟩ := buildObject_eq_ok_iff.mp h
  have hname : config.name = name := (hc.named name _ hentry).1
  subst hname hobject
  rw [buildObject_eq_ok_iff, kinds_reworded, reworded, TypeRegistry.addedTo_reworded]
  exact ⟨hvalid.reworded, config.published_reworded _⟩

theorem objects_reworded (hc : publication.registry.Consistent) (ho : publication.ObjectsValid) :
    (publication.reworded wording).objects =
      publication.objects.map (ObjectType.reworded wording) := by
  have hentries : (publication.reworded wording).registry.entries.entries =
      publication.registry.entries.entries.map fun entry =>
        (entry.1, entry.2.reworded wording) := rfl
  rw [objects, objects, hentries, List.filterMap_map, List.map_filterMap]
  refine List.filterMap_congr fun named hnamed => ?_
  obtain ⟨name, entry⟩ := named
  have hentry := Keyed.get?_eq_some_iff.mpr hnamed
  cases entry with
  | object config =>
    have hbuild := buildObject_eq_ok_iff.mpr ⟨ho name config hentry, rfl⟩
    have hreworded : (publication.reworded wording).buildObject name (config.reworded wording) =
        .ok ((config.published _).reworded wording) :=
      buildObject_reworded hc hentry hbuild
    simp only [Function.comp_apply, Registered.reworded, hbuild, hreworded]
    rfl
  | _ => rfl

/-- An entry that can be built is built, reworded, to the type reworded. -/
theorem Builds.reworded (hc : publication.registry.Consistent) (ho : publication.ObjectsValid)
    {entry : Registered} {type : TypeDefinition}
    (hentry : publication.registry.entries.get? name = some entry)
    (h : Builds publication name entry type) :
    Builds (publication.reworded wording) name (entry.reworded wording)
      (type.reworded wording) := by
  have hname : entry.name = name := (hc.named name entry hentry).1
  have hkinds : (publication.reworded wording).kinds = publication.kinds :=
    publication.kinds_reworded
  cases h with
  | scalar type => exact .scalar _
  | enum type => exact .enum _
  | object config hvalid =>
    have hbuilt := buildObject_eq_ok_iff.mpr ⟨hvalid, rfl⟩
    exact builds_of_build (map_eq_ok_iff.mpr ⟨_, buildObject_reworded hc hentry hbuilt, rfl⟩)
  | interface config hvalid =>
    subst hname
    refine builds_of_build
      (map_eq_ok_iff.mpr ⟨_, InterfaceConfig.define_eq_ok_iff.mpr ⟨?_, ?_⟩, rfl⟩)
    · rw [hkinds, reworded, TypeRegistry.addedTo_reworded]
      exact config.merge_reworded _ ▸ hvalid.reworded config.name
    · rw [objects_reworded hc ho, reworded, TypeRegistry.addedTo_reworded]
      exact config.published_reworded _ _
  | union config hvalid =>
    refine builds_of_build
      (map_eq_ok_iff.mpr ⟨_, UnionConfig.define_eq_ok_iff.mpr ⟨?_, ?_⟩, rfl⟩)
    · rw [hkinds, objects_reworded hc ho]
      exact hvalid.reworded
    · rw [objects_reworded hc ho]
      exact config.published_reworded _
  | inputObject config hempty =>
    refine builds_of_build
      (map_eq_ok_iff.mpr ⟨_, InputObjectConfig.define_eq_ok_iff.mpr ⟨?_, ?_⟩, rfl⟩)
    · rw [InputObjectConfig.reworded, Deferred.resolve_map, Keyed.isEmpty_mapValues]
      exact hempty
    · rw [hkinds]
      exact config.published_reworded

theorem AllBuilt.reworded (hc : publication.registry.Consistent) (h : publication.AllBuilt) :
    (publication.reworded wording).AllBuilt := by
  intro name reworded hreworded
  rw [get?_entries_reworded, Option.map_eq_some_iff] at hreworded
  obtain ⟨entry, hentry, hsame⟩ := hreworded
  obtain ⟨type, hbuilds⟩ := h name entry hentry
  subst hsame
  exact ⟨_, hbuilds.reworded hc h.objectsValid hentry⟩

theorem types_reworded (hc : publication.registry.Consistent) (h : publication.AllBuilt) :
    (publication.reworded wording).types =
      publication.types.mapValues fun _ => TypeDefinition.reworded wording := by
  apply Keyed.ext_get?
  · rw [(h.reworded hc).keys_types, Keyed.keys_mapValues, h.keys_types]
    exact Keyed.keys_mapValues ..
  · intro name
    have hreworded : (publication.reworded wording).registry.entries.get? name = _ :=
      publication.get?_entries_reworded name
    rw [Keyed.get?_mapValues]
    cases hentry : publication.registry.entries.get? name with
    | none =>
      rw [types, types, Keyed.get?_filterMap, Keyed.get?_filterMap, hreworded, hentry]
      rfl
    | some entry =>
      obtain ⟨type, hbuilds⟩ := h name entry hentry
      rw [get?_types_eq_some_iff.mpr ⟨entry, hentry, hbuilds⟩]
      rw [hentry] at hreworded
      exact get?_types_eq_some_iff.mpr ⟨_, hreworded, hbuilds.reworded hc h.objectsValid hentry⟩

end Publication

/-! ## Promises between types -/

section

variable {types : Keyed TypeDefinition}

theorem isPossibleIn_reworded (object name : String) :
    isPossibleIn (types.mapValues fun _ => TypeDefinition.reworded wording) object name =
      isPossibleIn types object name := by
  rw [isPossibleIn, isPossibleIn, Keyed.get?_mapValues]
  cases types.get? name with
  | none => rfl
  | some type => cases type <;> rfl

theorem Keeps.reworded {found expected : FieldDefinition} (h : Keeps types found expected)
    (object interface name : String) :
    Keeps (types.mapValues fun _ => TypeDefinition.reworded wording)
      (found.reworded wording object name) (expected.reworded wording interface name) where
  type := isCovariant_mono (fun _ _ hin => (isPossibleIn_reworded ..).trans hin) h.type
  args := by
    intro argument hargument
    obtain ⟨promised, hpromised, hsame⟩ := List.mem_map.mp hargument
    subst hsame
    obtain ⟨given, hgiven, htype⟩ := h.args promised hpromised
    refine ⟨given.reworded wording object name, ?_, htype⟩
    rw [FieldDefinition.argument?_reworded]
    exact congrArg (Option.map _) hgiven

theorem Conforms.reworded {interface : InterfaceType} {object : ObjectType}
    (h : Conforms types interface object) :
    Conforms (types.mapValues fun _ => TypeDefinition.reworded wording)
      (interface.reworded wording) (object.reworded wording) := by
  intro name reworded hreworded
  obtain ⟨expected, hexpected, hsame⟩ := Keyed.get?_mapValues_eq_some_iff.mp hreworded
  subst hsame
  obtain ⟨found, hfound, hkeeps⟩ := h name expected hexpected
  exact ⟨_, Keyed.get?_mapValues_eq_some_iff.mpr ⟨found, hfound, rfl⟩, hkeeps.reworded ..⟩

end

theorem Publication.Succeeds.reworded {publication : Publication}
    (hc : publication.registry.Consistent) (h : publication.Succeeds) :
    (publication.reworded wording).Succeeds where
  built := h.built.reworded hc
  conforms := by
    rw [types_reworded hc h.built]
    intro name reworded hreworded object hobject
    obtain ⟨type, htype, hsame⟩ := Keyed.get?_mapValues_eq_some_iff.mp hreworded
    cases type with
    | interface interface =>
      cases hsame
      obtain ⟨implementation, himplementation, hsame⟩ := List.mem_map.mp hobject
      subst hsame
      exact (h.conforms name interface htype implementation himplementation).reworded
    | _ => cases hsame

/-! ## Schemas -/

namespace Schema

variable {config : SchemaConfig} {schema : Schema}

/-- The description of an element of the schema, if it has that element and it is described. -/
def descriptionOf (schema : Schema) (element : Element) : Option String :=
  (schema.type? element.typeName).bind fun type => type.descriptionOf element

def reworded (wording : Wording) (schema : Schema) : Schema where
  query := schema.query.reworded wording
  mutation := schema.mutation.map (ObjectType.reworded wording)
  types := schema.types.mapValues fun _ => TypeDefinition.reworded wording

theorem type?_reworded (schema : Schema) (name : String) :
    (schema.reworded wording).type? name =
      (schema.type? name).map (TypeDefinition.reworded wording) :=
  Keyed.get?_mapValues ..

theorem queryRoot_reworded (h : queryRoot schema.types config = .ok schema.query) :
    queryRoot (schema.reworded wording).types config = .ok (schema.query.reworded wording) := by
  rw [queryRoot, root_eq_ok_iff] at h ⊢
  exact Keyed.get?_mapValues_eq_some_iff.mpr ⟨_, h, rfl⟩

theorem mutationRoot_reworded (h : mutationRoot schema.types config = .ok schema.mutation) :
    mutationRoot (schema.reworded wording).types config =
      .ok (schema.mutation.map (ObjectType.reworded wording)) := by
  rw [mutationRoot_eq_ok_iff] at h ⊢
  rcases h with ⟨hnone, hmutation⟩ | ⟨name, object, hname, hobject, hmutation⟩
  · exact Or.inl ⟨hnone, by rw [hmutation]; rfl⟩
  · refine Or.inr ⟨name, object.reworded wording, hname, ?_, by rw [hmutation]; rfl⟩
    exact Keyed.get?_mapValues_eq_some_iff.mpr ⟨_, hobject, rfl⟩

/-- A reworded registry is published as the schema it was published as, reworded. -/
theorem ofRegistry_reworded (hc : registry.Consistent)
    (h : ofRegistry config registry = .ok schema) :
    ofRegistry config (registry.reworded wording) = .ok (schema.reworded wording) := by
  obtain ⟨hsucceeds, htypes, hquery, hmutation⟩ := ofRegistry_eq_ok_iff.mp h
  have htypesReworded : ((Publication.mk registry config.options).reworded wording).types =
      schema.types.mapValues fun _ => TypeDefinition.reworded wording := by
    rw [Publication.types_reworded hc hsucceeds.built, htypes]
  exact ofRegistry_eq_ok_iff.mpr ⟨hsucceeds.reworded hc, htypesReworded, queryRoot_reworded hquery,
    mutationRoot_reworded hmutation⟩

theorem descriptionOf_reworded (hs : schema.Published)
    (hnone : ∀ element, wording element none = none) (element : Element) :
    (schema.reworded wording).descriptionOf element =
      wording element (schema.descriptionOf element) := by
  rw [descriptionOf, descriptionOf, type?_reworded]
  cases htype : schema.type? element.typeName with
  | none => exact (hnone element).symm
  | some type => exact type.descriptionOf_reworded hnone (hs.named htype).1

end Schema

end GraphSchema
