/-
  GraphSchema.Proofs.Schema.Growth — what one more type does to a registry that publishes.

  No type that was published refers to a name that was not registered, except an input
  object, which leaves such fields out. So under one more entry every old entry is built
  to what it was, but that an interface may gain an implementation and an input object
  fields (`builds_grows`); possible types are only gained, so promises that were kept are
  kept (`conforms_grows`). What goes wrong is then laid to the new type: it fails with one
  error, or it breaks promises of the interfaces that it lists (`publish_registered`).
-/

import Mathlib.Data.List.Basic
import GraphSchema.Proofs.Registry.Extension
import GraphSchema.Proofs.Schema.Errors
import GraphSchema.Proofs.Schema.Published

namespace GraphSchema

/-- The interface as it was, but for the object, which is put last of the implementations
if it lists the interface. -/
structure InterfaceType.Grows (object : Option ObjectType) (interface grown : InterfaceType) :
    Prop where
  name : grown.name = interface.name
  description : grown.description = interface.description
  fields : grown.fields = interface.fields
  resolveType : grown.resolveType = interface.resolveType
  implementations : grown.implementations =
    interface.implementations ++ object.toList.filter (·.implements interface.name)

/-- The input object as it was, but for fields whose type ends in the name, which may
stand anywhere among the others. -/
structure InputObjectType.Grows (added : String) (input grown : InputObjectType) : Prop where
  name : grown.name = input.name
  description : grown.description = input.description
  fields : input.fields.entries.Sublist grown.fields.entries
  gained : ∀ entry ∈ grown.fields.entries, entry ∈ input.fields.entries ∨
    entry.2.type.innermostName = added

/-- What a type may become when a type of the name is registered, which is the object if it
is one. -/
inductive TypeDefinition.Grows (name : String) (object : Option ObjectType) :
    TypeDefinition → TypeDefinition → Prop
  | scalar (type : ScalarType) : Grows name object (.scalar type) (.scalar type)
  | enum (type : EnumType) : Grows name object (.enum type) (.enum type)
  | object (type : ObjectType) : Grows name object (.object type) (.object type)
  | union (type : UnionType) : Grows name object (.union type) (.union type)
  | interface {type grown : InterfaceType} : type.Grows object grown →
      Grows name object (.interface type) (.interface grown)
  | inputObject {type grown : InputObjectType} : type.Grows name grown →
      Grows name object (.inputObject type) (.inputObject grown)

/-- The object of that name among the types. -/
def objectIn? (types : Keyed TypeDefinition) (name : String) : Option ObjectType :=
  (types.get? name).bind TypeDefinition.object?

theorem objectIn?_eq_some_iff {types : Keyed TypeDefinition} {name : String} {object : ObjectType} :
    objectIn? types name = some object ↔ types.get? name = some (.object object) := by
  simp only [objectIn?, Option.bind_eq_some_iff, TypeDefinition.object?_eq_some_iff, exists_eq_right]

/-- No possible type is lost. -/
theorem TypeDefinition.Grows.possibleTypes {name : String} {object : Option ObjectType}
    {type grown : TypeDefinition} (h : type.Grows name object grown) {abstract : AbstractType}
    (habstract : type.abstract? = some abstract) :
    ∃ other, grown.abstract? = some other ∧
      ∀ possible ∈ abstract.possibleTypes, possible ∈ other.possibleTypes := by
  cases h with
  | union type => exact ⟨abstract, habstract, fun _ hpossible => hpossible⟩
  | @interface type grown hgrows =>
    cases habstract
    refine ⟨.interface grown, rfl, fun possible hpossible => ?_⟩
    show possible ∈ grown.implementations
    rw [hgrows.implementations]
    exact List.mem_append_left _ hpossible
  | _ => cases habstract

namespace Publication

variable {registry extended : TypeRegistry} {options : BuildOptions} {name : String}
  {entry : Registered}

/-! ## Objects -/

theorem get?_types_self (h : extended.Extends registry name entry) :
    (types ⟨extended, options⟩).get? name = (build ⟨extended, options⟩ name entry).toOption := by
  rw [types, Keyed.get?_filterMap, h.get?_self]
  rfl

theorem valid_extended (h : extended.Extends registry name entry) {key : String}
    {config : ObjectConfig} (hentry : registry.entries.get? key = some (.object config))
    (hvalid : config.Valid (registry.addedTo key) registry.kindTable options) :
    config.Valid (extended.addedTo key) extended.kindTable options := by
  rw [h.added key (h.ne_of_get? hentry)]
  exact hvalid.mono h.kindTable_within

/-- The new object, if there is one, comes last. -/
theorem objects_extended (h : extended.Extends registry name entry)
    (hb : (Publication.mk registry options).AllBuilt) :
    objects ⟨extended, options⟩ =
      objects ⟨registry, options⟩ ++ (objectIn? (types ⟨extended, options⟩) name).toList := by
  unfold objects
  rw [h.entries_eq, List.filterMap_append]
  refine congrArg₂ (· ++ ·) (List.filterMap_congr fun named hnamed => ?_) ?_
  · obtain ⟨key, other⟩ := named
    cases other with
    | object config =>
      have hentry := Keyed.get?_eq_some_iff.mpr hnamed
      have hvalid := hb.objectsValid key config hentry
      have hadded := h.added key (h.ne_of_get? hentry)
      have hold := buildObject_eq_ok_iff.mpr ⟨hvalid, rfl⟩
      have hnew : buildObject ⟨extended, options⟩ key config =
          .ok (config.published (registry.addedTo key)) :=
        buildObject_eq_ok_iff.mpr ⟨valid_extended h hentry hvalid, by rw [← hadded]⟩
      simp only [hold, hnew]
    | _ => rfl
  · rw [objectIn?, get?_types_self h, object?_build]
    cases entry with
    | object config =>
      cases hbuild : buildObject ⟨extended, options⟩ name config with
      | error e => simp [hbuild, Except.toOption]
      | ok object => simp [hbuild, Except.toOption]
    | _ => rfl

/-- An object that was built lists no interface of the new name. -/
theorem implements_free (h : extended.Extends registry name entry) {object : ObjectType}
    (hobject : object ∈ objects ⟨registry, options⟩) : object.implements name = false := by
  obtain ⟨key, config, _, hbuild⟩ := mem_objects_iff.mp hobject
  obtain ⟨hvalid, hpublished⟩ := buildObject_eq_ok_iff.mp hbuild
  subst hpublished
  rw [← Bool.not_eq_true, ObjectConfig.implements_published]
  intro hlisted
  obtain ⟨_, hkind, _⟩ := ObjectConfig.checkInterface_eq_ok_iff.mp (hvalid.interfaces name hlisted)
  have hnone : registry.kindTable.named? name = none := by
    rw [TypeRegistry.named?_kindTable, h.free]
    rfl
  rw [kinds, hnone] at hkind
  cases hkind

/-- So an interface of the new name is implemented by none. -/
theorem implementations_self (hx : extended.Consistent)
    (h : extended.Extends registry name entry) (hb : (Publication.mk registry options).AllBuilt)
    {interface : InterfaceType}
    (htype : (types ⟨extended, options⟩).get? name = some (.interface interface)) :
    interface.implementations = [] := by
  obtain ⟨other, hother, hbuilds⟩ := get?_types_eq_some_iff.mp htype
  cases hbuilds with
  | interface config _ =>
    have hname : config.name = name := (hx.named name _ hother).1
    have hobjects : objects ⟨extended, options⟩ = objects ⟨registry, options⟩ := by
      rw [objects_extended h hb, objectIn?, htype]
      exact List.append_nil _
    simp only [InterfaceConfig.published, hobjects, hname]
    exact List.filter_eq_nil_iff.mpr fun object hobject => by simp [implements_free h hobject]

/-! ## Building -/

theorem inputObject_extended (h : extended.Extends registry name entry)
    (config : InputObjectConfig) :
    (config.published (kinds ⟨registry, options⟩)).Grows name
      (config.published (kinds ⟨extended, options⟩)) where
  name := rfl
  description := rfl
  fields := by
    refine Keyed.entries_filterMap_sublist (fun key fieldConfig field hfield => ?_) _
    obtain ⟨hvalid, hpublished⟩ :=
      InputFieldConfig.define_eq_ok_iff.mp (toOption_eq_some_iff.mp hfield)
    exact toOption_eq_some_iff.mpr
      (InputFieldConfig.define_eq_ok_iff.mpr ⟨hvalid.mono h.kindTable_within, hpublished⟩)
  gained := by
    intro named hnamed
    obtain ⟨key, field⟩ := named
    obtain ⟨fieldConfig, hconfig, hvalid, hpublished⟩ :=
      InputObjectConfig.get?_published_fields.mp (Keyed.get?_eq_some_iff.mpr hnamed)
    subst hpublished
    by_cases hname : fieldConfig.type.innermostName = name
    · exact Or.inr hname
    · obtain ⟨kind, hkind, hinput⟩ := KindTable.acceptsInput_eq_ok_iff.mp hvalid.type
      rw [kinds, h.named?_of_ne hname] at hkind
      have hold : fieldConfig.Valid (kinds ⟨registry, options⟩) key :=
        ⟨hvalid.name, KindTable.acceptsInput_eq_ok_iff.mpr ⟨kind, hkind, hinput⟩⟩
      exact Or.inl (Keyed.get?_eq_some_iff.mp
        (InputObjectConfig.get?_published_fields.mpr ⟨fieldConfig, hconfig, hold, rfl⟩))

section

variable (hc : registry.Consistent) (h : extended.Extends registry name entry)
  (hb : (Publication.mk registry options).AllBuilt)
include hc h hb

/-- A union keeps its members. -/
theorem union_extended {config : UnionConfig}
    (hvalid : config.Valid (objects ⟨registry, options⟩) (kinds ⟨registry, options⟩)) :
    config.Valid (objects ⟨extended, options⟩) (kinds ⟨extended, options⟩) ∧
      config.published (objects ⟨extended, options⟩) =
        config.published (objects ⟨registry, options⟩) := by
  -- Every member is among the old objects, and is found there first.
  have hmember : ∀ member ∈ config.types, ∃ object,
      (objects ⟨registry, options⟩).find? (·.name == member) = some object ∧
        (objects ⟨extended, options⟩).find? (·.name == member) = some object := by
    intro member hlisted
    obtain ⟨object, hobject, _⟩ :=
      (admits_iff hc hb.objectsValid).mp (hvalid.members member hlisted)
    have hfound := find?_objects_of_valid hc hb.objectsValid hobject
    refine ⟨_, hfound, ?_⟩
    rw [objects_extended h hb, List.find?_append, hfound]
    rfl
  constructor
  · refine ⟨hvalid.check, fun member hlisted => ?_⟩
    obtain ⟨object, hold, hnew⟩ := hmember member hlisted
    exact (UnionConfig.admits_iff_of_find? hnew).mpr
      ((UnionConfig.admits_iff_of_find? hold).mp (hvalid.members member hlisted))
  · have hmembers := UnionConfig.memberObjects_congr fun member hlisted => by
      obtain ⟨object, hold, hnew⟩ := hmember member hlisted
      exact hnew.trans hold.symm
    simp only [UnionConfig.published, hmembers]

/-- Whatever could be built can still be built, to the same but for what it gains. -/
theorem builds_grows {key : String} {other : Registered} {type : TypeDefinition}
    (hentry : registry.entries.get? key = some other)
    (hbuilds : Builds ⟨registry, options⟩ key other type) :
    ∃ grown, Builds ⟨extended, options⟩ key other grown ∧
      type.Grows name (objectIn? (types ⟨extended, options⟩) name) grown := by
  have hadded : extended.addedTo key = registry.addedTo key := h.added key (h.ne_of_get? hentry)
  cases hbuilds with
  | scalar type => exact ⟨_, .scalar type, .scalar type⟩
  | enum type => exact ⟨_, .enum type, .enum type⟩
  | object config hvalid =>
    refine ⟨_, .object config (valid_extended h hentry hvalid), ?_⟩
    simp only [hadded]
    exact .object _
  | interface config hvalid =>
    have hfields : ValidFields (kinds ⟨extended, options⟩)
        (config.fields.resolve.merge (extended.addedTo key)) := by
      rw [hadded]
      exact hvalid.mono h.kindTable_within
    refine ⟨_, .interface config hfields, .interface ⟨rfl, rfl, ?_, rfl, ?_⟩⟩
    · simp only [InterfaceConfig.published, hadded]
    · simp only [InterfaceConfig.published, objects_extended h hb, List.filter_append]
  | union config hvalid =>
    obtain ⟨hstill, hsame⟩ := union_extended hc h hb hvalid
    refine ⟨_, .union config hstill, ?_⟩
    rw [hsame]
    exact .union _
  | inputObject config hsome =>
    exact ⟨_, .inputObject config hsome, .inputObject (inputObject_extended h config)⟩

/-- No old entry fails. -/
theorem exists_builds_extended {key : String} {other : Registered}
    (hentry : registry.entries.get? key = some other) :
    ∃ type, Builds ⟨extended, options⟩ key other type := by
  obtain ⟨_, hbuilds⟩ := hb key other hentry
  obtain ⟨grown, hgrown, _⟩ := builds_grows hc h hb hentry hbuilds
  exact ⟨grown, hgrown⟩

theorem get?_types_grows {key : String} {type : TypeDefinition}
    (htype : (types ⟨registry, options⟩).get? key = some type) :
    ∃ grown, (types ⟨extended, options⟩).get? key = some grown ∧
      type.Grows name (objectIn? (types ⟨extended, options⟩) name) grown := by
  obtain ⟨other, hentry, hbuilds⟩ := get?_types_eq_some_iff.mp htype
  obtain ⟨grown, hgrown, hgrows⟩ := builds_grows hc h hb hentry hbuilds
  exact ⟨grown, get?_types_eq_some_iff.mpr ⟨other, h.get?_of_get? hentry, hgrown⟩, hgrows⟩

/-! ## Conformance -/

theorem isPossibleIn_grows {object type : String}
    (hpossible : isPossibleIn (types ⟨registry, options⟩) object type = true) :
    isPossibleIn (types ⟨extended, options⟩) object type = true := by
  obtain ⟨abstract, habstract, possible, hmem, hname⟩ := isPossibleIn_eq_true_iff.mp hpossible
  obtain ⟨definition, hdefinition, habstract⟩ := Option.bind_eq_some_iff.mp habstract
  obtain ⟨grown, hgrown, hgrows⟩ := get?_types_grows hc h hb hdefinition
  obtain ⟨other, hother, hkept⟩ := hgrows.possibleTypes habstract
  exact isPossibleIn_eq_true_iff.mpr
    ⟨other, by rw [hgrown]; exact hother, possible, hkept possible hmem, hname⟩

/-- Promises that were kept are kept. -/
theorem conforms_grows {interface grown : InterfaceType}
    (hfields : grown.fields = interface.fields) {object : ObjectType}
    (hconforms : Conforms (types ⟨registry, options⟩) interface object) :
    Conforms (types ⟨extended, options⟩) grown object := by
  intro field expected hexpected
  rw [InterfaceType.field?, hfields] at hexpected
  obtain ⟨found, hfound, hkeeps⟩ := hconforms field expected hexpected
  refine ⟨found, hfound, ?_, hkeeps.args⟩
  exact isCovariant_mono (fun _ _ => isPossibleIn_grows hc h hb) hkeeps.type

/-! ## Errors -/

/-- A type under an old name was built before, to what it has grown from. -/
theorem grows_of_get?_types {key : String} (hkey : key ≠ name) {grown : TypeDefinition}
    (hgrown : (types ⟨extended, options⟩).get? key = some grown) :
    ∃ type, (types ⟨registry, options⟩).get? key = some type ∧
      type.Grows name (objectIn? (types ⟨extended, options⟩) name) grown := by
  obtain ⟨other, hother, _⟩ := get?_types_eq_some_iff.mp hgrown
  rw [h.get?_of_ne hkey] at hother
  obtain ⟨type, hbuilds⟩ := hb key other hother
  have htype := get?_types_eq_some_iff.mpr ⟨other, hother, hbuilds⟩
  obtain ⟨same, hsame, hgrows⟩ := get?_types_grows hc h hb htype
  cases Keyed.eq_of_get?_eq_get? hgrown hsame
  exact ⟨type, htype, hgrows⟩

/-- If the new entry fails, no other does. -/
theorem definitionErrors_extended {error : TypeError}
    (hbuild : build ⟨extended, options⟩ name entry = .error error) :
    definitionErrors ⟨extended, options⟩ = [error] := by
  have hkind : ∀ kind, errorsOfKind ⟨extended, options⟩ kind =
      if entry.kind = kind then [error] else [] := by
    intro kind
    unfold errorsOfKind
    rw [h.entries_eq, List.filterMap_append]
    refine (congrArg (· ++ _) (List.filterMap_eq_nil_iff.mpr fun named hnamed => ?_)).trans ?_
    · obtain ⟨type, hbuilds⟩ := exists_builds_extended hc h hb (Keyed.get?_eq_some_iff.mpr hnamed)
      simp only [build_of_builds hbuilds]
    · by_cases hsame : entry.kind = kind
      · simp [hbuild, hsame]
      · simp [hbuild, hsame]
  rw [definitionErrors, funext hkind]
  exact flatMap_phases (kind_mem_phases hbuild) error

end

section

variable (hc : registry.Consistent) (hx : extended.Consistent)
  (h : extended.Extends registry name entry) (hs : (Publication.mk registry options).Succeeds)
include hc hx h hs

/-- Only the new object can break a promise. -/
theorem breaksPromise_extended {error : TypeError}
    (herror : error ∈ conformanceErrors (types ⟨extended, options⟩)) :
    (∃ object, (types ⟨extended, options⟩).get? name = some (.object object)) ∧
      ∃ interface, error.BreaksPromise interface name := by
  obtain ⟨key, interface, htype, object, hmem, herror⟩ := mem_conformanceErrors_iff.mp herror
  by_cases hkey : key = name
  · subst hkey
    rw [implementations_self hx h hs.built htype] at hmem
    cases hmem
  · obtain ⟨type, hold, hgrows⟩ := grows_of_get?_types hc h hs.built hkey htype
    cases hgrows with
    | @interface type _ hgrows =>
      rw [hgrows.implementations] at hmem
      rcases List.mem_append.mp hmem with hmem | hmem
      · have hkept := hs.conforms key type hold object hmem
        have hconforms := conforms_grows hc h hs.built hgrows.fields hkept
        rw [checkImplementation_eq_nil_iff.mpr hconforms] at herror
        cases herror
      · have hobject := objectIn?_eq_some_iff.mp (Option.mem_toList.mp (List.mem_filter.mp hmem).1)
        have hname : object.name = name := ((get?_types_eq_object_iff hx).mp hobject).2
        exact ⟨⟨object, hobject⟩, interface.name, hname ▸ breaksPromise_of_mem herror⟩

theorem errors_of_failed {error : TypeError}
    (hbuild : build ⟨extended, options⟩ name entry = .error error) :
    errors ⟨extended, options⟩ = [error] := by
  have hconform : conformanceErrors (types ⟨extended, options⟩) = [] := by
    refine List.eq_nil_iff_forall_not_mem.mpr fun broken hbroken => ?_
    obtain ⟨⟨object, hobject⟩, _⟩ := breaksPromise_extended hc hx h hs hbroken
    rw [get?_types_self h, hbuild] at hobject
    cases hobject
  rw [errors, definitionErrors_extended hc h hs.built hbuild, hconform, List.append_nil]

theorem errors_of_built {type : TypeDefinition}
    (hbuild : build ⟨extended, options⟩ name entry = .ok type) :
    ∀ error ∈ errors ⟨extended, options⟩, ∃ interface, error.BreaksPromise interface name := by
  have hbuilt : (Publication.mk extended options).AllBuilt := by
    intro key other hother
    by_cases hkey : key = name
    · subst hkey
      cases Keyed.eq_of_get?_eq_get? hother h.get?_self
      exact ⟨type, builds_of_build hbuild⟩
    · rw [h.get?_of_ne hkey] at hother
      exact exists_builds_extended hc h hs.built hother
  intro error herror
  rw [errors, definitionErrors_eq_nil_iff.mpr hbuilt, List.nil_append] at herror
  exact (breaksPromise_extended hc hx h hs herror).2

end

end Publication

/-! ## Publication -/

/-- What comes of publishing with a type of that name besides those of published types. -/
structure TypeRegistry.Spares (extended : TypeRegistry) (options : BuildOptions) (name : String)
    (types : Keyed TypeDefinition) : Prop where
  /-- The new type cannot be built, and its error is the only one, or it breaks promises. -/
  refused : ∀ failure, publish extended options = .error failure →
    (∃ entry error, extended.entries.get? name = some entry ∧
        Publication.build ⟨extended, options⟩ name entry = .error error ∧
        failure.errors = [error]) ∨
      ∀ error ∈ failure.errors, ∃ interface, error.BreaksPromise interface name
  accepted : ∀ others, publish extended options = .ok others →
    ∀ key type, types.get? key = some type →
      ∃ grown, others.get? key = some grown ∧ type.Grows name (objectIn? others name) grown

/-- Registering one more type, with any fields added to it, spares what was published. -/
theorem publish_registered {registry registered : TypeRegistry} (hr : registry.Reachable)
    {options : BuildOptions} {types : Keyed TypeDefinition}
    (hpublished : publish registry options = .ok types) {call : Registration} {name : String}
    (hcall : call.apply registry = .ok (registered, some (.named name)))
    (fields : List (String × FieldConfig)) :
    (registered.run (fields.map fun field => .addField name field.1 field.2)).Spares options name
      types := by
  obtain ⟨hs, htypes⟩ := publish_eq_ok_iff.mp hpublished
  obtain ⟨entry, h⟩ := TypeRegistry.extends_of_calls hcall fields
  have hregistered : call.after registry = registered := by rw [Registration.after, hcall]
  have hx := ((hr.call call).run
    (fields.map fun field => .addField name field.1 field.2)).consistent
  rw [hregistered] at hx
  subst htypes
  constructor
  · intro failure hfailure
    rw [← (publish_eq_error_iff.mp hfailure).2]
    cases hbuild : Publication.build ⟨_, options⟩ name entry with
    | error error =>
      exact Or.inl ⟨entry, error, h.get?_self, hbuild,
        Publication.errors_of_failed hr.consistent hx h hs hbuild⟩
    | ok type => exact Or.inr (Publication.errors_of_built hr.consistent hx h hs hbuild)
  · intro others hothers key type htype
    rw [← (publish_eq_ok_iff.mp hothers).2]
    exact Publication.get?_types_grows hr.consistent h hs.built htype

/-- A work for the catalogue, without fields of its own. -/
def disc : Registration := .object { name := "Disc", interfaces := .now ["Work"] }

def discFields : List (String × FieldConfig) := [
  ("title", { type := .nonNull (.named "String") }),
  ("related", { type := .list (.named "Map"), args := .ofList [("first", { type := .named "Int" })] })]

theorem catalogue_spared_by_disc :
    ∃ types, publish catalogue {} = .ok types ∧
      ((disc.after catalogue).run
        (discFields.map fun field => .addField "Disc" field.1 field.2)).Spares {} "Disc" types ∧
      (publish ((disc.after catalogue).run
        (discFields.map fun field => .addField "Disc" field.1 field.2)) {}).isOk = true := by
  obtain ⟨types, htypes⟩ : ∃ types, publish catalogue {} = .ok types :=
    exists_of_isOk (by decide +kernel)
  have hcall : disc.apply catalogue = .ok (disc.after catalogue, some (.named "Disc")) := rfl
  exact ⟨types, htypes, publish_registered catalogue_reachable htypes hcall discFields,
    by decide +kernel⟩

end GraphSchema
