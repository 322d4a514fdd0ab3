/-
  GraphSchema.Proofs.Schema.Dispatch — the object a value of an abstract type is taken for.

  An abstract type keeps a list of objects and a list of their names, filled by two
  different builders: an interface scans the objects that were built, a union looks up the
  names it lists. In a published schema the two agree and nothing is in them twice, so an
  answer is determined (`Answers`): the possible type of the name the type gives for the
  value, or, if it gives no names at all, the first possible type whose predicate accepts
  the value (`published_dispatch`).
-/

import GraphSchema.Proofs.Schema.Resolution
import GraphSchema.Proofs.Schema.Substitution

namespace GraphSchema

namespace AbstractType

/-- What an abstract type may answer for a value. -/
inductive Answers (type : AbstractType) (value : Json) (info : ResolveInfo) :
    Option ObjectType → Prop
  | named (resolver : TypeResolver) (object : ObjectType) : type.resolveType = some resolver →
      resolver value info = some object.name → object ∈ type.possibleTypes →
      Answers type value info (some object)
  | unnamed (resolver : TypeResolver) : type.resolveType = some resolver →
      resolver value info = none → Answers type value info none
  | impossible (resolver : TypeResolver) (name : String) : type.resolveType = some resolver →
      resolver value info = some name → name ∉ type.possibleTypes.map ObjectType.name →
      Answers type value info none
  /-- The objects before it were tried first and did not accept the value. -/
  | accepted (object : ObjectType) (before after : List ObjectType) : type.resolveType = none →
      type.possibleTypes = before ++ object :: after →
      object.accepts? value info = some true →
      (∀ earlier ∈ before, earlier.accepts? value info ≠ some true) →
      Answers type value info (some object)
  | refused : type.resolveType = none →
      (∀ object ∈ type.possibleTypes, object.accepts? value info ≠ some true) →
      Answers type value info none

variable {type : AbstractType} {value : Json} {info : ResolveInfo}

theorem objectType?_of_resolveType {resolver : TypeResolver}
    (h : type.resolveType = some resolver) :
    type.objectType? value info = (resolver value info).bind type.possibleType? := by
  rw [objectType?, h]

theorem objectType?_of_predicates (h : type.resolveType = none) :
    type.objectType? value info =
      type.possibleTypes.find? fun object => object.accepts? value info == some true := by
  rw [objectType?, h]

theorem possibleType?_eq_none_iff {name : String} :
    type.possibleType? name = none ↔ name ∉ type.possibleTypes.map ObjectType.name := by
  simp [possibleType?]

theorem answers_objectType? (type : AbstractType) (value : Json) (info : ResolveInfo) :
    type.Answers value info (type.objectType? value info) := by
  cases hresolve : type.resolveType with
  | some resolver =>
    rw [objectType?_of_resolveType hresolve]
    cases hname : resolver value info with
    | none => exact .unnamed resolver hresolve hname
    | some name =>
      show type.Answers value info (type.possibleType? name)
      cases hfound : type.possibleType? name with
      | none => exact .impossible resolver name hresolve hname (possibleType?_eq_none_iff.mp hfound)
      | some object =>
        have hobject : object.name = name := by simpa using List.find?_some hfound
        exact .named resolver object hresolve (hobject ▸ hname) (List.mem_of_find?_eq_some hfound)
  | none =>
    rw [objectType?_of_predicates hresolve]
    cases hfound : type.possibleTypes.find? fun object => object.accepts? value info == some true with
    | none =>
      refine .refused hresolve fun object hobject => ?_
      simpa using List.find?_eq_none.mp hfound object hobject
    | some object =>
      obtain ⟨haccepts, before, after, hsplit, hbefore⟩ := List.find?_eq_some_iff_append.mp hfound
      refine .accepted object before after hresolve hsplit (by simpa using haccepts) ?_
      intro earlier hearlier
      simpa using hbefore earlier hearlier

theorem objectType?_of_answers (hdistinct : (type.possibleTypes.map ObjectType.name).Nodup)
    {answer : Option ObjectType} (h : type.Answers value info answer) :
    type.objectType? value info = answer := by
  cases h with
  | named resolver object hresolve hname hobject =>
    rw [objectType?_of_resolveType hresolve, hname]
    exact (find?_key_eq_some_iff hdistinct).mpr ⟨hobject, rfl⟩
  | unnamed resolver hresolve hname => rw [objectType?_of_resolveType hresolve, hname]; rfl
  | impossible resolver name hresolve hname himpossible =>
    rw [objectType?_of_resolveType hresolve, hname]
    exact possibleType?_eq_none_iff.mpr himpossible
  | accepted object before after hresolve hsplit haccepts hbefore =>
    rw [objectType?_of_predicates hresolve]
    refine List.find?_eq_some_iff_append.mpr ⟨by simpa using haccepts, before, after, hsplit, ?_⟩
    intro earlier hearlier
    simpa using hbefore earlier hearlier
  | refused hresolve hrefused =>
    rw [objectType?_of_predicates hresolve]
    refine List.find?_eq_none.mpr fun object hobject => ?_
    simpa using hrefused object hobject

/-- Under distinct names the answer is determined. -/
theorem objectType?_eq_iff (hdistinct : (type.possibleTypes.map ObjectType.name).Nodup)
    {answer : Option ObjectType} :
    type.objectType? value info = answer ↔ type.Answers value info answer := by
  constructor
  · intro h
    exact h ▸ answers_objectType? type value info
  · exact objectType?_of_answers hdistinct

/-- Of a type that names types itself, predicates are never asked: among objects of the
same names the name of the answer is the same, whatever their predicates. -/
theorem map_name_objectType? {other : AbstractType} {resolver : TypeResolver}
    (h : type.resolveType = some resolver) (hother : other.resolveType = some resolver)
    (hnames : other.possibleTypes.map ObjectType.name = type.possibleTypes.map ObjectType.name) :
    (other.objectType? value info).map ObjectType.name =
      (type.objectType? value info).map ObjectType.name := by
  -- A name is found among the names themselves.
  have hfind : ∀ (candidates : List ObjectType) (name : String),
      (candidates.find? fun object => object.name == name).map ObjectType.name =
        (candidates.map ObjectType.name).find? (· == name) := by
    intro candidates name
    rw [List.find?_map]
    rfl
  rw [objectType?_of_resolveType h, objectType?_of_resolveType hother]
  cases resolver value info with
  | none => rfl
  | some name =>
    show (other.possibleTypes.find? _).map _ = (type.possibleTypes.find? _).map _
    rw [hfind, hfind, hnames]

end AbstractType

/-! ## Possible types -/

namespace Schema

/-- The objects of a schema, in the order of its types. -/
def objects (schema : Schema) : List ObjectType := schema.types.values.filterMap TypeDefinition.object?

variable {config : SchemaConfig} {registry : TypeRegistry} {schema : Schema} {name : String}

theorem objects_eq (h : ofRegistry config registry = .ok schema) :
    schema.objects = (Publication.mk registry config.options).objects := by
  rw [Publication.objects_eq_filterMap_types, types_eq h, objects]

/-- Names are not repeated: those of objects are keys of the registry, and a union passes
over a name it has seen. -/
theorem nodup_name_possibleTypes (hr : registry.Reachable)
    (h : ofRegistry config registry = .ok schema) {type : AbstractType}
    (htype : schema.abstract? name = some type) :
    (type.possibleTypes.map ObjectType.name).Nodup := by
  rcases abstract?_published h htype with ⟨interface, _, hpublished⟩ | ⟨union, _, hpublished⟩
  · subst hpublished
    have hobjects : ((Publication.mk registry config.options).objects.map ObjectType.name).Nodup :=
      Publication.nodup_name_objects hr.consistent
    exact hobjects.sublist (List.filter_sublist.map ObjectType.name)
  · subst hpublished
    exact UnionConfig.nodup_name_memberObjects _ union.types

theorem implementations_eq (h : ofRegistry config registry = .ok schema)
    {interface : InterfaceType} (htype : schema.abstract? name = some (.interface interface)) :
    interface.implementations = schema.objects.filter (·.implements interface.name) := by
  rcases abstract?_published h htype with ⟨interfaceConfig, _, hpublished⟩ | ⟨_, _, hpublished⟩
  · cases hpublished
    rw [objects_eq h]
    rfl
  · cases hpublished

theorem map_name_members (hr : registry.Reachable) (h : ofRegistry config registry = .ok schema)
    {union : UnionType} (htype : schema.abstract? name = some (.union union)) :
    ∃ unionConfig, registry.entries.get? name = some (.union unionConfig) ∧
      union.types.map ObjectType.name = unionConfig.types.eraseDups := by
  rcases abstract?_published h htype with ⟨_, _, hpublished⟩ | ⟨unionConfig, hentry, hpublished⟩
  · cases hpublished
  · cases hpublished
    refine ⟨unionConfig, hentry, UnionConfig.map_name_memberObjects fun member hmember => ?_⟩
    -- Every member is registered as an object, and no object failed.
    have hbuildable := (publishable_of_ofRegistry hr h).buildable
    obtain ⟨object, hobject, _⟩ := hbuildable.members name unionConfig hentry member hmember
    exact ⟨_, Publication.find?_objects_of_valid hr.consistent
      (succeeds h).built.objectsValid hobject⟩

/-! ## Answers -/

/-- The possible types of an abstract type and its answers for values, as far as they are
settled by the schema and by what was registered under its name. -/
structure DispatchesExactly (schema : Schema) (registry : TypeRegistry) (name : String)
    (type : AbstractType) : Prop where
  distinct : (type.possibleTypes.map ObjectType.name).Nodup
  implementations : ∀ interface, type = .interface interface →
    type.possibleTypes = schema.objects.filter (·.interfaces.contains type.name)
  /-- Members come in the order of first mention. -/
  members : ∀ union, type = .union union →
    ∃ config, registry.entries.get? name = some (.union config) ∧
      type.possibleTypes.map ObjectType.name = config.types.eraseDups
  possible : ∀ object : ObjectType, type.isPossibleType object.name = true ↔
    object.name ∈ type.possibleTypes.map ObjectType.name
  answers : ∀ value info answer,
    type.objectType? value info = answer ↔ type.Answers value info answer
  /-- Predicates do not matter to a type that names types itself. -/
  unasked : ∀ resolver, type.resolveType = some resolver → ∀ other : AbstractType,
    other.resolveType = some resolver →
    other.possibleTypes.map ObjectType.name = type.possibleTypes.map ObjectType.name →
    ∀ value info, (other.objectType? value info).map ObjectType.name =
      (type.objectType? value info).map ObjectType.name
  known : ∀ value info object, type.objectType? value info = some object →
    schema.object? object.name = some object ∧ type.isPossibleType object.name = true

/-- Every abstract type of a published schema dispatches exactly. -/
theorem published_dispatch (hr : registry.Reachable) (h : ofRegistry config registry = .ok schema)
    {type : AbstractType} (htype : schema.abstract? name = some type) :
    schema.DispatchesExactly registry name type where
  distinct := nodup_name_possibleTypes hr h htype
  implementations := by
    intro interface heq
    subst heq
    exact implementations_eq h htype
  members := by
    intro union heq
    subst heq
    exact map_name_members hr h htype
  possible := by
    intro object
    rw [AbstractType.isPossibleType_eq_true_iff, List.mem_map]
  answers := fun _ _ _ => AbstractType.objectType?_eq_iff (nodup_name_possibleTypes hr h htype)
  unasked := fun _ hresolve _ hother hnames _ _ =>
    AbstractType.map_name_objectType? hresolve hother hnames
  known := by
    intro value info object hanswer
    have hmem := mem_possibleTypes_of_objectType? hanswer
    exact ⟨((mem_possibleTypes_iff hr h htype).mp hmem).1,
      AbstractType.isPossibleType_eq_true_iff.mpr ⟨object, hmem, rfl⟩⟩

/-- The union of ringed birds mentions the wren before and after the owl: two members are
tried, the wren first. -/
theorem aviary_dispatch :
    aviary.Reachable ∧ ∃ schema type,
      ofRegistry { options := { requireInterfaceResolveType := false } } aviary = .ok schema ∧
        schema.abstract? "Ringed" = some type ∧
        type.possibleTypes.map ObjectType.name = ["Wren", "Owl"] ∧
        schema.DispatchesExactly aviary "Ringed" type := by
  have hcheck : ((ofRegistry { options := { requireInterfaceResolveType := false } }
      aviary).toOption.any fun schema => (schema.abstract? "Ringed").any fun type =>
        type.possibleTypes.map ObjectType.name == ["Wren", "Owl"]) = true := by decide +kernel
  obtain ⟨schema, hschema, hcheck⟩ := (Option.any_eq_true _ _).mp hcheck
  obtain ⟨type, htype, hnames⟩ := (Option.any_eq_true _ _).mp hcheck
  have h := toOption_eq_some_iff.mp hschema
  exact ⟨aviary_reachable, schema, type, h, htype, eq_of_beq hnames,
    published_dispatch aviary_reachable h htype⟩

end Schema

end GraphSchema
