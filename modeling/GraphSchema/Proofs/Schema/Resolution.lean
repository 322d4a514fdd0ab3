/-
  GraphSchema.Proofs.Schema.Resolution — every value of an abstract type can be told.

  Two checks guard this. A union looks at its members once they are built; an interface
  is looked at by each object that lists it, before any object is built and under an
  option. Implementations are collected by a scan that checks nothing. In a published
  schema they agree: an interface or union that does not name types itself has only
  possible types with a predicate of their own, so each of them answers when values are
  tried against them in turn (`published_resolvable`).
-/

import GraphSchema.Schema.Dispatch
import GraphSchema.Proofs.Schema.Acceptance

namespace GraphSchema

namespace Schema

variable {config : SchemaConfig} {registry : TypeRegistry} {schema : Schema} {name : String}

/-- A published object has a predicate if its configuration has one. -/
theorem hasIsTypeOf_eq (h : ofRegistry config registry = .ok schema) {objectConfig : ObjectConfig}
    (hentry : registry.entries.get? name = some (.object objectConfig)) {object : ObjectType}
    (hobject : schema.object? name = some object) :
    object.hasIsTypeOf = objectConfig.isTypeOf.isSome := by
  have hpublished := object?_published h hentry
  rw [hobject] at hpublished
  rw [Option.some.inj hpublished]
  rfl

/-- In an interface, the implementing object's own check found its predicate. -/
theorem hasIsTypeOf_of_implements (h : ofRegistry config registry = .ok schema)
    (hb : registry.Buildable config.options) {interface : InterfaceConfig}
    (hinterface : registry.entries.get? name = some (.interface interface))
    (hnone : interface.resolveType = none) {object : ObjectType}
    (hobject : schema.object? object.name = some object)
    (hpossible : registry.Possible object.name name) : object.hasIsTypeOf = true := by
  cases hpossible with
  | implements objectConfig _ hentry _ hlisted =>
    obtain ⟨found, hfound, htold⟩ := hb.implementable _ objectConfig hentry name hlisted
    cases Keyed.eq_of_get?_eq_get? hinterface hfound
    rcases htold with hresolves | ⟨_, htold⟩
    · rw [hnone] at hresolves
      cases hresolves
    · exact (hasIsTypeOf_eq h hentry hobject).trans htold
  | member _ union _ hunion _ => cases Keyed.eq_of_get?_eq_get? hinterface hunion

/-- In a union, the union's check found the member's predicate. -/
theorem hasIsTypeOf_of_member (h : ofRegistry config registry = .ok schema)
    (hb : registry.Buildable config.options) {union : UnionConfig}
    (hunion : registry.entries.get? name = some (.union union))
    (hnone : union.resolveType = none) {object : ObjectType}
    (hobject : schema.object? object.name = some object)
    (hpossible : registry.Possible object.name name) : object.hasIsTypeOf = true := by
  cases hpossible with
  | implements _ interface _ hinterface _ => cases Keyed.eq_of_get?_eq_get? hunion hinterface
  | member _ other _ hother hlisted =>
    cases Keyed.eq_of_get?_eq_get? hunion hother
    obtain ⟨objectConfig, hentry, htold⟩ := hb.members name union hunion _ hlisted
    rcases htold with hresolves | htold
    · rw [hnone] at hresolves
      cases hresolves
    · exact (hasIsTypeOf_eq h hentry hobject).trans htold

theorem hasIsTypeOf_of_possibleTypes (hr : registry.Reachable)
    (h : ofRegistry config registry = .ok schema) {type : AbstractType}
    (htype : schema.abstract? name = some type) (hnone : type.resolveType = none)
    {object : ObjectType} (hmem : object ∈ type.possibleTypes) : object.hasIsTypeOf = true := by
  obtain ⟨hobject, hpossible⟩ := (mem_possibleTypes_iff hr h htype).mp hmem
  have hb : registry.Buildable config.options := (publishable_of_ofRegistry hr h).buildable
  rcases abstract?_published h htype with ⟨interface, hentry, hpublished⟩ |
    ⟨union, hentry, hpublished⟩
  · subst hpublished
    exact hasIsTypeOf_of_implements h hb hentry hnone hobject hpossible
  · subst hpublished
    exact hasIsTypeOf_of_member h hb hentry hnone hobject hpossible

/-- An interface or union names types itself, or each possible type tells its own values
and answers for every value. -/
theorem published_resolvable (hr : registry.Reachable)
    (h : ofRegistry config registry = .ok schema) {type : AbstractType}
    (htype : schema.abstract? name = some type) :
    (type.resolveType.isSome = true ∨
        ∀ object ∈ type.possibleTypes, object.hasIsTypeOf = true) ∧
      (type.resolveType = none → ∀ object ∈ type.possibleTypes, ∀ value info,
        ∃ answer, object.accepts? value info = some answer) := by
  constructor
  · cases hresolves : type.resolveType with
    | some resolver => exact Or.inl rfl
    | none =>
      exact Or.inr fun object hmem => hasIsTypeOf_of_possibleTypes hr h htype hresolves hmem
  · intro hnone object hmem value info
    have htold := hasIsTypeOf_of_possibleTypes hr h htype hnone hmem
    obtain ⟨isTypeOf, hisTypeOf⟩ := Option.isSome_iff_exists.mp htold
    exact ⟨isTypeOf value info, by rw [ObjectType.accepts?, hisTypeOf]; rfl⟩

/-- Nothing here names types itself: an interface with two implementations and a union of
them, each object with a predicate. -/
def aviary : TypeRegistry :=
  TypeRegistry.standard.run [
    .object {
      name := "Query"
      fields := .now (.ofList [("birds", { type := .list (.named "Bird") })]) },
    .interface { name := "Bird", fields := .now (.ofList [("ring", { type := .named "ID" })]) },
    .object {
      name := "Owl"
      fields := .now (.ofList [("ring", { type := .nonNull (.named "ID") })])
      interfaces := .now ["Bird"]
      isTypeOf := some fun value _ => value.string? == some "owl" },
    .object {
      name := "Wren"
      fields := .now (.ofList [("ring", { type := .named "ID" })])
      interfaces := .now ["Bird"]
      isTypeOf := some fun value _ => value.string? == some "wren" },
    .union { name := "Ringed", types := ["Wren", "Owl", "Wren"] }]

theorem aviary_reachable : aviary.Reachable := TypeRegistry.Reachable.standard.run _

/-- Without the option, the schema of the aviary has both abstract types, each with two
possible types. -/
theorem aviary_published :
    ∃ schema, ofRegistry { options := { requireInterfaceResolveType := false } } aviary = .ok schema ∧
      ∀ name ∈ ["Bird", "Ringed"], ∃ type, schema.abstract? name = some type ∧
        type.resolveType = none ∧ type.possibleTypes.length = 2 := by
  have hcheck : ((ofRegistry { options := { requireInterfaceResolveType := false } }
      aviary).toOption.any fun schema => ["Bird", "Ringed"].all fun name =>
        (schema.abstract? name).any fun type =>
          type.resolveType.isNone && type.possibleTypes.length == 2) = true := by decide +kernel
  obtain ⟨schema, hschema, hall⟩ := (Option.any_eq_true _ _).mp hcheck
  refine ⟨schema, toOption_eq_some_iff.mp hschema, ?_⟩
  intro name hname
  obtain ⟨type, htype, hboth⟩ :=
    (Option.any_eq_true _ _).mp (List.all_eq_true.mp hall name hname)
  obtain ⟨hnone, hlength⟩ := Bool.and_eq_true_iff.mp hboth
  exact ⟨type, htype, Option.isNone_iff_eq_none.mp hnone, eq_of_beq hlength⟩

/-- In the aviary every bird of either kind answers for every value. -/
theorem aviary_resolvable :
    ∃ schema, ofRegistry { options := { requireInterfaceResolveType := false } } aviary = .ok schema ∧
      ∀ name ∈ ["Bird", "Ringed"], ∃ type, schema.abstract? name = some type ∧
        type.possibleTypes.length = 2 ∧
        ∀ object ∈ type.possibleTypes, ∀ value info,
          ∃ answer, object.accepts? value info = some answer := by
  obtain ⟨schema, h, hall⟩ := aviary_published
  refine ⟨schema, h, ?_⟩
  intro name hname
  obtain ⟨type, htype, hnone, hlength⟩ := hall name hname
  exact ⟨type, htype, hlength, (published_resolvable aviary_reachable h htype).2 hnone⟩

end Schema

end GraphSchema
