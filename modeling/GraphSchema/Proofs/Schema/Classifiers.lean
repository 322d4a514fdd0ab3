/-
  GraphSchema.Proofs.Schema.Classifiers — references judged by name and by type.

  What a reference may be used for is decided twice: on names, by the kind table, before
  any type is built, and on the type a reference resolves to. In the table a scalar without
  readers is an exception noted beside the kinds; of a resolved type the scalar itself is
  asked. The two agree (`reference_mirrored`): a reference resolves exactly if the table
  knows the name it ends in, to a type that is written as the reference is and wrapped as it
  is, and both classifiers give one answer. The wrappers have no part in it, since a reference
  resolves to its wrappers around one definition (`resolve?_eq`).
-/

import GraphSchema.Proofs.Schema.Published

namespace GraphSchema

/-! ## Wrappers -/

namespace TypeRef

theorem display_around (type : TypeRef) {definition : TypeDefinition}
    (h : definition.name = type.innermostName) :
    (type.around definition).display = type.display := by
  induction type with
  | named _ => exact h
  | list item ih => rw [around, ResolvedType.display, ih h, display]
  | nonNull item ih => rw [around, ResolvedType.display, ih h, display]

theorem nullable_around (type : TypeRef) (definition : TypeDefinition) :
    (type.around definition).nullable = type.nullable.around definition := by
  cases type <;> rfl

end TypeRef

theorem KindTable.contains_kinds_iff {table : KindTable} {name : String} :
    table.kinds.contains name = true ↔ ∃ kind, table.named? name = some kind := by
  unfold named?
  rw [Keyed.contains, Option.isSome_iff_exists]
  cases found : table.kinds.get? name with
  | none => simp
  | some kind =>
    have wrappers := table.unwrapped name
    rw [found] at wrappers
    refine iff_of_true ⟨kind, rfl⟩ ?_
    cases kind with
    | list => exact absurd rfl wrappers.1
    | nonNull => exact absurd rfl wrappers.2
    | _ => exact ⟨_, rfl⟩

namespace Schema

/-- What a reference resolves to shows it unchanged, and is used as the table says. -/
structure Mirrors (schema : Schema) (table : KindTable) (type : TypeRef) (resolved : ResolvedType) :
    Prop where
  display : resolved.display = type.display
  name : resolved.definition.name = type.innermostName
  nullable : schema.resolve? type.nullable = some resolved.nullable
  output : table.acceptsOutput type = .ok resolved.isOutput
  input : table.acceptsInput type = .ok resolved.isInput

variable {config : SchemaConfig} {registry : TypeRegistry} {schema : Schema}

/-- The types of a schema have the names the kind table knows, each used as the table says. -/
theorem known_iff_type? (h : ofRegistry config registry = .ok schema) {name : String} :
    (∃ kind, registry.kindTable.named? name = some kind) ↔
      ∃ definition, schema.type? name = some definition := by
  rw [TypeRegistry.named?_kindTable]
  constructor
  · intro known
    obtain ⟨kind, hkind⟩ := known
    obtain ⟨entry, hentry, _⟩ := Option.map_eq_some_iff.mp hkind
    obtain ⟨definition, hdefinition, _⟩ := exists_type? h hentry
    exact ⟨definition, hdefinition⟩
  · intro found
    obtain ⟨definition, hdefinition⟩ := found
    obtain ⟨entry, hentry, _⟩ := (type?_eq_some_iff h).mp hdefinition
    exact ⟨entry.namedKind, by rw [hentry]; rfl⟩

theorem mirrors_of_resolve? (hr : registry.Reachable) (h : ofRegistry config registry = .ok schema)
    {type : TypeRef} {resolved : ResolvedType} (hresolved : schema.resolve? type = some resolved) :
    schema.Mirrors registry.kindTable type resolved := by
  rw [resolve?_eq, Option.map_eq_some_iff] at hresolved
  obtain ⟨definition, hdefinition, rfl⟩ := hresolved
  obtain ⟨entry, hentry, hbuilds⟩ := (type?_eq_some_iff h).mp hdefinition
  have hname : definition.name = type.innermostName := hbuilds.name_eq_key hr.consistent hentry
  have known : registry.kindTable.named? type.innermostName = some entry.namedKind := by
    rw [TypeRegistry.named?_kindTable, hentry]
    rfl
  constructor
  case display => exact type.display_around hname
  case name => rw [TypeRef.definition_around, hname]
  case nullable =>
    rw [resolve?_eq, TypeRef.innermostName_nullable, hdefinition, TypeRef.nullable_around]
    rfl
  case output =>
    rw [ResolvedType.isOutput_eq, TypeRef.definition_around, hbuilds.isOutput_eq]
    exact KindTable.acceptsOutput_eq_ok_iff.mpr ⟨_, known, rfl⟩
  case input =>
    rw [ResolvedType.isInput_eq, TypeRef.definition_around, hbuilds.isInput_eq]
    exact KindTable.acceptsInput_eq_ok_iff.mpr ⟨_, known, rfl⟩

/-- A reference resolves exactly if the kind table knows its name, and then to its mirror. -/
theorem reference_mirrored (hr : registry.Reachable) (h : ofRegistry config registry = .ok schema)
    (type : TypeRef) :
    ((schema.resolve? type).isSome = true ↔
        registry.kindTable.kinds.contains type.innermostName = true) ∧
      ∀ resolved, schema.resolve? type = some resolved →
        schema.Mirrors registry.kindTable type resolved := by
  refine ⟨?_, fun resolved hresolved => mirrors_of_resolve? hr h hresolved⟩
  rw [KindTable.contains_kinds_iff, known_iff_type? h, resolve?_eq, Option.isSome_map,
    Option.isSome_iff_exists]

/-- A scalar that is only written, and a field of it. -/
def gauge : TypeRegistry :=
  TypeRegistry.standard.run [
    .scalar { name := "Odd", serialize := some some },
    .object {
      name := "Query"
      fields := .now (.ofList [("odds", { type := .list (.nonNull (.named "Odd")) })]) }]

/-- A list of what is never read answers a field and is no input, for either classifier. -/
theorem gauge_mirrored :
    let odds : TypeRef := .list (.nonNull (.named "Odd"))
    gauge.Reachable ∧ ∃ schema resolved, ofRegistry {} gauge = .ok schema ∧
      schema.resolve? odds = some resolved ∧ schema.Mirrors gauge.kindTable odds resolved ∧
      resolved.isOutput = true ∧ resolved.isInput = false := by
  intro odds
  have reachable : gauge.Reachable := TypeRegistry.Reachable.standard.run _
  obtain ⟨schema, h⟩ : ∃ schema, ofRegistry {} gauge = .ok schema :=
    exists_of_isOk (by decide +kernel)
  obtain ⟨resolves, mirrored⟩ := reference_mirrored reachable h odds
  obtain ⟨resolved, hresolved⟩ := Option.isSome_iff_exists.mp (resolves.mpr (by decide))
  have mirrors := mirrored resolved hresolved
  have output : gauge.kindTable.acceptsOutput odds = .ok true := by rfl
  have input : gauge.kindTable.acceptsInput odds = .ok false := by rfl
  refine ⟨reachable, schema, resolved, h, hresolved, mirrors, ?_, ?_⟩
  · exact Except.ok.inj (mirrors.output.symm.trans output)
  · exact Except.ok.inj (mirrors.input.symm.trans input)

end Schema

end GraphSchema
