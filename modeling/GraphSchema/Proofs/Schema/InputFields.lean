/-
  GraphSchema.Proofs.Schema.InputFields — input objects that lose their fields.

  An input object must be configured with at least one entry, and that is checked before
  any entry is. Entries are then left out one by one, for three reasons
  (`TypeRegistry.LeavesOut`): the name is no name, the type is not registered, or it is
  not one that input is read as. What is left over is not counted again, so an input
  object of a published schema has no field exactly if every one of its entries is left
  out (`emptied_iff`).
  - `sieve_emptied`: three entries, one for each reason, and the input object is published
    with none.
-/

import GraphSchema.Proofs.Schema.Acceptance

namespace GraphSchema

/-- Why an entry of an input object is not among its fields. -/
inductive TypeRegistry.LeavesOut (registry : TypeRegistry) (key : String)
    (field : InputFieldConfig) : Prop
  | invalidName : isValidName key = false → LeavesOut registry key field
  | unknownType : registry.entries.get? field.type.innermostName = none →
      LeavesOut registry key field
  | notInput (entry : Registered) :
      registry.entries.get? field.type.innermostName = some entry → ¬ entry.Reads →
      LeavesOut registry key field

theorem TypeRegistry.leavesOut_iff {registry : TypeRegistry} {key : String}
    {field : InputFieldConfig} :
    registry.LeavesOut key field ↔ ¬ field.Valid registry.kindTable key := by
  constructor
  · intro h hvalid
    obtain ⟨entry, hentry, hreads⟩ := acceptsInput_kindTable_iff.mp hvalid.type
    cases h with
    | invalidName hname =>
      rw [hvalid.name] at hname
      cases hname
    | unknownType hnone =>
      rw [hentry] at hnone
      cases hnone
    | notInput other hother hnot =>
      cases Keyed.eq_of_get?_eq_get? hentry hother
      exact hnot hreads
  · intro h
    cases hname : isValidName key with
    | false => exact .invalidName hname
    | true =>
      cases hentry : registry.entries.get? field.type.innermostName with
      | none => exact .unknownType hentry
      | some entry =>
        refine .notInput entry hentry fun hreads => h ⟨hname, ?_⟩
        exact acceptsInput_kindTable_iff.mpr ⟨entry, hentry, hreads⟩

theorem InputObjectConfig.isEmpty_published_iff {config : InputObjectConfig} {kinds : KindTable} :
    (config.published kinds).fields.isEmpty = true ↔
      ∀ key field, config.fields.resolve.get? key = some field → ¬ field.Valid kinds key := by
  rw [← Bool.not_eq_false, Keyed.isEmpty_eq_false_iff]
  simp only [get?_published_fields]
  constructor
  · intro h key field hfield hvalid
    exact h ⟨key, _, field, hfield, hvalid, rfl⟩
  · intro h hsome
    obtain ⟨key, _, field, hfield, hvalid, _⟩ := hsome
    exact h key field hfield hvalid

namespace Schema

variable {config : SchemaConfig} {registry : TypeRegistry} {schema : Schema}

/-- An input object of a published schema was configured with an entry, and has no field
exactly if all its entries are left out. -/
theorem emptied_iff (h : ofRegistry config registry = .ok schema) {name : String}
    {input : InputObjectType} (hinput : schema.type? name = some (.inputObject input)) :
    ∃ configured, registry.entries.get? name = some (.inputObject configured) ∧
      configured.fields.resolve.isEmpty = false ∧
      (input.fields.isEmpty = true ↔
        ∀ key field, configured.fields.resolve.get? key = some field →
          registry.LeavesOut key field) := by
  obtain ⟨entry, hentry, hbuilds⟩ := (type?_eq_some_iff h).mp hinput
  cases hbuilds with
  | inputObject configured hnonempty =>
    refine ⟨configured, hentry, hnonempty, ?_⟩
    simp only [TypeRegistry.leavesOut_iff]
    exact InputObjectConfig.isEmpty_published_iff

/-- The title is a field, whatever else is left out. -/
theorem catalogue_filter_kept :
    ∃ schema input, ofRegistry {} catalogue = .ok schema ∧
      schema.type? "Filter" = some (.inputObject input) ∧ input.fields.isEmpty = false := by
  obtain ⟨schema, h⟩ := catalogue_published
  have hfilter : ∃ configured, catalogue.entries.get? "Filter" = some (.inputObject configured) ∧
      configured.fields.resolve.get? "title" = some { type := .named "String" } := ⟨_, rfl, rfl⟩
  obtain ⟨configured, hconfigured, htitle⟩ := hfilter
  have hvalid : InputFieldConfig.Valid catalogue.kindTable "title" { type := .named "String" } :=
    ⟨by decide, rfl⟩
  obtain ⟨type, htype, hbuilds⟩ := exists_type? h hconfigured
  cases hbuilds with
  | inputObject _ _ =>
    obtain ⟨other, hother, _, hempty⟩ := emptied_iff h htype
    cases Keyed.eq_of_get?_eq_get? hconfigured hother
    refine ⟨schema, _, h, htype, Bool.eq_false_iff.mpr fun hnone => ?_⟩
    exact TypeRegistry.leavesOut_iff.mp (hempty.mp hnone "title" _ htitle) hvalid

/-- A filter whose entries are an object, a bad name and an unknown type. -/
def sieve : TypeRegistry :=
  TypeRegistry.standard.run [
    .inputObject {
      name := "Filter"
      fields := .now (.ofList [
        ("owner", { type := .named "Query" }),
        ("mesh-size", { type := .named "Int" }),
        ("grain", { type := .named "Grain" })]) },
    .object {
      name := "Query"
      fields := .now (.ofList [
        ("search", {
          type := .named "String"
          args := .ofList [("filter", { type := .named "Filter" })] })]) }]

def isEmptyInput : TypeDefinition → Bool
  | .inputObject input => input.fields.isEmpty
  | _ => false

/-- Nothing of the filter is left, and it is published. -/
theorem sieve_emptied :
    ∃ schema input, ofRegistry {} sieve = .ok schema ∧
      schema.type? "Filter" = some (.inputObject input) ∧ input.fields.isEmpty = true := by
  have hcheck : ((ofRegistry {} sieve).toOption.any fun schema =>
      (schema.type? "Filter").any isEmptyInput) = true := by decide +kernel
  obtain ⟨schema, type, h, htype, hempty⟩ := exists_of_check hcheck
  cases type with
  | inputObject input => exact ⟨schema, input, h, htype, hempty⟩
  | _ => cases hempty

end Schema

end GraphSchema
