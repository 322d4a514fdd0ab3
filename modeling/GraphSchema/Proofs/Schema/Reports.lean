/-
  GraphSchema.Proofs.Schema.Reports — every type that is at fault is reported, once.

  No fault stops the work on other entries. Objects, unions, interfaces and input objects
  that cannot be built are reported in this order, each with one error, and for all but
  unions it depends on nothing that other entries may fail by (`build_eq_error_iff`). What
  is reported after them are breaches, promises of interfaces that were built broken by
  objects that were built (`breach_of_mem`). One report is enough to publish nothing
  (`assemble_reports`).
-/

import GraphSchema.Proofs.Schema.Assembly

namespace GraphSchema

/-! ## What an entry fails by -/

/-- An interface is built or not by its fields, whatever objects list it. -/
theorem InterfaceConfig.define_eq_error_iff {config : InterfaceConfig} {added : Keyed FieldConfig}
    {objects : List ObjectType} {kinds : KindTable} {error : TypeError} :
    config.define added objects kinds = .error error ↔
      defineFields config.name kinds (config.fields.resolve.merge added) = .error error := by
  unfold define
  cases defineFields config.name kinds (config.fields.resolve.merge added) with
  | error found =>
    constructor
    · intro h
      cases h
      rfl
    · intro h
      cases h
      rfl
  | ok fields =>
    constructor
    · intro h
      cases h
    · intro h
      cases h

/-- Two publications build an entry on the same terms: the same fields were added to it,
and options, kinds and capabilities are the same. -/
structure Publication.SameTerms (publication other : Publication) (name : String) : Prop where
  added : publication.registry.addedTo name = other.registry.addedTo name
  options : publication.options = other.options
  kinds : publication.kinds.Agrees other.kinds

namespace Publication

variable {publication other : Publication} {name : String} {entry : Registered}
  {error : TypeError}

/-- On the same terms an entry fails alike, unless it is a union and looks for its members
among the objects that were built. -/
theorem build_eq_error_iff (h : publication.SameTerms other name) (hkind : entry.kind ≠ .union) :
    publication.build name entry = .error error ↔ other.build name entry = .error error := by
  cases entry with
  | scalar type => exact Iff.rfl
  | enum type => exact Iff.rfl
  | object config =>
    simp only [build, buildObject, h.added, h.options, ObjectConfig.define_agrees h.kinds]
  | interface config =>
    simp only [build, map_eq_error_iff, InterfaceConfig.define_eq_error_iff, h.added,
      defineFields_agrees h.kinds]
  | union config => exact absurd rfl hkind
  | inputObject config => simp only [build, InputObjectConfig.define_agrees h.kinds]

end Publication

/-! ## Breaches -/

/-- An object that was built lists an interface that was built and breaks its promise. -/
inductive Breach (registry : TypeRegistry) (types : Keyed TypeDefinition) (error : TypeError) :
    Prop
  | mk (interface : InterfaceType) (object : ObjectType) (config : ObjectConfig) :
      types.get? interface.name = some (.interface interface) →
      types.get? object.name = some (.object object) →
      registry.entries.get? object.name = some (.object config) →
      interface.name ∈ config.interfaces.resolve →
      error.BreaksPromise interface.name object.name → Breach registry types error

theorem Publication.breach_of_mem {publication : Publication} {error : TypeError}
    (hc : publication.registry.Consistent) (h : error ∈ conformanceErrors publication.types) :
    Breach publication.registry publication.types error := by
  obtain ⟨name, interface, htype, object, hobject, hbroken⟩ := mem_conformanceErrors_iff.mp h
  obtain ⟨entry, hentry, hbuilds⟩ := get?_types_eq_some_iff.mp htype
  have hname : interface.name = name := hbuilds.name_eq_key hc hentry
  subst hname
  have habstract : (publication.types.get? interface.name).bind TypeDefinition.abstract? =
      some (.interface interface) := by
    rw [htype]
    rfl
  obtain ⟨hbuilt, hpossible⟩ := (mem_possibleTypes_iff hc habstract).mp hobject
  cases hpossible with
  | implements config _ hconfig _ hlisted =>
    exact .mk interface object config htype ((get?_types_eq_object_iff hc).mpr ⟨hbuilt, rfl⟩)
      hconfig hlisted (breaksPromise_of_mem hbroken)
  | member _ union _ hunion _ =>
    cases Keyed.eq_of_get?_eq_get? hentry hunion
    cases hbuilds

/-! ## Everything that is reported -/

/-- What is reported of a registry: `faults` of entries, and then `breaches`. -/
structure Reports (registry : TypeRegistry) (options : BuildOptions)
    (faults breaches : List TypeError) : Prop where
  failed : faults =
    Publication.errorsOfKind ⟨registry, options⟩ .object ++
      Publication.errorsOfKind ⟨registry, options⟩ .union ++
      Publication.errorsOfKind ⟨registry, options⟩ .interface ++
      Publication.errorsOfKind ⟨registry, options⟩ .inputObject
  terms : ∀ (other : Publication) name entry error,
    Publication.SameTerms ⟨registry, options⟩ other name → entry.kind ≠ .union →
      (Publication.build ⟨registry, options⟩ name entry = .error error ↔
        other.build name entry = .error error)
  broken : ∀ error ∈ breaches,
    Breach registry (Assembly.ofRegistry registry options).types error
  published : faults ++ breaches = [] → ∃ types, assemble registry options = .ok types
  refused : faults ++ breaches ≠ [] → assemble registry options = .error ⟨faults ++ breaches⟩

/-- The faults noted before promises are checked are those of all entries that fail, and
what is noted after them are breaches. -/
theorem assemble_reports {registry : TypeRegistry} (hr : registry.Reachable)
    (options : BuildOptions) :
    ∃ breaches,
      Reports registry options (Assembly.ofRegistry registry options).errors breaches := by
  have hc := hr.consistent
  have htypes := Publication.get?_types_ofRegistry ⟨registry, options⟩ hc
  have hfaults := Publication.errors_ofRegistry ⟨registry, options⟩ hc
  refine ⟨conformanceErrors (Publication.mk registry options).types, ?_⟩
  have hall : (Assembly.ofRegistry registry options).errors ++
      conformanceErrors (Publication.mk registry options).types =
        (Publication.mk registry options).errors := by
    rw [hfaults]
    rfl
  constructor
  case failed =>
    rw [hfaults]
    simp only [Publication.definitionErrors, Publication.phases, List.flatMap_cons,
      List.flatMap_nil, List.append_nil, List.append_assoc]
  case terms =>
    intro other name entry error hterms hkind
    exact Publication.build_eq_error_iff hterms hkind
  case broken =>
    intro error herror
    cases Publication.breach_of_mem hc herror with
    | mk interface object config hinterface hobject hconfig hlisted hbroken =>
      exact .mk interface object config ((htypes _).trans hinterface) ((htypes _).trans hobject)
        hconfig hlisted hbroken
  case published =>
    intro hnone
    rw [hall, Publication.errors_eq_nil_iff] at hnone
    exact ⟨_, (assemble_eq_publish hc options).trans (publish_eq_ok_iff.mpr ⟨hnone, rfl⟩)⟩
  case refused =>
    intro hsome
    rw [hall] at hsome ⊢
    exact (assemble_eq_publish hc options).trans (publish_eq_error_iff.mpr ⟨hsome, rfl⟩)

/-- A harbour where an entry of every kind is at fault, and one promise is broken. -/
def harbour : TypeRegistry :=
  TypeRegistry.standard.run [
    .inputObject { name := "Order" },
    .union { name := "Cargo", types := ["Crate", "Order"] },
    .interface { name := "Vessel" },
    .interface {
      name := "Hold"
      fields := .now (.ofList [("tons", { type := .named "Int" })])
      resolveType := some fun _ _ => some "Ship" },
    .object {
      name := "Ship"
      fields := .later fun _ => .ofList [("name", { type := .named "String" })]
      interfaces := .now ["Hold"] },
    .object { name := "Crate", fields := .now (.ofList [("owner", { type := .named "Owner" })]) },
    .object { name := "Dock" }]

theorem harbour_reports :
    (Assembly.ofRegistry harbour {}).errors = [.unknownType "Owner", .emptyFields "Dock",
        .notAnObject "Cargo" "Order", .emptyFields "Vessel", .emptyFields "Order"] ∧
      assemble harbour {} = .error ⟨(Assembly.ofRegistry harbour {}).errors ++
        [.missingInterfaceField "Hold" "Ship" "tons"]⟩ ∧
      ∃ breaches, Reports harbour {} (Assembly.ofRegistry harbour {}).errors breaches := by
  have hr : harbour.Reachable := TypeRegistry.Reachable.standard.run _
  exact ⟨by decide +kernel, by rfl, assemble_reports hr {}⟩

end GraphSchema
