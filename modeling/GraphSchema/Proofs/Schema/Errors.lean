/-
  GraphSchema.Proofs.Schema.Errors — which errors a failed publication reports.

  An error is either that of one entry, found while it was built, or that of an object
  that was built and breaks a promise of an interface that was built (`mem_errors_iff`).
  The two never look alike (`ownFault_of_build`), and the second kind names the interface
  and the object (`breaksPromise_of_mem`).
-/

import GraphSchema.Proofs.Schema.Phases

namespace GraphSchema

namespace TypeError

/-- The ways for an object not to keep what an interface promises. -/
inductive BreaksPromise (interface object : String) : TypeError → Prop
  | missingField (field : String) :
      BreaksPromise interface object (.missingInterfaceField interface object field)
  | field (field : String) (expected found : TypeRef) :
      BreaksPromise interface object
        (.interfaceFieldMismatch interface object field expected found)
  | missingArgument (field argument : String) :
      BreaksPromise interface object
        (.missingInterfaceArgument interface object field argument)
  | argument (field argument : String) (expected found : TypeRef) :
      BreaksPromise interface object
        (.interfaceArgumentMismatch interface object field argument expected found)

/-- A fault that is not a broken promise. -/
def OwnFault (error : TypeError) : Prop := ∀ interface object, ¬ error.BreaksPromise interface object

end TypeError

/-! ## Faults of one entry -/

section

open TypeError

theorem checkName_ownFault (name : String) : FailsWith OwnFault (checkName name) := by
  unfold checkName
  split
  · exact failsWith_ok ()
  · exact failsWith_error.mpr fun _ _ h => by cases h

theorem checkTypeName_ownFault (name : String) : FailsWith OwnFault (checkTypeName name) := by
  unfold checkTypeName
  split
  · exact failsWith_error.mpr fun _ _ h => by cases h
  · exact checkName_ownFault name

namespace KindTable

variable (kinds : KindTable) (type : TypeRef)

theorem innermost_ownFault : FailsWith OwnFault (kinds.innermost type) := by
  unfold innermost
  split
  · exact failsWith_ok _
  · exact failsWith_error.mpr fun _ _ h => by cases h

theorem acceptsOutput_ownFault : FailsWith OwnFault (kinds.acceptsOutput type) :=
  (innermost_ownFault kinds type).map _

theorem acceptsInput_ownFault : FailsWith OwnFault (kinds.acceptsInput type) :=
  (innermost_ownFault kinds type).map _

end KindTable

theorem ArgumentConfig.define_ownFault (owner field : String) (kinds : KindTable) (name : String)
    (config : ArgumentConfig) : FailsWith OwnFault (config.define owner field kinds name) := by
  refine (checkName_ownFault name).bind fun _ => ?_
  refine (kinds.acceptsInput_ownFault config.type).bind fun _ => ?_
  exact .unless (fun _ _ h => by cases h) (failsWith_ok _)

theorem FieldConfig.define_ownFault (owner : String) (kinds : KindTable) (name : String)
    (config : FieldConfig) : FailsWith OwnFault (config.define owner kinds name) := by
  refine (checkName_ownFault name).bind fun _ => ?_
  refine (kinds.acceptsOutput_ownFault config.type).bind fun _ => ?_
  refine .unless (fun _ _ h => by cases h) ?_
  refine (Keyed.failsWith_traverse (ArgumentConfig.define_ownFault owner name kinds) _).bind fun _ => ?_
  exact failsWith_ok _

theorem defineFields_ownFault (owner : String) (kinds : KindTable) (configs : Keyed FieldConfig) :
    FailsWith OwnFault (defineFields owner kinds configs) := by
  unfold defineFields
  split
  · exact failsWith_error.mpr fun _ _ h => by cases h
  · exact Keyed.failsWith_traverse (FieldConfig.define_ownFault owner kinds) configs

namespace ObjectConfig

theorem checkInterface_ownFault (object : String) (hasIsTypeOf : Bool) (kinds : KindTable)
    (options : BuildOptions) (name : String) :
    FailsWith OwnFault (checkInterface object hasIsTypeOf kinds options name) := by
  unfold checkInterface
  split
  · exact failsWith_error.mpr fun _ _ h => by cases h
  · split
    · exact failsWith_ok ()
    · exact failsWith_error.mpr fun _ _ h => by cases h
  · exact failsWith_error.mpr fun _ _ h => by cases h

theorem define_ownFault (config : ObjectConfig) (added : Keyed FieldConfig) (kinds : KindTable)
    (options : BuildOptions) : FailsWith OwnFault (config.define added kinds options) := by
  refine (FailsWith.forM (checkInterface_ownFault _ _ kinds options)).bind fun _ => ?_
  refine (defineFields_ownFault _ kinds _).bind fun _ => ?_
  exact failsWith_ok _

end ObjectConfig

theorem InterfaceConfig.define_ownFault (config : InterfaceConfig) (added : Keyed FieldConfig)
    (objects : List ObjectType) (kinds : KindTable) :
    FailsWith OwnFault (config.define added objects kinds) := by
  refine (defineFields_ownFault _ kinds _).bind fun _ => ?_
  exact failsWith_ok _

namespace UnionConfig

variable (config : UnionConfig) (objects : List ObjectType) (kinds : KindTable)

theorem check_ownFault : FailsWith OwnFault config.check := by
  refine (checkTypeName_ownFault config.name).bind fun _ => ?_
  split
  · exact failsWith_error.mpr fun _ _ h => by cases h
  · exact failsWith_ok ()

theorem member?_ownFault (name : String) :
    FailsWith OwnFault (config.member? objects kinds name) := by
  unfold member?
  split
  · split
    · exact failsWith_ok _
    · exact failsWith_error.mpr fun _ _ h => by cases h
  · split
    · exact failsWith_ok none
    · exact failsWith_error.mpr fun _ _ h => by cases h
    · exact failsWith_error.mpr fun _ _ h => by cases h

theorem members_ownFault (names : List String) :
    FailsWith OwnFault (config.members objects kinds names) := by
  induction names with
  | nil => exact failsWith_ok []
  | cons name rest ih =>
    refine (config.member?_ownFault objects kinds name).bind fun _ => ?_
    exact ih.bind fun _ => failsWith_ok _

theorem define_ownFault : FailsWith OwnFault (config.define objects kinds) := by
  refine config.check_ownFault.bind fun _ => ?_
  refine (config.members_ownFault objects kinds config.types).bind fun _ => ?_
  exact failsWith_ok _

end UnionConfig

theorem InputObjectConfig.define_ownFault (config : InputObjectConfig) (kinds : KindTable) :
    FailsWith OwnFault (config.define kinds) := by
  simp only [define]
  split
  · exact failsWith_error.mpr fun _ _ h => by cases h
  · exact failsWith_ok _

end

namespace Publication

variable {publication : Publication} {name : String} {entry : Registered} {error : TypeError}

/-- No entry is built with an error that blames it for an interface. -/
theorem ownFault_of_build (h : publication.build name entry = .error error) : error.OwnFault := by
  have hbuild : FailsWith TypeError.OwnFault (publication.build name entry) := by
    cases entry with
    | scalar type => exact failsWith_ok _
    | enum type => exact failsWith_ok _
    | object config => exact (config.define_ownFault _ _ _).map _
    | interface config => exact (config.define_ownFault _ _ _).map _
    | union config => exact (config.define_ownFault _ _).map _
    | inputObject config => exact (config.define_ownFault _).map _
  exact hbuild error h

theorem mem_errorsOfKind_iff {kind : TypeKind} :
    error ∈ publication.errorsOfKind kind ↔
      ∃ name entry, publication.registry.entries.get? name = some entry ∧
        publication.build name entry = .error error ∧ entry.kind = kind := by
  simp only [errorsOfKind, List.mem_filterMap, Keyed.get?_eq_some_iff]
  constructor
  · intro h
    obtain ⟨⟨name, entry⟩, hentry, h⟩ := h
    cases hbuild : publication.build name entry with
    | error found =>
      by_cases hkind : entry.kind = kind
      · simp only [hbuild, hkind, if_true, Option.some.injEq] at h
        exact ⟨name, entry, hentry, h ▸ hbuild, hkind⟩
      · simp [hbuild, hkind] at h
    | ok type => simp [hbuild] at h
  · intro h
    obtain ⟨name, entry, hentry, hbuild, hkind⟩ := h
    exact ⟨(name, entry), hentry, by simp [hbuild, hkind]⟩

/-- Only the kinds that are built in phases can fail. -/
theorem kind_mem_phases (h : publication.build name entry = .error error) : entry.kind ∈ phases := by
  cases entry with
  | scalar type => cases h
  | enum type => cases h
  | object config => exact (by decide : TypeKind.object ∈ phases)
  | interface config => exact (by decide : TypeKind.interface ∈ phases)
  | union config => exact (by decide : TypeKind.union ∈ phases)
  | inputObject config => exact (by decide : TypeKind.inputObject ∈ phases)

/-- The phases come to every kind once. -/
theorem flatMap_phases {kind : TypeKind} (h : kind ∈ phases) (error : TypeError) :
    phases.flatMap (fun phase => if kind = phase then [error] else []) = [error] := by
  simp only [phases, List.mem_cons, List.not_mem_nil, or_false] at h
  rcases h with rfl | rfl | rfl | rfl <;> rfl

theorem mem_definitionErrors_iff :
    error ∈ publication.definitionErrors ↔
      ∃ name entry, publication.registry.entries.get? name = some entry ∧
        publication.build name entry = .error error := by
  simp only [definitionErrors, List.mem_flatMap, mem_errorsOfKind_iff]
  constructor
  · intro h
    obtain ⟨_, _, name, entry, hentry, hbuild, _⟩ := h
    exact ⟨name, entry, hentry, hbuild⟩
  · intro h
    obtain ⟨name, entry, hentry, hbuild⟩ := h
    exact ⟨entry.kind, kind_mem_phases hbuild, name, entry, hentry, hbuild, rfl⟩

end Publication

/-! ## Broken promises -/

section

variable {types : Keyed TypeDefinition} {interface : InterfaceType} {object : ObjectType}
  {error : TypeError}

theorem breaksPromise_of_mem (h : error ∈ checkImplementation types interface object) :
    error.BreaksPromise interface.name object.name := by
  obtain ⟨⟨field, expected⟩, _, h⟩ := List.mem_flatMap.mp h
  simp only [checkField] at h
  split at h
  · cases List.mem_singleton.mp h
    exact .missingField field
  · rename_i found _
    rcases List.mem_append.mp h with h | h
    · split at h
      · cases h
      · cases List.mem_singleton.mp h
        exact .field field expected.type found.type
    · obtain ⟨argument, _, h⟩ := List.mem_flatMap.mp h
      unfold checkArgument at h
      split at h
      · cases List.mem_singleton.mp h
        exact .missingArgument field argument.name
      · split at h
        · cases h
        · cases List.mem_singleton.mp h
          exact .argument field argument.name _ _

theorem mem_conformanceErrors_iff :
    error ∈ conformanceErrors types ↔
      ∃ name interface, types.get? name = some (.interface interface) ∧
        ∃ object ∈ interface.implementations, error ∈ checkImplementation types interface object := by
  simp only [conformanceErrors, List.mem_flatMap, Keyed.values, List.mem_map, Keyed.get?_eq_some_iff]
  constructor
  · intro h
    obtain ⟨type, ⟨⟨name, found⟩, hmem, hfound⟩, h⟩ := h
    subst hfound
    cases found with
    | interface interface =>
      obtain ⟨object, hobject, h⟩ := List.mem_flatMap.mp h
      exact ⟨name, interface, hmem, object, hobject, h⟩
    | _ => cases h
  · intro h
    obtain ⟨name, interface, hmem, object, hobject, h⟩ := h
    exact ⟨.interface interface, ⟨_, hmem, rfl⟩, List.mem_flatMap.mpr ⟨object, hobject, h⟩⟩

end

namespace Publication

variable {publication : Publication} {error : TypeError}

theorem mem_errors_iff :
    error ∈ publication.errors ↔
      (∃ name entry, publication.registry.entries.get? name = some entry ∧
        publication.build name entry = .error error) ∨
      ∃ name interface, publication.types.get? name = some (.interface interface) ∧
        ∃ object ∈ interface.implementations,
          error ∈ checkImplementation publication.types interface object := by
  rw [errors, List.mem_append, mem_definitionErrors_iff, mem_conformanceErrors_iff]

end Publication

theorem publish_eq_error_iff {registry : TypeRegistry} {options : BuildOptions}
    {failure : SchemaError} :
    publish registry options = .error failure ↔
      (Publication.mk registry options).errors ≠ [] ∧
        (Publication.mk registry options).errors = failure.errors := by
  cases failure with
  | mk errors =>
    unfold publish
    by_cases h : (Publication.mk registry options).errors = []
    · simp [h]
    · simp [h]

end GraphSchema
