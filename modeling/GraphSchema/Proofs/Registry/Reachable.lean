/-
  GraphSchema.Proofs.Registry.Reachable — the registries a host can come to hold.

  A host starts with an empty registry or one that holds the built-in scalars, and makes
  calls; a refused call changes nothing. An accepted call puts a checked entry under its
  own name, which was free, or adds a field under a valid name to an object or interface
  (`effect_of_apply`). Every reachable registry is therefore consistent: entries stand
  under their own valid names and have passed what can be decided of them alone, and only
  objects and interfaces have added fields (`Reachable.consistent`).
-/

import GraphSchema.Registry.Basic
import GraphSchema.Proofs.Types.Building

namespace GraphSchema

inductive TypeRegistry.Reachable : TypeRegistry → Prop
  | empty : Reachable .empty
  | standard : Reachable .standard
  | call {registry : TypeRegistry} (call : Registration) :
      Reachable registry → Reachable (call.after registry)

theorem TypeRegistry.Reachable.run {registry : TypeRegistry} (h : registry.Reachable) :
    ∀ calls : List Registration, (registry.run calls).Reachable := by
  intro calls
  induction calls generalizing registry with
  | nil => exact h
  | cons call rest ih => exact ih (h.call call)

theorem TypeRegistry.Reachable.of_start {start : TypeRegistry}
    (h : start = .empty ∨ start = .standard) : start.Reachable := by
  rcases h with rfl | rfl
  · exact .empty
  · exact .standard

/-! ## One call -/

/-- What registration decides of an entry, besides its name. -/
def Registered.Checked : Registered → Prop
  | .enum type => type.values ≠ [] ∧ ∀ value ∈ type.values, isValidName value.name = true
  | .union config => config.types ≠ []
  | _ => True

/-- What an accepted call does to a registry. -/
inductive Registration.Effect (registry : TypeRegistry) : TypeRegistry → Option TypeRef → Prop
  | registered (entry : Registered) : entry.Checked → isValidName entry.name = true →
      registry.contains entry.name = false →
      Effect registry { registry with entries := registry.entries.insert entry.name entry }
        (some (.named entry.name))
  | addedField (typeName field : String) (config : FieldConfig) (entry : Registered) :
      registry.entries.get? typeName = some entry → entry.hasFields = true →
      isValidName field = true →
      Effect registry { registry with
        added := registry.added.insert typeName
          ((registry.addedTo typeName).insert field config) } none

theorem TypeRegistry.register_eq_ok_iff {registry after : TypeRegistry} {entry : Registered}
    {reference : TypeRef} :
    registry.register entry = .ok (after, reference) ↔
      registry.contains entry.name = false ∧
        { registry with entries := registry.entries.insert entry.name entry } = after ∧
        .named entry.name = reference := by
  unfold TypeRegistry.register
  by_cases h : registry.contains entry.name = true
  · simp [h]
  · simp [h]

namespace Registration

variable {registry after : TypeRegistry}

/-- A checked entry that is registered has the effect of one. -/
theorem effect_of_register (entry : Registered) {reference : Option TypeRef}
    (hchecked : entry.Checked) (hname : isValidName entry.name = true)
    (h : ((registry.register entry).map fun done => (done.1, some done.2)) = .ok (after, reference)) :
    Effect registry after reference := by
  obtain ⟨⟨next, named⟩, hregister, hdone⟩ := map_eq_ok_iff.mp h
  obtain ⟨hfree, hafter, hnamed⟩ := TypeRegistry.register_eq_ok_iff.mp hregister
  cases hdone
  subst hafter hnamed
  exact .registered entry hchecked hname hfree

theorem scalar_name_valid {config : ScalarConfig} {type : ScalarType}
    (h : ScalarType.ofConfig config = .ok type) : isValidName type.name = true := by
  simp only [ScalarType.ofConfig, bind_eq_ok_iff] at h
  obtain ⟨_, hname, h⟩ := h
  split at h
  · cases h
  · obtain ⟨readers, _, htype⟩ := bind_eq_ok_iff.mp h
    cases htype
    exact checkTypeName_eq_ok_iff.mp hname

theorem enum_checked {config : EnumConfig} (h : config.Valid) :
    (Registered.enum config.published).Checked := by
  constructor
  · obtain ⟨name, value, hvalue⟩ := Keyed.isEmpty_eq_false_iff.mp h.nonempty
    exact List.ne_nil_of_mem (EnumConfig.mem_values_published_iff.mpr ⟨name, value, hvalue, rfl⟩)
  · intro value hvalue
    obtain ⟨name, valueConfig, hconfig, hpublished⟩ :=
      EnumConfig.mem_values_published_iff.mp hvalue
    subst hpublished
    exact h.values name valueConfig hconfig

theorem addField_eq_ok {typeName field : String} {config : FieldConfig}
    (h : registry.addField typeName field config = .ok after) :
    Effect registry after none := by
  unfold TypeRegistry.addField at h
  split at h
  · cases h
  · rename_i entry hentry
    split at h
    · rename_i hfields
      obtain ⟨_, hname, hafter⟩ := bind_eq_ok_iff.mp h
      cases hafter
      exact .addedField typeName field config entry hentry hfields (checkName_eq_ok.mp hname)
    · cases h

/-- Every accepted call registers a checked entry or adds a field. -/
theorem effect_of_apply {call : Registration} {reference : Option TypeRef}
    (h : call.apply registry = .ok (after, reference)) : Effect registry after reference := by
  cases call with
  | scalar config =>
    obtain ⟨done, hdone, hout⟩ := map_eq_ok_iff.mp h
    obtain ⟨type, htype, hregister⟩ := bind_eq_ok_iff.mp hdone
    exact effect_of_register (.scalar type) trivial (scalar_name_valid htype)
      (map_eq_ok_iff.mpr ⟨done, hregister, hout⟩)
  | enum config =>
    obtain ⟨done, hdone, hout⟩ := map_eq_ok_iff.mp h
    obtain ⟨type, htype, hregister⟩ := bind_eq_ok_iff.mp hdone
    obtain ⟨hvalid, hpublished⟩ := EnumConfig.ofConfig_eq_ok_iff.mp htype
    subst hpublished
    exact effect_of_register (.enum config.published) (enum_checked hvalid) hvalid.name
      (map_eq_ok_iff.mpr ⟨done, hregister, hout⟩)
  | object config =>
    obtain ⟨done, hdone, hout⟩ := map_eq_ok_iff.mp h
    obtain ⟨_, hname, hregister⟩ := bind_eq_ok_iff.mp hdone
    exact effect_of_register (.object config) trivial (checkTypeName_eq_ok_iff.mp hname)
      (map_eq_ok_iff.mpr ⟨done, hregister, hout⟩)
  | interface config =>
    obtain ⟨done, hdone, hout⟩ := map_eq_ok_iff.mp h
    obtain ⟨_, hname, hregister⟩ := bind_eq_ok_iff.mp hdone
    exact effect_of_register (.interface config) trivial
      (checkTypeName_eq_ok_iff.mp hname) (map_eq_ok_iff.mpr ⟨done, hregister, hout⟩)
  | union config =>
    obtain ⟨done, hdone, hout⟩ := map_eq_ok_iff.mp h
    obtain ⟨_, hcheck, hregister⟩ := bind_eq_ok_iff.mp hdone
    obtain ⟨hname, htypes⟩ := UnionConfig.check_eq_ok_iff.mp hcheck
    exact effect_of_register (.union config) htypes hname
      (map_eq_ok_iff.mpr ⟨done, hregister, hout⟩)
  | inputObject config =>
    obtain ⟨done, hdone, hout⟩ := map_eq_ok_iff.mp h
    obtain ⟨_, hname, hregister⟩ := bind_eq_ok_iff.mp hdone
    exact effect_of_register (.inputObject config) trivial
      (checkTypeName_eq_ok_iff.mp hname) (map_eq_ok_iff.mpr ⟨done, hregister, hout⟩)
  | addField typeName field config =>
    obtain ⟨next, hnext, hout⟩ := map_eq_ok_iff.mp h
    cases hout
    exact addField_eq_ok hnext

end Registration

/-! ## Every run of calls -/

/-- No call takes an entry out or changes it. -/
theorem Registration.get?_after {registry : TypeRegistry} {name : String} {entry : Registered}
    (h : registry.entries.get? name = some entry) (call : Registration) :
    (call.after registry).entries.get? name = some entry := by
  unfold Registration.after
  split
  · rename_i next reference hnext
    cases Registration.effect_of_apply hnext with
    | registered other _ _ hfree =>
      have hnone : registry.entries.get? other.name = none := by
        simpa [TypeRegistry.contains, Keyed.contains] using hfree
      have hne : name ≠ other.name := fun heq => by
        rw [heq, hnone] at h
        cases h
      rw [Keyed.get?_insert, if_neg hne]
      exact h
    | addedField _ _ _ _ _ _ _ => exact h
  · exact h

theorem TypeRegistry.get?_run {registry : TypeRegistry} {name : String} {entry : Registered}
    (h : registry.entries.get? name = some entry) (calls : List Registration) :
    (registry.run calls).entries.get? name = some entry := by
  induction calls generalizing registry with
  | nil => exact h
  | cons call rest ih => exact ih (call.get?_after h)

namespace TypeRegistry

structure Consistent (registry : TypeRegistry) : Prop where
  /-- An entry stands under its own name, which is valid. -/
  named : ∀ key entry, registry.entries.get? key = some entry →
    entry.name = key ∧ isValidName key = true
  checked : ∀ key entry, registry.entries.get? key = some entry → entry.Checked
  /-- Fields are added under valid names, to objects and interfaces. -/
  added : ∀ key fields, registry.added.get? key = some fields →
    (∃ entry, registry.entries.get? key = some entry ∧ entry.hasFields = true) ∧
      ∀ field ∈ fields.keys, isValidName field = true

theorem empty_consistent : empty.Consistent where
  named := fun _ _ h => by cases h
  checked := fun _ _ h => by cases h
  added := fun _ _ h => by cases h

theorem builtin_name_valid : ∀ scalar ∈ BuiltinScalar.all, isValidName scalar.name = true := by
  decide

theorem builtin_of_get?_standard {key : String} {entry : Registered}
    (h : standard.entries.get? key = some entry) :
    ∃ scalar ∈ BuiltinScalar.all, scalar.name = key ∧ .scalar scalar = entry := by
  rcases Keyed.mem_of_get?_insertAll h with h | h
  · obtain ⟨scalar, hscalar, hentry⟩ := List.mem_map.mp h
    cases hentry
    exact ⟨scalar, hscalar, rfl, rfl⟩
  · cases h

theorem standard_consistent : standard.Consistent where
  named := by
    intro key entry h
    obtain ⟨scalar, hscalar, hkey, hentry⟩ := builtin_of_get?_standard h
    subst hkey hentry
    exact ⟨rfl, builtin_name_valid scalar hscalar⟩
  checked := by
    intro key entry h
    obtain ⟨scalar, _, _, hentry⟩ := builtin_of_get?_standard h
    subst hentry
    exact trivial
  added := fun _ _ h => by cases h

theorem keys_addedTo_valid {registry : TypeRegistry} (hc : registry.Consistent) (name : String) :
    ∀ field ∈ (registry.addedTo name).keys, isValidName field = true := by
  unfold addedTo
  cases h : registry.added.get? name with
  | none => intro field hfield; cases hfield
  | some fields => exact (hc.added name fields h).2

/-- No field was added to a type that is not registered. -/
theorem addedTo_of_free {registry : TypeRegistry} (hc : registry.Consistent) {name : String}
    (h : registry.entries.get? name = none) : registry.addedTo name = .empty := by
  unfold addedTo
  cases hadded : registry.added.get? name with
  | none => rfl
  | some fields =>
    obtain ⟨⟨entry, hentry, _⟩, _⟩ := hc.added name fields hadded
    rw [h] at hentry
    cases hentry

theorem effect_consistent {registry after : TypeRegistry} {reference : Option TypeRef}
    (hc : registry.Consistent) (h : Registration.Effect registry after reference) :
    after.Consistent := by
  cases h with
  | registered entry hchecked hname hfree =>
    have hnone : registry.entries.get? entry.name = none := by simpa [contains, Keyed.contains] using hfree
    refine ⟨?_, ?_, ?_⟩
    · intro key found hfound
      rw [Keyed.get?_insert] at hfound
      split at hfound
      · rename_i hkey
        cases hfound
        exact ⟨hkey.symm, hkey ▸ hname⟩
      · exact hc.named key found hfound
    · intro key found hfound
      rw [Keyed.get?_insert] at hfound
      split at hfound
      · cases hfound
        exact hchecked
      · exact hc.checked key found hfound
    · intro key fields hfields
      obtain ⟨⟨owner, howner, hhas⟩, hnames⟩ := hc.added key fields hfields
      refine ⟨⟨owner, ?_, hhas⟩, hnames⟩
      -- The new entry's name was free, so it is not the owner's.
      have hne : key ≠ entry.name := fun heq => by
        rw [heq, hnone] at howner
        cases howner
      rw [Keyed.get?_insert, if_neg hne]
      exact howner
  | addedField typeName field config entry hentry hhas hname =>
    refine ⟨hc.named, hc.checked, ?_⟩
    intro key fields hfields
    rw [Keyed.get?_insert] at hfields
    split at hfields
    · rename_i hkey
      cases hfields
      refine ⟨⟨entry, hkey ▸ hentry, hhas⟩, ?_⟩
      intro name hmem
      rw [Keyed.keys_insert] at hmem
      split at hmem
      · exact keys_addedTo_valid hc typeName name hmem
      · rcases List.mem_append.mp hmem with hmem | hmem
        · exact keys_addedTo_valid hc typeName name hmem
        · rw [List.mem_singleton.mp hmem]
          exact hname
    · exact hc.added key fields hfields

theorem after_consistent {registry : TypeRegistry} (hc : registry.Consistent)
    (call : Registration) : (call.after registry).Consistent := by
  unfold Registration.after
  split
  · rename_i next reference h
    exact effect_consistent hc (Registration.effect_of_apply h)
  · exact hc

theorem Reachable.consistent {registry : TypeRegistry} (h : registry.Reachable) :
    registry.Consistent := by
  induction h with
  | empty => exact empty_consistent
  | standard => exact standard_consistent
  | call call _ ih => exact after_consistent ih call

end TypeRegistry

end GraphSchema
