/-
  GraphSchema.Proofs.Schema.AddedFields — a field added later is a field configured.

  Two registries of which one has the fields of a type in its configuration, and the other
  has them added, are twins: all else in them is the same (`Twin`). A call that does not
  add to the type goes the same way in both (`Twin.after`), and one that does is needed in
  only one of them (`Twin.addition`). After any run of calls the twins have the same fields
  for the type, in the same order, so they publish the same (`assemble_added`).
-/

import GraphSchema.Proofs.Registry.Session
import GraphSchema.Proofs.Schema.Assembly
import GraphSchema.Proofs.Schema.Direct

namespace GraphSchema

/-! ## Configurations of types with fields -/

inductive CompositeConfig where
  | object (config : ObjectConfig)
  | interface (config : InterfaceConfig)

namespace CompositeConfig

def name : CompositeConfig → String
  | object config => config.name
  | interface config => config.name

def entry : CompositeConfig → Registered
  | object config => .object config
  | interface config => .interface config

/-- The call that registers the type. -/
def call : CompositeConfig → Registration
  | object config => .object config
  | interface config => .interface config

def withField (config : CompositeConfig) (field : String × FieldConfig) : CompositeConfig :=
  match config with
  | object config => object (config.withField field.1 field.2)
  | interface config => interface (config.withField field.1 field.2)

/-- The configuration with fields put into it one after another. -/
def configure (config : CompositeConfig) (fields : List (String × FieldConfig)) : CompositeConfig :=
  fields.foldl withField config

@[simp] theorem name_entry (config : CompositeConfig) : config.entry.name = config.name := by
  cases config <;> rfl

@[simp] theorem hasFields_entry (config : CompositeConfig) : config.entry.hasFields = true := by
  cases config <;> rfl

theorem registers?_call (config : CompositeConfig) :
    config.call.registers? = some ((checkTypeName config.name).map fun _ => config.entry) := by
  cases config <;> rfl

@[simp] theorem name_configure (config : CompositeConfig) (fields : List (String × FieldConfig)) :
    (config.configure fields).name = config.name := by
  induction fields generalizing config with
  | nil => rfl
  | cons field rest ih =>
    have hname : (config.withField field).name = config.name := by cases config <;> rfl
    exact (ih (config.withField field)).trans hname

theorem direct_withField (config : CompositeConfig) (field : String × FieldConfig)
    (fields : List (String × FieldConfig)) :
    (config.withField field).entry.direct (.ofList fields) =
      config.entry.direct (.ofList (field :: fields)) := by
  cases config with
  | object config =>
    simp only [withField, entry, Registered.direct, ObjectConfig.direct, ObjectConfig.withField,
      Deferred.resolve_map, Keyed.merge_ofList]
    rfl
  | interface config =>
    simp only [withField, entry, Registered.direct, InterfaceConfig.direct,
      InterfaceConfig.withField, Deferred.resolve_map, Keyed.merge_ofList]
    rfl

/-- Fields that were configured are built as if they had been added. -/
theorem direct_configure (config : CompositeConfig) (fields : List (String × FieldConfig)) :
    (config.configure fields).entry.direct .empty = config.entry.direct (.ofList fields) := by
  induction fields generalizing config with
  | nil => rfl
  | cons field rest ih => exact (ih (config.withField field)).trans (direct_withField config field rest)

/-- A type is registered if its name is valid and free, whatever its fields. -/
theorem run_call_eq_ok_iff {config : CompositeConfig} {registry after : TypeRegistry}
    {reference : Option TypeRef} :
    (Session.perform config.call).run registry = .ok reference after ↔
      checkTypeName config.name = .ok () ∧ registry.contains config.name = false ∧
        some (.named config.name) = reference ∧
        { registry with entries := registry.entries.insert config.name config.entry } = after := by
  have hcall := config.registers?_call
  rw [Session.run_perform]
  cases hcheck : checkTypeName config.name with
  | error error =>
    rw [hcheck] at hcall
    rw [Registration.apply_of_registers? hcall]
    constructor
    · intro h
      cases h
    · intro h
      cases h.1
  | ok done =>
    rw [hcheck] at hcall
    rw [Registration.apply_of_entry hcall, name_entry]
    by_cases hfree : registry.contains config.name = true
    · simp [hfree, Session.outcome]
    · simp [hfree, Session.outcome]

end CompositeConfig

/-! ## What calls leave -/

namespace Registration

/-- Whether the call is to add a field to the type. -/
def addsTo (name : String) : Registration → Bool
  | .addField typeName _ _ => typeName == name
  | _ => false

/-- The field that the call adds to the type, if its name is valid. -/
def addition? (name : String) : Registration → Option (String × FieldConfig)
  | .addField typeName field config =>
    if typeName = name ∧ isValidName field = true then some (field, config) else none
  | _ => none

theorem after_of_registers? {call : Registration} {checked : Except TypeError Registered}
    (h : call.registers? = some checked) (registry : TypeRegistry) :
    call.after registry =
      match checked with
      | .error _ => registry
      | .ok entry =>
        if registry.contains entry.name then registry
        else { registry with entries := registry.entries.insert entry.name entry } := by
  cases checked with
  | error error =>
    rw [after, apply_of_registers? h]
    rfl
  | ok entry =>
    rw [after, apply_of_entry h]
    by_cases hfree : registry.contains entry.name = true
    · simp only [hfree, if_true]
    · simp only [hfree, Bool.false_eq_true, if_false]

theorem after_addField (registry : TypeRegistry) (typeName field : String) (config : FieldConfig) :
    (addField typeName field config).after registry =
      if (registry.entries.get? typeName).any Registered.hasFields = true ∧
          isValidName field = true then
        { registry with
          added := registry.added.insert typeName
            ((registry.addedTo typeName).insert field config) }
      else registry := by
  simp only [after, apply, TypeRegistry.addField, checkName]
  cases registry.entries.get? typeName with
  | none => simp [Except.map]
  | some entry =>
    cases hfields : entry.hasFields <;> cases hname : isValidName field <;>
      simp [Except.map, hfields, bind, Except.bind]

/-- What is added to a type with fields is what the call adds to it, if it does. -/
theorem addedTo_after {registry : TypeRegistry} {name : String} {entry : Registered}
    (hentry : registry.entries.get? name = some entry) (hfields : entry.hasFields = true)
    (call : Registration) :
    (call.after registry).addedTo name =
      (registry.addedTo name).insertAll (call.addition? name).toList := by
  -- A call that registers adds nothing to any type.
  have hregisters : ∀ checked, call.registers? = some checked → call.addition? name = none →
      (call.after registry).addedTo name =
        (registry.addedTo name).insertAll (call.addition? name).toList := by
    intro checked hcall hnone
    rw [hnone, after_of_registers? hcall]
    cases checked with
    | error error => rfl
    | ok new => by_cases hfree : registry.contains new.name = true <;> simp only [hfree] <;> rfl
  cases call with
  | addField typeName field config =>
    rw [after_addField]
    by_cases hname : typeName = name
    · subst hname
      by_cases hvalid : isValidName field = true
      · have hadds : (addField typeName field config).addition? typeName = some (field, config) :=
          if_pos ⟨rfl, hvalid⟩
        rw [hadds, if_pos ⟨by simp [hentry, hfields], hvalid⟩, TypeRegistry.addedTo,
          Keyed.get?_insert, if_pos rfl]
        rfl
      · have hadds : (addField typeName field config).addition? typeName = none :=
          if_neg fun h => hvalid h.2
        rw [hadds, if_neg fun h => hvalid h.2]
        rfl
    · have hadds : (addField typeName field config).addition? name = none :=
        if_neg fun h => hname h.1
      rw [hadds]
      split
      · rw [TypeRegistry.addedTo, Keyed.get?_insert, if_neg (Ne.symm hname)]
        rfl
      · rfl
  | _ => exact hregisters _ rfl rfl

end Registration

/-! ## Twins -/

/-- In the twin another entry stands in the place of one, with no field added to it, and
all else is the same. -/
structure Twin (registry twin : TypeRegistry) (name : String) (entry other : Registered) :
    Prop where
  entry : registry.entries.get? name = some entry
  entries : twin.entries = registry.entries.insert name other
  added : ∀ key, key ≠ name → twin.addedTo key = registry.addedTo key
  unadded : twin.addedTo name = .empty

namespace Twin

variable {registry twin : TypeRegistry} {name : String} {entry other : Registered}

section

variable (h : Twin registry twin name entry other)
include h

theorem mem_keys : name ∈ registry.entries.keys := by
  rw [← Keyed.contains_iff_mem_keys, Keyed.contains, h.entry]
  rfl

theorem get?_of_ne {key : String} (hkey : key ≠ name) :
    twin.entries.get? key = registry.entries.get? key := by
  rw [h.entries, Keyed.get?_insert, if_neg hkey]

theorem contains_eq (key : String) : twin.contains key = registry.contains key := by
  by_cases hkey : key = name
  · simp [TypeRegistry.contains, Keyed.contains, h.entries, Keyed.get?_insert, hkey, h.entry]
  · rw [TypeRegistry.contains, Keyed.contains, h.get?_of_ne hkey]
    rfl

/-- A type that is registered comes last in both, or is refused by both. -/
theorem registers {call : Registration} {checked : Except TypeError Registered}
    (hcall : call.registers? = some checked) :
    Twin (call.after registry) (call.after twin) name entry other := by
  rw [Registration.after_of_registers? hcall, Registration.after_of_registers? hcall]
  cases checked with
  | error error => exact h
  | ok new =>
    simp only [h.contains_eq new.name]
    by_cases hfree : registry.contains new.name = true
    · simpa only [hfree, if_true] using h
    · have hne : new.name ≠ name := by
        intro heq
        rw [heq, TypeRegistry.contains, Keyed.contains, h.entry] at hfree
        exact hfree rfl
      simp only [hfree, Bool.false_eq_true, if_false]
      exact {
        entry := by rw [Keyed.get?_insert, if_neg (Ne.symm hne), h.entry]
        entries := by rw [h.entries, Keyed.insert_comm h.mem_keys hne]
        added := h.added
        unadded := h.unadded }

theorem adds {typeName : String} (hne : typeName ≠ name) (field : String) (config : FieldConfig) :
    Twin ((Registration.addField typeName field config).after registry)
      ((Registration.addField typeName field config).after twin) name entry other := by
  rw [Registration.after_addField, Registration.after_addField, h.get?_of_ne hne]
  split
  · exact {
      entry := h.entry
      entries := h.entries
      added := by
        intro key hkey
        have hadded := h.added key hkey
        have hfields := h.added typeName hne
        simp only [TypeRegistry.addedTo, Keyed.get?_insert] at hadded hfields ⊢
        by_cases heq : key = typeName
        · simp [heq, hfields]
        · simpa [heq] using hadded
      unadded := by
        have hunadded := h.unadded
        simp only [TypeRegistry.addedTo, Keyed.get?_insert] at hunadded ⊢
        simpa [Ne.symm hne] using hunadded }
  · exact h

/-- A call that does not add to the type goes the same way in both. -/
theorem after {call : Registration} (hcall : call.addsTo name = false) :
    Twin (call.after registry) (call.after twin) name entry other := by
  cases call with
  | addField typeName field config => exact h.adds (by simpa [Registration.addsTo] using hcall) field config
  | _ => exact h.registers rfl

/-- The twin has no need of a call that adds to the type. -/
theorem addition {call : Registration} (hcall : call.addsTo name = true) :
    Twin (call.after registry) twin name entry other := by
  cases call with
  | addField typeName field config =>
    have hname : typeName = name := by simpa [Registration.addsTo] using hcall
    subst hname
    rw [Registration.after_addField]
    split
    · exact {
        entry := h.entry
        entries := h.entries
        added := by
          intro key hkey
          rw [h.added key hkey]
          simp [TypeRegistry.addedTo, Keyed.get?_insert, hkey]
        unadded := h.unadded }
    · exact h
  | _ => cases hcall

end

/-- After any run of calls, of which the twin leaves out those that add to the type, the
fields added to it are those of these calls, in turn. -/
theorem run (h : Twin registry twin name entry other) (hfields : entry.hasFields = true)
    (calls : List Registration) :
    Twin (registry.run calls) (twin.run (calls.filter fun call => !call.addsTo name)) name
        entry other ∧
      (registry.run calls).addedTo name =
        (registry.addedTo name).insertAll (calls.filterMap (Registration.addition? name)) := by
  induction calls generalizing registry twin with
  | nil => exact ⟨h, rfl⟩
  | cons call rest ih =>
    have hadded : ∀ fields, ((call.after registry).addedTo name).insertAll fields =
        (registry.addedTo name).insertAll ((call.addition? name).toList ++ fields) := by
      intro fields
      rw [Registration.addedTo_after h.entry hfields, Keyed.insertAll_append]
    have hcons : (call :: rest).filterMap (Registration.addition? name) =
        (call.addition? name).toList ++ rest.filterMap (Registration.addition? name) := by
      cases hcall : call.addition? name <;> simp [hcall]
    rw [hcons, ← hadded]
    cases hadds : call.addsTo name with
    | true =>
      rw [List.filter_cons_of_neg (by simp [hadds])]
      exact ih (h.addition hadds)
    | false =>
      rw [List.filter_cons_of_pos (by simp [hadds])]
      exact ih (h.after hadds)

/-- Registries in which a free name was given to one entry or the other are twins. -/
theorem of_free (hc : registry.Consistent) (hfree : registry.entries.get? name = none) :
    Twin { registry with entries := registry.entries.insert name entry }
      { registry with entries := registry.entries.insert name other } name entry other where
  entry := by rw [Keyed.get?_insert, if_pos rfl]
  entries := (Keyed.insert_insert _ _ _ _).symm
  added := fun _ _ => rfl
  unadded := TypeRegistry.addedTo_of_free hc hfree

/-- Twins are given the same if the entries are. -/
theorem direct_eq (h : Twin registry twin name entry other)
    (hdirect : other.direct .empty = entry.direct (registry.addedTo name)) :
    twin.direct = registry.direct := by
  have hentries : twin.direct.entries = registry.direct.entries := by
    apply Keyed.ext_get?
    · show (Keyed.mapValues _ twin.entries).keys = (Keyed.mapValues _ registry.entries).keys
      rw [Keyed.keys_mapValues, Keyed.keys_mapValues, h.entries, Keyed.keys_insert,
        if_pos h.mem_keys]
    · intro key
      rw [TypeRegistry.get?_direct, TypeRegistry.get?_direct]
      by_cases hkey : key = name
      · subst hkey
        rw [h.unadded, h.entries, Keyed.get?_insert, if_pos rfl, h.entry, Option.map_some,
          Option.map_some, hdirect]
      · rw [h.added key hkey, h.get?_of_ne hkey]
  exact congrArg (TypeRegistry.mk · .empty) hentries

end Twin

/-! ## Publication -/

/-- A type whose fields are added after it was registered, by calls among any others, is
published as if it had been registered with them and these calls had not been made. -/
theorem assemble_added {start registered : TypeRegistry} (hr : start.Reachable)
    {config : CompositeConfig} {reference : Option TypeRef}
    (h : (Session.perform config.call).run start = .ok reference registered)
    (calls : List Registration) (options : BuildOptions) :
    ∃ configured,
      (Session.perform
        (config.configure (calls.filterMap (Registration.addition? config.name))).call).run start =
          .ok reference configured ∧
      assemble (calls.foldl Session.left registered) options =
        assemble ((calls.filter fun call => !call.addsTo config.name).foldl Session.left configured)
          options := by
  let fields := calls.filterMap (Registration.addition? config.name)
  let configured : TypeRegistry := { start with
    entries := start.entries.insert config.name (config.configure fields).entry }
  obtain ⟨hname, hfree, hreference, hregistered⟩ := CompositeConfig.run_call_eq_ok_iff.mp h
  have hconfigured : (Session.perform (config.configure fields).call).run start =
      .ok reference configured :=
    CompositeConfig.run_call_eq_ok_iff.mpr (by simp [hname, hfree, hreference, configured])
  refine ⟨configured, hconfigured, ?_⟩
  have hnone : start.entries.get? config.name = none := by
    simpa [TypeRegistry.contains, Keyed.contains] using hfree
  have hunadded : registered.addedTo config.name = .empty := by
    rw [← hregistered]
    exact TypeRegistry.addedTo_of_free hr.consistent hnone
  have htwin : Twin registered configured config.name config.entry (config.configure fields).entry :=
    hregistered ▸ Twin.of_free hr.consistent hnone
  obtain ⟨hrun, hadded⟩ := htwin.run config.hasFields_entry calls
  have hdirect := hrun.direct_eq (by
    rw [hadded, hunadded]
    exact config.direct_configure fields)
  have hreachable : ∀ {call : Registration} {after : TypeRegistry},
      (Session.perform call).run start = .ok reference after → after.Reachable := by
    intro call after hcall
    have hafter : Session.left start call = after := by rw [Session.left, hcall]
    exact hafter ▸ hr.foldl_left [call]
  rw [Session.foldl_left_eq_run, Session.foldl_left_eq_run,
    assemble_eq_publish ((hreachable h).run _).consistent,
    assemble_eq_publish ((hreachable hconfigured).run _).consistent,
    ← publish_direct, ← publish_direct (configured.run _), hdirect]

/-- A type whose fields are made when it is published. -/
def liner : CompositeConfig := .object {
  name := "Liner"
  fields := .later fun _ =>
    .ofList [("name", { type := .named "String" }), ("tons", { type := .named "Int" })]
  interfaces := .now ["Vessel"] }

/-- Calls that add a field twice, replace a field, and are refused, among others. -/
def refit : List Registration := [
  .addField "Liner" "crew" { type := .named "Int" },
  .interface {
    name := "Vessel"
    fields := .now (.ofList [("name", { type := .named "String" })])
    resolveType := some fun _ _ => some "Liner" },
  .addField "Liner" "name" { type := .nonNull (.named "String") },
  .addField "Vessel" "crew" { type := .named "Int" },
  .object { name := "Liner" },
  .addField "Liner" "no. of decks" { type := .named "Int" },
  .addField "Liner" "crew" { type := .nonNull (.named "Int") }]

/-- The fields that were made come first, with the type that was put in place of one, and the
added one last, as it was added the second time. -/
theorem liner_refitted :
    ∃ configured types,
      (Session.perform (liner.configure [
        ("crew", { type := .named "Int" }),
        ("name", { type := .nonNull (.named "String") }),
        ("crew", { type := .nonNull (.named "Int") })]).call).run .standard =
          .ok (some (.named "Liner")) configured ∧
      ((refit.foldl Session.left (Session.left .standard liner.call)).addedTo "Liner").keys =
        ["crew", "name"] ∧
      assemble (refit.foldl Session.left (Session.left .standard liner.call)) {} = .ok types ∧
      (types.get? "Liner").bind TypeDefinition.fieldTypes? =
        some [("name", .nonNull (.named "String")), ("tons", .named "Int"),
          ("crew", .nonNull (.named "Int"))] ∧
      assemble (refit.foldl Session.left (Session.left .standard liner.call)) {} =
        assemble ((refit.filter fun call => !call.addsTo "Liner").foldl Session.left configured)
          {} := by
  have hregistered : (Session.perform liner.call).run .standard =
      .ok (some (.named "Liner")) (Session.left .standard liner.call) := rfl
  obtain ⟨configured, hconfigured, hsame⟩ := assemble_added .standard hregistered refit {}
  obtain ⟨types, htypes, hfields⟩ : ∃ types,
      assemble (refit.foldl Session.left (Session.left .standard liner.call)) {} = .ok types ∧
        (types.get? "Liner").bind TypeDefinition.fieldTypes? =
          some [("name", .nonNull (.named "String")), ("tons", .named "Int"),
            ("crew", .nonNull (.named "Int"))] :=
    exists_ok_of_check (by decide +kernel)
  exact ⟨configured, types, hconfigured, by decide +kernel, htypes, hfields, hsame⟩

end GraphSchema
