/-
  GraphSchema.Proofs.Schema.Deferral — given now or made later, a configuration is the same.

  Two registries are interchangeable if under the same keys they hold entries that give the
  same once all that is deferred is made (`Interchangeable`). Two calls that differ at most
  in when fields and interfaces are given keep them so (`Interchangeable.after`), so after
  any two runs of such calls the registries publish the same (`assemble_sameGiven`).
  - `deferral_immaterial`: what each chain of calls on a configuration comes to, that it is
    the same for every chain that gives the same, and that publication does not tell them apart.
-/

import GraphSchema.Proofs.Schema.AddedFields
import GraphSchema.Proofs.Types.Setting

namespace GraphSchema

/-! ## Entries -/

/-- Entries that give the same once everything is made, whatever fields are added. -/
def Registered.SameDirect (entry other : Registered) : Prop :=
  ∀ added, entry.direct added = other.direct added

theorem Registered.SameDirect.name_eq {entry other : Registered} (h : entry.SameDirect other) :
    entry.name = other.name := by
  rw [← entry.name_direct .empty, ← other.name_direct .empty, h]

theorem ObjectConfig.sameDirect_setUp (config : ObjectConfig) {chain other : List ObjectSetting}
    (hfields : (config.setUp chain).fields.resolve = (config.setUp other).fields.resolve)
    (hinterfaces : (config.setUp chain).interfaces.resolve =
      (config.setUp other).interfaces.resolve) :
    (Registered.object (config.setUp chain)).SameDirect (.object (config.setUp other)) := by
  intro added
  simp only [Registered.direct, ObjectConfig.direct, hfields, hinterfaces]
  simp only [ObjectConfig.setUp_eq]

theorem InterfaceConfig.sameDirect_setUp (config : InterfaceConfig)
    {chain other : List (FieldSetting FieldConfig)}
    (hfields : (config.setUp chain).fields.resolve = (config.setUp other).fields.resolve) :
    (Registered.interface (config.setUp chain)).SameDirect (.interface (config.setUp other)) := by
  intro added
  simp only [Registered.direct, InterfaceConfig.direct, hfields]
  simp only [InterfaceConfig.setUp_eq]

theorem InputObjectConfig.sameDirect_setUp (config : InputObjectConfig)
    {chain other : List (FieldSetting InputFieldConfig)}
    (hfields : (config.setUp chain).fields.resolve = (config.setUp other).fields.resolve) :
    (Registered.inputObject (config.setUp chain)).SameDirect (.inputObject (config.setUp other)) := by
  intro added
  simp only [Registered.direct, InputObjectConfig.direct, hfields]
  simp only [InputObjectConfig.setUp_eq]

/-! ## Chains on one configuration -/

theorem ObjectConfig.resolve_setUp (config : ObjectConfig) {chain other : List ObjectSetting}
    (h : List.Forall₂ ObjectSetting.SameGiven chain other) :
    (config.setUp chain).fields.resolve = (config.setUp other).fields.resolve ∧
      (config.setUp chain).interfaces.resolve = (config.setUp other).interfaces.resolve := by
  have hsettings : List.Forall₂ Setting.SameGiven (chain.filterMap ObjectSetting.fields?)
        (other.filterMap ObjectSetting.fields?) ∧
      List.Forall₂ Setting.SameGiven (chain.filterMap ObjectSetting.interfaces?)
        (other.filterMap ObjectSetting.interfaces?) := by
    induction h with
    | nil => exact ⟨.nil, .nil⟩
    | cons hfirst _ ih =>
      cases hfirst with
      | fields hsame => exact ⟨.cons hsame ih.1, ih.2⟩
      | interfaces hsame => exact ⟨ih.1, .cons hsame ih.2⟩
  simp only [ObjectConfig.setUp_eq]
  exact ⟨Setting.resolve_foldl_set hsettings.1 rfl, Setting.resolve_foldl_set hsettings.2 rfl⟩

theorem InterfaceConfig.resolve_setUp (config : InterfaceConfig)
    {chain other : List (FieldSetting FieldConfig)}
    (h : List.Forall₂ Setting.SameGiven chain other) :
    (config.setUp chain).fields.resolve = (config.setUp other).fields.resolve := by
  simp only [InterfaceConfig.setUp_eq]
  exact Setting.resolve_foldl_set h rfl

theorem InputObjectConfig.resolve_setUp (config : InputObjectConfig)
    {chain other : List (FieldSetting InputFieldConfig)}
    (h : List.Forall₂ Setting.SameGiven chain other) :
    (config.setUp chain).fields.resolve = (config.setUp other).fields.resolve := by
  simp only [InputObjectConfig.setUp_eq]
  exact Setting.resolve_foldl_set h rfl

theorem ObjectConfig.leaves_setUp (config : ObjectConfig) (chain : List ObjectSetting) :
    Setting.Leaves Keyed.putEntry config.fields.resolve (chain.filterMap ObjectSetting.fields?)
        (config.setUp chain).fields.resolve ∧
      Setting.Leaves (fun names name => names ++ [name]) config.interfaces.resolve
        (chain.filterMap ObjectSetting.interfaces?) (config.setUp chain).interfaces.resolve := by
  simp only [ObjectConfig.setUp_eq]
  exact ⟨Setting.leaves_foldl_set _ _, Setting.leaves_foldl_set _ _⟩

theorem InterfaceConfig.leaves_setUp (config : InterfaceConfig)
    (chain : List (FieldSetting FieldConfig)) :
    Setting.Leaves Keyed.putEntry config.fields.resolve chain
      (config.setUp chain).fields.resolve := by
  simp only [InterfaceConfig.setUp_eq]
  exact Setting.leaves_foldl_set _ _

theorem InputObjectConfig.leaves_setUp (config : InputObjectConfig)
    (chain : List (FieldSetting InputFieldConfig)) :
    Setting.Leaves Keyed.putEntry config.fields.resolve chain
      (config.setUp chain).fields.resolve := by
  simp only [InputObjectConfig.setUp_eq]
  exact Setting.leaves_foldl_set _ _

/-! ## Calls -/

namespace Registration

/-- Calls that differ at most in what of a configuration is given now and what later. -/
inductive SameGiven : Registration → Registration → Prop
  | same (call : Registration) : SameGiven call call
  | object (config : ObjectConfig) {chain other : List ObjectSetting} :
      List.Forall₂ ObjectSetting.SameGiven chain other →
      SameGiven (.object (config.setUp chain)) (.object (config.setUp other))
  | interface (config : InterfaceConfig) {chain other : List (FieldSetting FieldConfig)} :
      List.Forall₂ Setting.SameGiven chain other →
      SameGiven (.interface (config.setUp chain)) (.interface (config.setUp other))
  | inputObject (config : InputObjectConfig) {chain other : List (FieldSetting InputFieldConfig)} :
      List.Forall₂ Setting.SameGiven chain other →
      SameGiven (.inputObject (config.setUp chain)) (.inputObject (config.setUp other))

/-- Both add the same field, or both register, with the same faults and entries that give the
same. -/
theorem SameGiven.registers {call other : Registration} (h : SameGiven call other) :
    (call = other ∧ call.registers? = none) ∨
      ∃ checked alike, call.registers? = some checked ∧ other.registers? = some alike ∧
        Alike Eq Registered.SameDirect checked alike := by
  -- Both configurations have one name, so one check decides for both.
  have hchecked : ∀ {entry alike : Registered}, entry.SameDirect alike →
      ∀ check : Except TypeError Unit,
        Alike Eq Registered.SameDirect (check.map fun _ => entry) (check.map fun _ => alike) := by
    intro entry alike hdirect check
    cases check with
    | error error => exact .error rfl
    | ok done => exact .ok hdirect
  cases h with
  | same call =>
    cases hcall : call.registers? with
    | none => exact Or.inl ⟨rfl, rfl⟩
    | some checked => exact Or.inr ⟨checked, checked, rfl, rfl, .of_eq (fun _ _ => rfl) rfl⟩
  | @object config chain other hchain =>
    have hdirect := config.sameDirect_setUp (config.resolve_setUp hchain).1
      (config.resolve_setUp hchain).2
    have hname : (config.setUp chain).name = (config.setUp other).name := hdirect.name_eq
    refine Or.inr ⟨_, _, rfl, rfl, ?_⟩
    rw [hname]
    exact hchecked hdirect _
  | @interface config chain other hchain =>
    have hdirect := config.sameDirect_setUp (config.resolve_setUp hchain)
    have hname : (config.setUp chain).name = (config.setUp other).name := hdirect.name_eq
    refine Or.inr ⟨_, _, rfl, rfl, ?_⟩
    rw [hname]
    exact hchecked hdirect _
  | @inputObject config chain other hchain =>
    have hdirect := config.sameDirect_setUp (config.resolve_setUp hchain)
    have hname : (config.setUp chain).name = (config.setUp other).name := hdirect.name_eq
    refine Or.inr ⟨_, _, rfl, rfl, ?_⟩
    rw [hname]
    exact hchecked hdirect _

end Registration

/-! ## Registries -/

structure Interchangeable (registry other : TypeRegistry) : Prop where
  keys : registry.entries.keys = other.entries.keys
  entries : ∀ key added, (registry.entries.get? key).map (Registered.direct added) =
    (other.entries.get? key).map (Registered.direct added)
  added : registry.added = other.added

namespace Interchangeable

variable {registry other : TypeRegistry}

theorem refl (registry : TypeRegistry) : Interchangeable registry registry where
  keys := rfl
  entries := fun _ _ => rfl
  added := rfl

theorem contains_eq (h : Interchangeable registry other) (name : String) :
    registry.contains name = other.contains name := by
  simpa [TypeRegistry.contains, Keyed.contains] using congrArg Option.isSome (h.entries name .empty)

theorem any_hasFields_eq (h : Interchangeable registry other) (name : String) :
    (registry.entries.get? name).any Registered.hasFields =
      (other.entries.get? name).any Registered.hasFields := by
  simpa [Option.any_map, Function.comp_def] using
    congrArg (Option.any Registered.hasFields) (h.entries name .empty)

theorem insert (h : Interchangeable registry other) {entry alike : Registered}
    (hdirect : entry.SameDirect alike) :
    Interchangeable { registry with entries := registry.entries.insert entry.name entry }
      { other with entries := other.entries.insert alike.name alike } where
  keys := by rw [Keyed.keys_insert, Keyed.keys_insert, h.keys, hdirect.name_eq]
  entries := by
    intro key added
    rw [Keyed.get?_insert, Keyed.get?_insert, hdirect.name_eq]
    split
    · exact congrArg some (hdirect added)
    · exact h.entries key added
  added := h.added

theorem registers (h : Interchangeable registry other) {call next : Registration}
    {checked alike : Except TypeError Registered} (hcall : call.registers? = some checked)
    (hnext : next.registers? = some alike) (hsame : Alike Eq Registered.SameDirect checked alike) :
    Interchangeable (call.after registry) (next.after other) := by
  rw [Registration.after_of_registers? hcall, Registration.after_of_registers? hnext]
  cases hsame with
  | error _ => exact h
  | ok hdirect =>
    dsimp only
    rw [h.contains_eq, hdirect.name_eq]
    split
    · exact h
    · have hinsert := h.insert hdirect
      rwa [hdirect.name_eq] at hinsert

theorem adds (h : Interchangeable registry other) (typeName field : String) (config : FieldConfig) :
    Interchangeable ((Registration.addField typeName field config).after registry)
      ((Registration.addField typeName field config).after other) := by
  rw [Registration.after_addField, Registration.after_addField, h.any_hasFields_eq]
  split
  · exact {
      keys := h.keys
      entries := h.entries
      added := by simp only [TypeRegistry.addedTo, h.added] }
  · exact h

/-- Calls that give the same keep registries interchangeable. -/
theorem after (h : Interchangeable registry other) {call next : Registration}
    (hsame : call.SameGiven next) : Interchangeable (call.after registry) (next.after other) := by
  rcases hsame.registers with ⟨heq, hnone⟩ | ⟨checked, alike, hcall, hnext, halike⟩
  · subst heq
    cases call with
    | addField typeName field config => exact h.adds typeName field config
    | _ => cases hnone
  · exact h.registers hcall hnext halike

theorem run (h : Interchangeable registry other) {calls others : List Registration}
    (hsame : List.Forall₂ Registration.SameGiven calls others) :
    Interchangeable (registry.run calls) (other.run others) := by
  induction hsame generalizing registry other with
  | nil => exact h
  | cons hfirst _ ih => exact ih (h.after hfirst)

/-- With everything made, the two are the same registry. -/
theorem direct_eq (h : Interchangeable registry other) : registry.direct = other.direct := by
  have hentries : registry.direct.entries = other.direct.entries := by
    apply Keyed.ext_get?
    · show (Keyed.mapValues _ registry.entries).keys = (Keyed.mapValues _ other.entries).keys
      rw [Keyed.keys_mapValues, Keyed.keys_mapValues, h.keys]
    · intro key
      have hadded : registry.addedTo key = other.addedTo key := by
        rw [TypeRegistry.addedTo, TypeRegistry.addedTo, h.added]
      rw [TypeRegistry.get?_direct, TypeRegistry.get?_direct, hadded, h.entries]
  exact congrArg (TypeRegistry.mk · .empty) hentries

end Interchangeable

/-! ## Publication -/

/-- Runs of calls that give the same are published the same. -/
theorem assemble_sameGiven {start : TypeRegistry} (hr : start.Reachable)
    {calls others : List Registration} (h : List.Forall₂ Registration.SameGiven calls others)
    (options : BuildOptions) :
    assemble (calls.foldl Session.left start) options =
      assemble (others.foldl Session.left start) options := by
  have hdirect := ((Interchangeable.refl start).run h).direct_eq
  rw [Session.foldl_left_eq_run, Session.foldl_left_eq_run,
    assemble_eq_publish (hr.run calls).consistent, assemble_eq_publish (hr.run others).consistent,
    ← publish_direct, ← publish_direct (start.run others), hdirect]

/-! ## Chains and what they come to -/

/-- A chain of calls on a configuration in which nothing was set comes to what was given last
with every later part put into it; a chain that gives the same in each call, now or later,
comes to the same, and a schema to which it contributes is published the same. -/
theorem deferral_immaterial :
    (∀ (config : ObjectConfig) (chain other : List ObjectSetting),
      config.fields = .now .empty → config.interfaces = .now [] →
      List.Forall₂ ObjectSetting.SameGiven chain other →
        Setting.Leaves Keyed.putEntry .empty (chain.filterMap ObjectSetting.fields?)
          (config.setUp chain).fields.resolve ∧
        Setting.Leaves (fun names name => names ++ [name]) []
          (chain.filterMap ObjectSetting.interfaces?) (config.setUp chain).interfaces.resolve ∧
        (config.setUp chain).fields.resolve = (config.setUp other).fields.resolve ∧
        (config.setUp chain).interfaces.resolve = (config.setUp other).interfaces.resolve) ∧
    (∀ (config : InterfaceConfig) (chain other : List (FieldSetting FieldConfig)),
      config.fields = .now .empty → List.Forall₂ Setting.SameGiven chain other →
        Setting.Leaves Keyed.putEntry .empty chain (config.setUp chain).fields.resolve ∧
        (config.setUp chain).fields.resolve = (config.setUp other).fields.resolve) ∧
    (∀ (config : InputObjectConfig) (chain other : List (FieldSetting InputFieldConfig)),
      config.fields = .now .empty → List.Forall₂ Setting.SameGiven chain other →
        Setting.Leaves Keyed.putEntry .empty chain (config.setUp chain).fields.resolve ∧
        (config.setUp chain).fields.resolve = (config.setUp other).fields.resolve) ∧
    (∀ (start : TypeRegistry) (calls others : List Registration) (options : BuildOptions),
      start.Reachable → List.Forall₂ Registration.SameGiven calls others →
        assemble (calls.foldl Session.left start) options =
          assemble (others.foldl Session.left start) options) := by
  refine ⟨?_, ?_, ?_, ?_⟩
  · intro config chain other hfields hinterfaces h
    have hleaves := config.leaves_setUp chain
    rw [hfields, hinterfaces] at hleaves
    exact ⟨hleaves.1, hleaves.2, config.resolve_setUp h⟩
  · intro config chain other hfields h
    have hleaves := config.leaves_setUp chain
    rw [hfields] at hleaves
    exact ⟨hleaves, config.resolve_setUp h⟩
  · intro config chain other hfields h
    have hleaves := config.leaves_setUp chain
    rw [hfields] at hleaves
    exact ⟨hleaves, config.resolve_setUp h⟩
  · intro start calls others options hr h
    exact assemble_sameGiven hr h options

/-! A ferry, set up with everything given now or with everything delayed: fields and interfaces
are given twice, with parts put in before and after, and a part that replaces another. -/

def ferry : ObjectConfig := { name := "Ferry" }

def vessel : InterfaceConfig := {
  name := "Vessel"
  resolveType := some fun _ _ => some "Ferry" }

def search : InputObjectConfig := { name := "Search" }

def ferrySettings (give : ∀ {α : Type}, α → Deferred α) : List ObjectSetting := [
  .fields (.part ("tons", { type := .named "Int" })),
  .interfaces (.whole (give ["Vessel", "Vehicle"])),
  .fields (.whole (give (.ofList [("name", { type := .named "String" })]))),
  .interfaces (.part "Vessel"),
  .fields (.part ("crew", { type := .named "Int" })),
  .fields (.whole (give (.ofList [
    ("name", { type := .named "Int" }), ("decks", { type := .named "Int" })]))),
  .interfaces (.whole (give ["Vessel"])),
  .fields (.part ("crew", { type := .named "Int" })),
  .fields (.part ("name", { type := .nonNull (.named "String") })),
  .interfaces (.part "Vessel")]

def vesselSettings (give : ∀ {α : Type}, α → Deferred α) : List (FieldSetting FieldConfig) := [
  .whole (give (.ofList [("name", { type := .named "String" })])),
  .part ("crew", { type := .named "Int" })]

def searchSettings (give : ∀ {α : Type}, α → Deferred α) : List (FieldSetting InputFieldConfig) := [
  .part ("name", { type := .named "String" }),
  .whole (give (.ofList [("crew", { type := .named "Int" })])),
  .part ("decks", { type := .named "Int" })]

def harbourCalls (give : ∀ {α : Type}, α → Deferred α) : List Registration := [
  .object (ferry.setUp (ferrySettings give)),
  .interface (vessel.setUp (vesselSettings give)),
  .inputObject (search.setUp (searchSettings give))]

theorem ferrySettings_sameGiven :
    List.Forall₂ ObjectSetting.SameGiven (ferrySettings .now) (ferrySettings .delayed) :=
  .cons (.fields (.part _)) <| .cons (.interfaces (.whole rfl)) <| .cons (.fields (.whole rfl)) <|
  .cons (.interfaces (.part _)) <| .cons (.fields (.part _)) <| .cons (.fields (.whole rfl)) <|
  .cons (.interfaces (.whole rfl)) <| .cons (.fields (.part _)) <| .cons (.fields (.part _)) <|
  .cons (.interfaces (.part _)) .nil

theorem vesselSettings_sameGiven :
    List.Forall₂ Setting.SameGiven (vesselSettings .now) (vesselSettings .delayed) :=
  .cons (.whole rfl) <| .cons (.part _) .nil

theorem searchSettings_sameGiven :
    List.Forall₂ Setting.SameGiven (searchSettings .now) (searchSettings .delayed) :=
  .cons (.part _) <| .cons (.whole rfl) <| .cons (.part _) .nil

/-- Set up either way, the ferry is published with the fields given last, one of them with the
part that replaced it, and the part that came after. -/
theorem ferry_deferred :
    (ferry.setUp (ferrySettings .now)).fields.resolve.keys = ["name", "decks", "crew"] ∧
      (ferry.setUp (ferrySettings .now)).fields.resolve =
        (ferry.setUp (ferrySettings .delayed)).fields.resolve ∧
      (ferry.setUp (ferrySettings .delayed)).interfaces.resolve = ["Vessel", "Vessel"] ∧
      (vessel.setUp (vesselSettings .now)).fields.resolve =
        (vessel.setUp (vesselSettings .delayed)).fields.resolve ∧
      (search.setUp (searchSettings .now)).fields.resolve =
        (search.setUp (searchSettings .delayed)).fields.resolve ∧
      (∃ types, assemble ((harbourCalls .now).foldl Session.left .standard) {} = .ok types ∧
        (types.get? "Ferry").bind TypeDefinition.fieldTypes? =
          some [("name", .nonNull (.named "String")), ("decks", .named "Int"),
            ("crew", .named "Int")]) ∧
      assemble ((harbourCalls .now).foldl Session.left .standard) {} =
        assemble ((harbourCalls .delayed).foldl Session.left .standard) {} := by
  obtain ⟨hobject, hinterface, hinput, hrun⟩ := deferral_immaterial
  obtain ⟨_, _, hfields, hinterfaces⟩ := hobject ferry _ _ rfl rfl ferrySettings_sameGiven
  obtain ⟨_, hvessel⟩ := hinterface vessel _ _ rfl vesselSettings_sameGiven
  obtain ⟨_, hsearch⟩ := hinput search _ _ rfl searchSettings_sameGiven
  refine ⟨by decide +kernel, hfields, hinterfaces.symm.trans (by decide +kernel), hvessel, hsearch,
    exists_ok_of_check (by decide +kernel), hrun .standard _ _ {} .standard ?_⟩
  exact .cons (.object ferry ferrySettings_sameGiven) <|
    .cons (.interface vessel vesselSettings_sameGiven) <|
    .cons (.inputObject search searchSettings_sameGiven) .nil

end GraphSchema
