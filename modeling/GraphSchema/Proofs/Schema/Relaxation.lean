/-
  GraphSchema.Proofs.Schema.Relaxation — what the rule for listed interfaces takes away.

  With `requireInterfaceResolveType` an object may list only interfaces that name the types
  of values themselves; without it an object that has a predicate may list any interface.
  The option is read where an object is built and nowhere else, but what is built there
  decides which objects unions, interfaces and promises find later.
  - A fault that was noted stays noted (`errors_finish`), so a registry that is published
    had no fault after the pass over its entries.
  - A pass without a fault under the rule is the pass without it, and every listed interface
    names types itself (`foldl_sort_requiring_iff`). What follows does not read the option.
  - So the rule refuses schemas and changes none: under it a schema is made exactly if the
    same schema is made without it and the listed interfaces keep the rule
    (`ofCalls_requiring_iff`).
  - `aviary_relaxed`: the aviary is published without the rule only.
-/

import GraphSchema.Proofs.Print.Coverage
import GraphSchema.Proofs.Schema.Resolution

namespace GraphSchema

def BuildOptions.requiring (options : BuildOptions) (require : Bool) : BuildOptions :=
  { options with requireInterfaceResolveType := require }

/-- The same roots, with the rule or without it. -/
def SchemaConfig.requiring (config : SchemaConfig) (require : Bool) : SchemaConfig :=
  { config with options := config.options.requiring require }

/-- Every interface that an object lists names the types of values itself. -/
def TypeRegistry.ResolvesListed (registry : TypeRegistry) : Prop :=
  ∀ name object, registry.entries.get? name = some (.object object) →
    ∀ listed ∈ object.interfaces.resolve,
      ∃ interface, registry.entries.get? listed = some (.interface interface) ∧
        interface.resolveType.isSome = true

/-- The interfaces an entry lists name types themselves; only objects list any. -/
def Registered.ListsResolving (kinds : KindTable) : Registered → Prop
  | .object config => ∀ listed ∈ config.interfaces.resolve,
      kinds.named? listed = some (.interface true)
  | _ => True

theorem TypeRegistry.resolvesListed_iff {registry : TypeRegistry} :
    registry.ResolvesListed ↔
      ∀ named ∈ registry.entries.entries, named.2.ListsResolving registry.kindTable := by
  have hresolves : ∀ listed, registry.kindTable.named? listed = some (.interface true) ↔
      ∃ interface, registry.entries.get? listed = some (.interface interface) ∧
        interface.resolveType.isSome = true := fun listed =>
    @Publication.named?_kinds_eq_interface_iff ⟨registry, {}⟩ listed true
  constructor
  · intro h named hnamed
    obtain ⟨name, entry⟩ := named
    cases entry with
    | object object =>
      intro listed hlisted
      exact (hresolves listed).mpr (h name object (Keyed.get?_eq_some_iff.mpr hnamed) listed hlisted)
    | _ => trivial
  · intro h name object hentry listed hlisted
    exact (hresolves listed).mp (h (name, .object object) (Keyed.get?_eq_some_iff.mp hentry) listed
      hlisted)

/-! ## Objects -/

namespace ObjectConfig

variable {kinds : KindTable} {options : BuildOptions}

theorem checkInterface_requiring_iff {object : String} {hasIsTypeOf : Bool} {name : String} :
    checkInterface object hasIsTypeOf kinds (options.requiring true) name = .ok () ↔
      checkInterface object hasIsTypeOf kinds (options.requiring false) name = .ok () ∧
        kinds.named? name = some (.interface true) := by
  rw [checkInterface_eq_ok_iff, checkInterface_eq_ok_iff]
  constructor
  · intro h
    obtain ⟨resolvesType, hkind, htold⟩ := h
    rcases htold with hresolves | ⟨hrelaxed, _⟩
    · subst hresolves
      exact ⟨⟨true, hkind, Or.inl rfl⟩, hkind⟩
    · cases hrelaxed
  · intro h
    exact ⟨true, h.2, Or.inl rfl⟩

/-- An object is built under the rule if it is built without it, to the same, and keeps the
rule. -/
theorem define_requiring_iff {config : ObjectConfig} {added : Keyed FieldConfig}
    {object : ObjectType} :
    config.define added kinds (options.requiring true) = .ok object ↔
      config.define added kinds (options.requiring false) = .ok object ∧
        ∀ listed ∈ config.interfaces.resolve, kinds.named? listed = some (.interface true) := by
  rw [define_eq_ok_iff, define_eq_ok_iff]
  constructor
  · intro h
    obtain ⟨hvalid, hpublished⟩ := h
    have hlisted := fun listed hmem => checkInterface_requiring_iff.mp (hvalid.interfaces listed hmem)
    exact ⟨⟨⟨fun listed hmem => (hlisted listed hmem).1, hvalid.fields⟩, hpublished⟩,
      fun listed hmem => (hlisted listed hmem).2⟩
  · intro h
    obtain ⟨⟨hvalid, hpublished⟩, hresolves⟩ := h
    refine ⟨⟨fun listed hmem => ?_, hvalid.fields⟩, hpublished⟩
    exact checkInterface_requiring_iff.mpr ⟨hvalid.interfaces listed hmem, hresolves listed hmem⟩

end ObjectConfig

namespace Assembly

variable {kinds : KindTable} {options : BuildOptions} {assembly after : Assembly}

/-! ## Faults stay -/

theorem errors_settle (assembly : Assembly) (outcome : Except TypeError TypeDefinition) :
    assembly.errors <+: (assembly.settle outcome).errors := by
  cases outcome with
  | ok type => exact List.prefix_rfl
  | error error => exact List.prefix_append ..

theorem errors_sort (kinds : KindTable) (options : BuildOptions) (assembly : Assembly)
    (named : String × Registered) :
    assembly.errors <+: (assembly.sort kinds options named).errors := by
  obtain ⟨name, entry⟩ := named
  cases entry with
  | object config =>
    show assembly.errors <+: (assembly.buildObject kinds options name config).errors
    unfold buildObject
    split
    · exact List.prefix_rfl
    · exact List.prefix_append ..
  | _ => exact List.prefix_rfl

theorem errors_checkPromises (assembly : Assembly) (name : String) :
    assembly.errors <+: (assembly.checkPromises name).errors := by
  rw [checkPromises_eq]
  exact List.prefix_append ..

theorem errors_foldl {α : Type} {step : Assembly → α → Assembly}
    (h : ∀ assembly a, assembly.errors <+: (step assembly a).errors) (as : List α)
    (assembly : Assembly) : assembly.errors <+: (as.foldl step assembly).errors := by
  induction as generalizing assembly with
  | nil => exact List.prefix_rfl
  | cons a rest ih => exact (h assembly a).trans (ih (step assembly a))

/-- All that follows the pass over the entries. -/
def finish (assembly : Assembly) (registry : TypeRegistry) : Assembly :=
  let kinds := registry.kindTable
  registry.names.foldl checkPromises
    (((assembly.buildUnions kinds).buildInterfaces kinds).buildInputs kinds).placeObjects

theorem errors_finish (assembly : Assembly) (registry : TypeRegistry) :
    assembly.errors <+: (assembly.finish registry).errors := by
  have hunions := errors_foldl (fun assembly config => errors_settle assembly
    ((config.define assembly.objects registry.kindTable).map .union)) assembly.unions assembly
  have hinterfaces := fun assembly : Assembly => errors_foldl
    (fun assembly config => errors_settle { assembly with added := assembly.added.erase config.name }
      ((config.define (assembly.addedTo config.name) assembly.objects
        registry.kindTable).map .interface)) assembly.interfaces assembly
  have hinputs := fun assembly : Assembly => errors_foldl (fun assembly config =>
    errors_settle assembly ((config.define registry.kindTable).map .inputObject))
      assembly.inputs assembly
  have hplaced := fun assembly : Assembly => errors_foldl (fun assembly object =>
    errors_settle assembly (.ok (.object object))) assembly.objects assembly
  have hchecked := errors_foldl errors_checkPromises registry.names
  exact hunions.trans ((hinterfaces _).trans ((hinputs _).trans ((hplaced _).trans (hchecked _))))

/-! ## The pass over the entries -/

theorem buildObject_faultless_iff {name : String} {config : ObjectConfig} :
    assembly.buildObject kinds options name config = after ∧ after.errors = [] ↔
      ∃ object, config.define (assembly.addedTo name) kinds options = .ok object ∧
        { assembly with
          added := assembly.added.erase name
          objects := assembly.objects ++ [object] } = after ∧ assembly.errors = [] := by
  unfold buildObject
  cases config.define (assembly.addedTo name) kinds options with
  | ok object =>
    simp only [Except.ok.injEq, exists_eq_left']
    refine and_congr_right fun hafter => ?_
    subst hafter
    exact Iff.rfl
  | error error =>
    simp only [reduceCtorEq, false_and, exists_false, iff_false]
    intro h
    obtain ⟨hafter, hnone⟩ := h
    subst hafter
    exact List.append_ne_nil_of_right_ne_nil _ (List.cons_ne_nil _ _) hnone

theorem sort_requiring_iff {named : String × Registered} :
    assembly.sort kinds (options.requiring true) named = after ∧ after.errors = [] ↔
      (assembly.sort kinds (options.requiring false) named = after ∧ after.errors = []) ∧
        named.2.ListsResolving kinds := by
  obtain ⟨name, entry⟩ := named
  cases entry with
  | object config =>
    show assembly.buildObject kinds _ name config = after ∧ after.errors = [] ↔
      (assembly.buildObject kinds _ name config = after ∧ after.errors = []) ∧
        ∀ listed ∈ config.interfaces.resolve, kinds.named? listed = some (.interface true)
    simp only [buildObject_faultless_iff, ObjectConfig.define_requiring_iff]
    constructor
    · intro h
      obtain ⟨object, ⟨hdefine, hresolves⟩, hafter⟩ := h
      exact ⟨⟨object, hdefine, hafter⟩, hresolves⟩
    · intro h
      obtain ⟨⟨object, hdefine, hafter⟩, hresolves⟩ := h
      exact ⟨object, ⟨hdefine, hresolves⟩, hafter⟩
  | _ => exact (and_iff_left trivial).symm

/-- Without a fault at the end there was none on the way, so step by step the two passes are
one. -/
theorem foldl_sort_requiring_iff {entries : List (String × Registered)} :
    entries.foldl (sort kinds (options.requiring true)) assembly = after ∧ after.errors = [] ↔
      (entries.foldl (sort kinds (options.requiring false)) assembly = after ∧ after.errors = []) ∧
        ∀ named ∈ entries, named.2.ListsResolving kinds := by
  induction entries generalizing assembly with
  | nil => simp
  | cons named rest ih =>
    have hstart : ∀ {options : BuildOptions},
        (rest.foldl (sort kinds options) (assembly.sort kinds options named)).errors = [] →
          (assembly.sort kinds options named).errors = [] := fun hnone =>
      List.prefix_nil.mp (hnone ▸ errors_foldl (errors_sort kinds _) rest _)
    rw [List.foldl_cons, List.foldl_cons, List.forall_mem_cons]
    constructor
    · intro h
      obtain ⟨hafter, hnone⟩ := h
      have hfirst := hstart (hafter.symm ▸ hnone)
      obtain ⟨⟨hsame, _⟩, hlists⟩ := sort_requiring_iff.mp ⟨rfl, hfirst⟩
      obtain ⟨hrest, hlistsRest⟩ := ih.mp ⟨hafter, hnone⟩
      rw [hsame]
      exact ⟨hrest, hlists, hlistsRest⟩
    · intro h
      obtain ⟨⟨hafter, hnone⟩, hlists, hlistsRest⟩ := h
      have hfirst := hstart (hafter.symm ▸ hnone)
      obtain ⟨hsame, _⟩ := sort_requiring_iff.mpr ⟨⟨rfl, hfirst⟩, hlists⟩
      rw [hsame]
      exact ih.mpr ⟨⟨hafter, hnone⟩, hlistsRest⟩

end Assembly

/-! ## Publication -/

variable {registry : TypeRegistry} {options : BuildOptions}

theorem assemble_eq_ok_iff {types : Keyed TypeDefinition} :
    assemble registry options = .ok types ↔
      ((Assembly.sorted registry options).finish registry).errors = [] ∧
        ((Assembly.sorted registry options).finish registry).collect registry.names = types := by
  have hfinish : registry.names.foldl Assembly.checkPromises (.ofRegistry registry options) =
      (Assembly.sorted registry options).finish registry := rfl
  unfold assemble
  rw [hfinish]
  by_cases h : ((Assembly.sorted registry options).finish registry).errors = []
  · simp [h]
  · simp [h]

theorem assemble_requiring_iff {types : Keyed TypeDefinition} :
    assemble registry (options.requiring true) = .ok types ↔
      assemble registry (options.requiring false) = .ok types ∧ registry.ResolvesListed := by
  have hstart : ∀ {options : BuildOptions},
      ((Assembly.sorted registry options).finish registry).errors = [] →
        (Assembly.sorted registry options).errors = [] := fun hnone =>
    List.prefix_nil.mp (hnone ▸ Assembly.errors_finish _ registry)
  rw [assemble_eq_ok_iff, assemble_eq_ok_iff, TypeRegistry.resolvesListed_iff]
  constructor
  · intro h
    obtain ⟨hnone, htypes⟩ := h
    obtain ⟨⟨hsame, _⟩, hlists⟩ := Assembly.foldl_sort_requiring_iff.mp ⟨rfl, hstart hnone⟩
    have hsorted : Assembly.sorted registry (options.requiring false) =
        Assembly.sorted registry (options.requiring true) := hsame
    rw [hsorted]
    exact ⟨⟨hnone, htypes⟩, hlists⟩
  · intro h
    obtain ⟨⟨hnone, htypes⟩, hlists⟩ := h
    obtain ⟨hsame, _⟩ := Assembly.foldl_sort_requiring_iff.mpr ⟨⟨rfl, hstart hnone⟩, hlists⟩
    have hsorted : Assembly.sorted registry (options.requiring true) =
        Assembly.sorted registry (options.requiring false) := hsame
    rw [hsorted]
    exact ⟨hnone, htypes⟩

namespace Schema

/-- With the rule a schema is made exactly if without it the same schema is made and every
listed interface names types itself. -/
theorem ofCalls_requiring_iff (start : TypeRegistry) (calls : List Registration)
    (config : SchemaConfig) (schema : Schema) :
    ofCalls start calls (config.requiring true) = .ok schema ↔
      ofCalls start calls (config.requiring false) = .ok schema ∧
        (calls.foldl Session.left start).ResolvesListed := by
  have hroots : ∀ require, ofTypes (config.requiring require) = ofTypes config := fun _ => rfl
  rw [ofCalls, ofCalls, hroots, hroots, bind_eq_ok_iff, bind_eq_ok_iff]
  simp only [SchemaConfig.requiring, assemble_requiring_iff]
  constructor
  · intro h
    obtain ⟨types, ⟨htypes, hlisted⟩, hschema⟩ := h
    exact ⟨⟨types, htypes, hschema⟩, hlisted⟩
  · intro h
    obtain ⟨⟨types, htypes, hschema⟩, hlisted⟩ := h
    exact ⟨types, ⟨htypes, hlisted⟩, hschema⟩

/-- The catalogue keeps the rule and is the same without it. In the aviary `Bird` does not
name types itself, and the objects that list it tell their own values. -/
theorem aviary_relaxed :
    (∃ schema, ofCalls catalogue [] (SchemaConfig.requiring {} true) = .ok schema ∧
      ofCalls catalogue [] (SchemaConfig.requiring {} false) = .ok schema) ∧
    (∃ schema, ofCalls aviary [] (SchemaConfig.requiring {} false) = .ok schema) ∧
    ∀ schema, ofCalls aviary [] (SchemaConfig.requiring {} true) ≠ .ok schema := by
  obtain ⟨schema, hschema⟩ : ∃ schema,
      ofCalls catalogue [] (SchemaConfig.requiring {} true) = .ok schema :=
    exists_of_isOk (by decide +kernel)
  refine ⟨⟨schema, hschema, ((ofCalls_requiring_iff ..).mp hschema).1⟩,
    exists_of_isOk (by decide +kernel), fun other hother => ?_⟩
  have hlisted := ((ofCalls_requiring_iff ..).mp hother).2
  obtain ⟨owl, howl, hlists⟩ : ∃ owl, aviary.entries.get? "Owl" = some (.object owl) ∧
      "Bird" ∈ owl.interfaces.resolve := ⟨_, rfl, List.mem_singleton_self _⟩
  obtain ⟨bird, hbird, hnone⟩ : ∃ bird, aviary.entries.get? "Bird" = some (.interface bird) ∧
      bird.resolveType = none := ⟨_, rfl, rfl⟩
  obtain ⟨found, hfound, hresolves⟩ := hlisted "Owl" owl howl "Bird" hlists
  cases Keyed.eq_of_get?_eq_get? hfound hbird
  rw [hnone] at hresolves
  cases hresolves

end Schema

end GraphSchema
