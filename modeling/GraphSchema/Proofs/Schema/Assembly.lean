/-
  GraphSchema.Proofs.Schema.Assembly — the phases of publication come to what is published.

  Every entry is dealt with in one phase and no other (`outcomes`). So the types that were
  put are those that can be built, whatever order they were put in
  (`get?_types_ofRegistry`), the faults are those of the four phases in turn
  (`errors_ofRegistry`), and publishing phase by phase is publishing
  (`assemble_eq_publish`). Nothing is lost on the way: a published registry has a type of
  the registered kind under every name, in order (`assemble_names`).
-/

import GraphSchema.Proofs.Schema.Settling
import GraphSchema.Proofs.Schema.Reordering

namespace GraphSchema

/-! ## Entries of one kind -/

namespace Publication

open Assembly

variable {publication : Publication} {kind : TypeKind} {name : String} {type : TypeDefinition}

/-- What becomes of the entries of one kind, in order of registration. -/
def outcomes (publication : Publication) (kind : TypeKind) :
    List (Except TypeError TypeDefinition) :=
  publication.registry.entries.entries.filterMap fun named =>
    if named.2.kind = kind then some (publication.build named.1 named.2) else none

theorem filterMap_fault?_outcomes (publication : Publication) (kind : TypeKind) :
    (publication.outcomes kind).filterMap fault? = publication.errorsOfKind kind := by
  rw [outcomes, errorsOfKind, List.filterMap_filterMap]
  refine congrArg (List.filterMap · _) (funext fun named => ?_)
  by_cases hkind : named.2.kind = kind
  · cases hbuild : publication.build named.1 named.2 <;> simp [hkind, hbuild, fault?]
  · cases hbuild : publication.build named.1 named.2 <;> simp [hkind, hbuild]

theorem mem_placed?_outcomes_iff (hc : publication.registry.Consistent) :
    (name, type) ∈ (publication.outcomes kind).filterMap placed? ↔
      ∃ entry, publication.registry.entries.get? name = some entry ∧ entry.kind = kind ∧
        publication.build name entry = .ok type := by
  simp only [outcomes, List.mem_filterMap]
  constructor
  · intro h
    obtain ⟨outcome, ⟨⟨key, entry⟩, hentry, houtcome⟩, hplaced⟩ := h
    split at houtcome
    · rename_i hkind
      cases houtcome
      cases hbuild : publication.build key entry with
      | error error => simp [hbuild, placed?] at hplaced
      | ok built =>
        simp only [hbuild, placed?, Option.some.injEq, Prod.mk.injEq] at hplaced
        obtain ⟨hname, htype⟩ := hplaced
        have hget := Keyed.get?_eq_some_iff.mpr hentry
        have hkey : built.name = key := (builds_of_build hbuild).name_eq_key hc hget
        rw [hkey] at hname
        subst hname htype
        exact ⟨entry, hget, hkind, hbuild⟩
    · cases houtcome
  · intro h
    obtain ⟨entry, hentry, hkind, hbuild⟩ := h
    refine ⟨.ok type, ⟨(name, entry), Keyed.get?_eq_some_iff.mp hentry, ?_⟩, ?_⟩
    · rw [if_pos hkind, hbuild]
    · have hname : type.name = name :=
        (builds_of_build hbuild).name_eq.trans (hc.named name entry hentry).1
      rw [placed?, hname]

theorem map_objects_outcomes (publication : Publication) :
    (publication.registry.entries.entries.filterMap (object? publication)).map (Except.map .object) =
      publication.outcomes .object := by
  rw [outcomes, List.map_filterMap]
  refine congrArg (List.filterMap · _) (funext fun named => ?_)
  obtain ⟨name, entry⟩ := named
  cases entry <;> rfl

theorem filterMap_toOption_objects (publication : Publication) :
    (publication.registry.entries.entries.filterMap (object? publication)).filterMap
      Except.toOption = publication.objects := by
  rw [objects, List.filterMap_filterMap]
  refine congrArg (List.filterMap · _) (funext fun named => ?_)
  obtain ⟨name, entry⟩ := named
  cases entry <;> rfl

theorem mem_leaf?_iff :
    (name, type) ∈ publication.registry.entries.entries.filterMap leaf? ↔
      ∃ entry, publication.registry.entries.get? name = some entry ∧
        (entry.kind = .scalar ∨ entry.kind = .enum) ∧ publication.build name entry = .ok type := by
  simp only [List.mem_filterMap, Keyed.get?_eq_some_iff]
  constructor
  · intro h
    obtain ⟨⟨key, entry⟩, hentry, hleaf⟩ := h
    cases entry with
    | scalar scalar => cases hleaf; exact ⟨_, hentry, Or.inl rfl, rfl⟩
    | enum enum => cases hleaf; exact ⟨_, hentry, Or.inr rfl, rfl⟩
    | _ => cases hleaf
  · intro h
    obtain ⟨entry, hentry, hkind, hbuild⟩ := h
    refine ⟨(name, entry), hentry, ?_⟩
    cases entry with
    | scalar scalar => cases hbuild; rfl
    | enum enum => cases hbuild; rfl
    | _ => rcases hkind with hkind | hkind <;> cases hkind

/-! ## The lists worked off -/

section

variable {assembly : Assembly}

theorem settles_unions
    (hunions : assembly.unions = publication.registry.entries.entries.filterMap union?)
    (hobjects : assembly.objects = publication.objects) :
    Settles (publication.outcomes .union) assembly
      (assembly.buildUnions publication.kinds) := by
  have houtcomes : (assembly.unions.map fun config =>
      (config.define assembly.objects publication.kinds).map .union) =
        publication.outcomes .union := by
    rw [hunions, hobjects, List.map_filterMap, outcomes]
    refine congrArg (List.filterMap · _) (funext fun named => ?_)
    obtain ⟨name, entry⟩ := named
    cases entry <;> rfl
  rw [buildUnions, foldl_buildUnion, houtcomes]
  exact settles_foldl _ assembly

theorem settles_inputs
    (hinputs : assembly.inputs = publication.registry.entries.entries.filterMap input?) :
    Settles (publication.outcomes .inputObject) assembly
      (assembly.buildInputs publication.kinds) := by
  have houtcomes : (assembly.inputs.map fun config =>
      (config.define publication.kinds).map .inputObject) =
        publication.outcomes .inputObject := by
    rw [hinputs, List.map_filterMap, outcomes]
    refine congrArg (List.filterMap · _) (funext fun named => ?_)
    obtain ⟨name, entry⟩ := named
    cases entry <;> rfl
  rw [buildInputs, foldl_buildInput, houtcomes]
  exact settles_foldl _ assembly

theorem settles_interfaces (hc : publication.registry.Consistent)
    (hinterfaces : assembly.interfaces =
      publication.registry.entries.entries.filterMap interface?)
    (hobjects : assembly.objects = publication.objects)
    (hadded : ∀ name config, publication.registry.entries.get? name = some (.interface config) →
      assembly.addedTo name = publication.registry.addedTo name) :
    Settles (publication.outcomes .interface) assembly
      (assembly.buildInterfaces publication.kinds) := by
  -- A configuration put aside is asked for its own name, which is the registered one.
  have hnamed : ∀ named ∈ publication.registry.entries.entries, ∀ config,
      interface? named = some config → config.name = named.1 ∧ named.2 = .interface config := by
    intro named hmem config hconfig
    obtain ⟨name, entry⟩ := named
    cases entry with
    | interface found =>
      cases hconfig
      exact ⟨(hc.named name _ (Keyed.get?_eq_some_iff.mpr hmem)).1, rfl⟩
    | _ => cases hconfig
  have hnd : (assembly.interfaces.map InterfaceConfig.name).Nodup := by
    rw [hinterfaces]
    exact Keyed.nodup_map_filterMap fun named hmem config hconfig =>
      (hnamed named hmem config hconfig).1
  have hready : ∀ config ∈ assembly.interfaces,
      assembly.addedTo config.name = publication.registry.addedTo config.name := by
    intro config hconfig
    rw [hinterfaces] at hconfig
    obtain ⟨named, hmem, hsome⟩ := List.mem_filterMap.mp hconfig
    obtain ⟨hname, hentry⟩ := hnamed named hmem config hsome
    rw [hname]
    exact hadded named.1 config (Keyed.get?_eq_some_iff.mpr (hentry ▸ hmem))
  have houtcomes : (assembly.interfaces.map fun config =>
      (config.define (publication.registry.addedTo config.name) assembly.objects
        publication.kinds).map .interface) = publication.outcomes .interface := by
    rw [hinterfaces, hobjects, List.map_filterMap, outcomes]
    refine List.filterMap_congr fun named hmem => ?_
    obtain ⟨name, entry⟩ := named
    cases entry with
    | interface config =>
      have hname := (hnamed _ hmem config rfl).1
      simp only [interface?, Option.map_some, hname]
      rfl
    | _ => rfl
  rw [← houtcomes]
  exact settles_foldl_buildInterface publication.kinds hnd hready

end

/-! ## All phases -/

/-- The outcomes of the phases after the pass over the entries. -/
def laterOutcomes (publication : Publication) : List (Except TypeError TypeDefinition) :=
  publication.outcomes .union ++ (publication.outcomes .interface ++
    (publication.outcomes .inputObject ++ publication.objects.map fun object => .ok (.object object)))

theorem settles_phases (hc : publication.registry.Consistent) {start : Assembly}
    (h : Sorted publication publication.registry.entries.entries
      { added := publication.registry.added } start) :
    Settles publication.laterOutcomes start
      (((start.buildUnions publication.kinds).buildInterfaces publication.kinds).buildInputs
        publication.kinds).placeObjects := by
  have hobjects : start.objects = publication.objects :=
    h.objects.trans (filterMap_toOption_objects publication)
  have hunions := settles_unions h.unions hobjects
  have hadded : ∀ name config,
      publication.registry.entries.get? name = some (.interface config) →
        (start.buildUnions publication.kinds).addedTo name = publication.registry.addedTo name := by
    intro name config hentry
    rw [addedTo_buildUnions]
    refine h.added name fun other hother => ?_
    cases Keyed.eq_of_get?_eq_get? hentry (Keyed.get?_eq_some_iff.mpr hother)
  have hinterfaces := settles_interfaces hc (hunions.interfaces.trans h.interfaces)
    (hunions.objects.trans hobjects) hadded
  have hinputs := settles_inputs (hinterfaces.inputs.trans (hunions.inputs.trans h.inputs))
  have hkept := hinputs.objects.trans (hinterfaces.objects.trans (hunions.objects.trans hobjects))
  have hplaced := settles_placeObjects
    (((start.buildUnions publication.kinds).buildInterfaces publication.kinds).buildInputs
      publication.kinds)
  rw [hkept] at hplaced
  exact hunions.append (hinterfaces.append (hinputs.append hplaced))

/-- What is put under which name, in the order of the phases. -/
def placements (publication : Publication) : List (String × TypeDefinition) :=
  publication.registry.entries.entries.filterMap leaf? ++ publication.laterOutcomes.filterMap placed?

theorem mem_placements_iff (hc : publication.registry.Consistent) :
    (name, type) ∈ publication.placements ↔ publication.types.get? name = some type := by
  have hbuilt : (∃ entry, publication.registry.entries.get? name = some entry ∧
      publication.build name entry = .ok type) ↔ publication.types.get? name = some type := by
    simp only [get?_types_eq_some_iff, build_eq_ok_iff]
  have hobject : (name, type) ∈ (publication.objects.map fun object =>
      (.ok (.object object) : Except TypeError TypeDefinition)).filterMap placed? ↔
        ∃ object, publication.types.get? name = some (.object object) ∧ .object object = type := by
    simp only [List.filterMap_map, List.mem_filterMap, Function.comp_apply, placed?,
      Option.some.injEq, Prod.mk.injEq, get?_types_eq_object_iff hc, and_assoc]
    rfl
  simp only [placements, laterOutcomes, List.filterMap_append, List.mem_append, mem_leaf?_iff,
    mem_placed?_outcomes_iff hc, hobject]
  constructor
  · intro h
    rcases h with ⟨entry, hentry, _, hbuild⟩ | ⟨entry, hentry, _, hbuild⟩ |
      ⟨entry, hentry, _, hbuild⟩ | ⟨entry, hentry, _, hbuild⟩ | ⟨object, hobject, htype⟩
    · exact hbuilt.mp ⟨entry, hentry, hbuild⟩
    · exact hbuilt.mp ⟨entry, hentry, hbuild⟩
    · exact hbuilt.mp ⟨entry, hentry, hbuild⟩
    · exact hbuilt.mp ⟨entry, hentry, hbuild⟩
    · exact htype ▸ hobject
  · intro h
    obtain ⟨entry, hentry, hbuild⟩ := hbuilt.mpr h
    cases entry with
    | scalar scalar => exact Or.inl ⟨_, hentry, Or.inl rfl, hbuild⟩
    | enum enum => exact Or.inl ⟨_, hentry, Or.inr rfl, hbuild⟩
    | union config => exact Or.inr (Or.inl ⟨_, hentry, rfl, hbuild⟩)
    | interface config => exact Or.inr (Or.inr (Or.inl ⟨_, hentry, rfl, hbuild⟩))
    | inputObject config => exact Or.inr (Or.inr (Or.inr (Or.inl ⟨_, hentry, rfl, hbuild⟩)))
    | object config =>
      obtain ⟨object, _, htype⟩ := map_eq_ok_iff.mp hbuild
      exact Or.inr (Or.inr (Or.inr (Or.inr ⟨object, htype ▸ h, htype⟩)))

theorem sorted_sorted (publication : Publication) :
    Sorted publication publication.registry.entries.entries
      { added := publication.registry.added }
      (Assembly.sorted publication.registry publication.options) :=
  sorted_foldl publication.registry.entries.keys_nodup fun _ _ => rfl

theorem get?_types_ofRegistry (publication : Publication)
    (hc : publication.registry.Consistent) (name : String) :
    (Assembly.ofRegistry publication.registry publication.options).types.get? name =
      publication.types.get? name := by
  have hsorted := sorted_sorted publication
  have htypes : (Assembly.ofRegistry publication.registry publication.options).types =
      .ofList publication.placements := by
    rw [placements, Keyed.ofList, Keyed.insertAll_append]
    exact (settles_phases hc hsorted).types.trans (by rw [hsorted.types])
  apply Option.ext
  intro type
  rw [htypes, Keyed.get?_ofList_eq_some_iff, mem_placements_iff hc]
  intro key first second hfirst hsecond
  exact Keyed.eq_of_get?_eq_get? ((mem_placements_iff hc).mp hfirst)
    ((mem_placements_iff hc).mp hsecond)

theorem errors_ofRegistry (publication : Publication) (hc : publication.registry.Consistent) :
    (Assembly.ofRegistry publication.registry publication.options).errors =
      publication.definitionErrors := by
  have hsorted := sorted_sorted publication
  have hobjects : (Assembly.sorted publication.registry publication.options).errors =
      publication.errorsOfKind .object := by
    rw [hsorted.errors, ← filterMap_fault?_outcomes, ← map_objects_outcomes, List.filterMap_map]
    rfl
  have hplaced : (publication.objects.map fun object =>
      (.ok (.object object) : Except TypeError TypeDefinition)).filterMap fault? = [] := by
    simp [fault?]
  have hlater := (settles_phases hc hsorted).errors
  rw [hobjects] at hlater
  refine hlater.trans ?_
  simp only [laterOutcomes, List.filterMap_append, filterMap_fault?_outcomes, hplaced,
    definitionErrors, phases, List.flatMap_cons, List.flatMap_nil]

end Publication

/-! ## Promises -/

/-- Promises are checked against what is found under names. -/
theorem brokenPromises_congr {types others : Keyed TypeDefinition}
    (h : ∀ name, types.get? name = others.get? name) :
    TypeDefinition.brokenPromises types = TypeDefinition.brokenPromises others := by
  have hsame : ∀ name, Option.Rel TypeDefinition.SameUpToOrder (types.get? name)
      (others.get? name) := by
    intro name
    rw [h name]
    cases others.get? name with
    | none => exact .none
    | some type => exact .some (.same type)
  have hcheck : checkImplementation types = checkImplementation others := by
    funext interface object
    simp only [checkImplementation, checkField, isCovariant_reordered hsame]
  funext type
  cases type with
  | interface interface => simp only [TypeDefinition.brokenPromises, hcheck]
  | _ => rfl

namespace Assembly

theorem checkPromises_eq (assembly : Assembly) (name : String) :
    assembly.checkPromises name = { assembly with
      errors := assembly.errors ++
        (assembly.types.get? name).toList.flatMap
          (TypeDefinition.brokenPromises assembly.types) } := by
  unfold checkPromises
  cases assembly.types.get? name with
  | none => simp
  | some type => cases type <;> simp [TypeDefinition.brokenPromises]

theorem foldl_checkPromises (names : List String) (assembly : Assembly) :
    names.foldl checkPromises assembly = { assembly with
      errors := assembly.errors ++ names.flatMap fun name =>
        (assembly.types.get? name).toList.flatMap
          (TypeDefinition.brokenPromises assembly.types) } := by
  induction names generalizing assembly with
  | nil => simp
  | cons name rest ih =>
    rw [List.foldl_cons, ih, checkPromises_eq]
    simp only [List.flatMap_cons, List.append_assoc]

end Assembly

namespace Publication

variable {publication : Publication}

theorem flatMap_names_brokenPromises (publication : Publication) :
    (publication.registry.names.flatMap fun name =>
        (publication.types.get? name).toList.flatMap
          (TypeDefinition.brokenPromises publication.types)) =
      conformanceErrors publication.types := by
  rw [conformanceErrors_types, TypeRegistry.names, Keyed.keys, List.flatMap_map]
  refine List.flatMap_congr fun named hnamed => ?_
  have hentry : publication.registry.entries.get? named.1 = some named.2 :=
    Keyed.get?_eq_some_iff.mpr hnamed
  rw [types, Keyed.get?_filterMap, hentry]
  rfl

theorem collect_eq (publication : Publication) {assembly : Assembly}
    (h : ∀ name, assembly.types.get? name = publication.types.get? name) :
    assembly.collect publication.registry.names = publication.types := by
  have hentries : (publication.registry.names.filterMap fun name =>
      (assembly.types.get? name).map fun type => (name, type)) = publication.types.entries := by
    rw [TypeRegistry.names, Keyed.keys, List.filterMap_map]
    show _ = Keyed.filterMapEntries _ publication.registry.entries.entries
    rw [Keyed.filterMapEntries_eq_filterMap]
    refine List.filterMap_congr fun named hnamed => ?_
    have hentry : publication.registry.entries.get? named.1 = some named.2 :=
      Keyed.get?_eq_some_iff.mpr hnamed
    rw [Function.comp_apply, h, types, Keyed.get?_filterMap, hentry]
    rfl
  apply Keyed.ext_entries
  rw [Assembly.collect, hentries]
  exact Keyed.entries_ofList publication.types.keys_nodup

end Publication

/-- Phase by phase, the same is published, or the same errors are found in the same order. -/
theorem assemble_eq_publish {registry : TypeRegistry} (hc : registry.Consistent)
    (options : BuildOptions) : assemble registry options = publish registry options := by
  have htypes : ∀ name, (Assembly.ofRegistry registry options).types.get? name =
      (Publication.mk registry options).types.get? name :=
    Publication.get?_types_ofRegistry ⟨registry, options⟩ hc
  have hdefinitions : (Assembly.ofRegistry registry options).errors =
      (Publication.mk registry options).definitionErrors :=
    Publication.errors_ofRegistry ⟨registry, options⟩ hc
  have hpromises := Publication.flatMap_names_brokenPromises ⟨registry, options⟩
  have hchecked := Assembly.foldl_checkPromises registry.names (.ofRegistry registry options)
  have herrors : (registry.names.foldl Assembly.checkPromises (.ofRegistry registry options)).errors =
      (Publication.mk registry options).errors := by
    rw [hchecked, Publication.errors, hdefinitions, ← hpromises]
    simp only [brokenPromises_congr htypes, htypes]
  have hcollect : (registry.names.foldl Assembly.checkPromises
      (.ofRegistry registry options)).collect registry.names =
        (Publication.mk registry options).types :=
    Publication.collect_eq ⟨registry, options⟩ fun name => by rw [hchecked]; exact htypes name
  simp only [assemble, publish, herrors, hcollect]

/-! ## Nothing is lost -/

/-- Where every entry can be built, the types have the names of the entries, in order. -/
theorem Publication.AllBuilt.keys_types {publication : Publication} (h : publication.AllBuilt) :
    publication.types.keys = publication.registry.names := by
  show (Keyed.filterMapEntries _ _).map Prod.fst = _
  rw [Keyed.filterMapEntries_eq_filterMap, List.map_filterMap, TypeRegistry.names, Keyed.keys,
    ← List.filterMap_eq_map]
  refine List.filterMap_congr fun named hnamed => ?_
  obtain ⟨type, hbuilds⟩ := h named.1 named.2 (Keyed.get?_eq_some_iff.mpr hnamed)
  rw [build_of_builds hbuilds]
  rfl

/-- A published registry has under each of its names, in order, a type that has this name
and is of the registered kind. -/
theorem assemble_names {registry : TypeRegistry} (hr : registry.Reachable) {options : BuildOptions}
    {types : Keyed TypeDefinition} (h : assemble registry options = .ok types) :
    types.keys = registry.names ∧
      ∀ key type, types.get? key = some type →
        type.name = key ∧ registry.kind? key = some type.kind := by
  have hc := hr.consistent
  rw [assemble_eq_publish hc] at h
  obtain ⟨hsucceeds, htypes⟩ := publish_eq_ok_iff.mp h
  subst htypes
  refine ⟨hsucceeds.built.keys_types, fun key type htype => ?_⟩
  obtain ⟨entry, hentry, hbuilds⟩ := Publication.get?_types_eq_some_iff.mp htype
  have hname : type.name = key := hbuilds.name_eq_key hc hentry
  have hkind : registry.kind? key = some type.kind := by
    rw [TypeRegistry.kind?, hentry, hbuilds.kind_eq]
    rfl
  exact ⟨hname, hkind⟩

/-- The catalogue has objects after an interface and a union, and all keep their places. -/
theorem catalogue_names :
    ∃ types, assemble catalogue {} = .ok types ∧
      types.keys = TypeRegistry.standard.names ++
        ["Work", "Book", "Item", "Order", "Filter", "Map", "Query"] ∧
      ∀ key type, types.get? key = some type →
        type.name = key ∧ catalogue.kind? key = some type.kind := by
  obtain ⟨types, htypes⟩ : ∃ types, assemble catalogue {} = .ok types :=
    exists_of_isOk (by decide +kernel)
  obtain ⟨hkeys, hnamed⟩ := assemble_names catalogue_reachable htypes
  exact ⟨types, htypes, hkeys.trans (by decide +kernel), hnamed⟩

end GraphSchema
