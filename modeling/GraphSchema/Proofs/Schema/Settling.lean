/-
  GraphSchema.Proofs.Schema.Settling — what each phase does to an assembly.

  The pass over the entries keeps what was made of each of them in the place for its kind
  (`Sorted`), and takes from the store of added fields only what was added to objects
  (`Sorted.added`), so every entry finds what was added to it. A list that is worked off
  settles one outcome after another and does nothing else (`Settles`): each puts one type
  under its own name or notes one fault, and none stops the next.
-/

import GraphSchema.Schema.Assembly
import GraphSchema.Proofs.Collection.Keyed

namespace GraphSchema

/-! ## Outcomes -/

namespace Assembly

/-- The type that an outcome puts, under its own name. -/
def placed? : Except TypeError TypeDefinition → Option (String × TypeDefinition)
  | .ok type => some (type.name, type)
  | .error _ => none

def fault? : Except TypeError TypeDefinition → Option TypeError
  | .ok _ => none
  | .error error => some error

section

variable (assembly : Assembly) (outcome : Except TypeError TypeDefinition)

@[simp] theorem settle_objects : (assembly.settle outcome).objects = assembly.objects := by
  cases outcome <;> rfl

@[simp] theorem settle_interfaces : (assembly.settle outcome).interfaces = assembly.interfaces := by
  cases outcome <;> rfl

@[simp] theorem settle_inputs : (assembly.settle outcome).inputs = assembly.inputs := by
  cases outcome <;> rfl

@[simp] theorem settle_added : (assembly.settle outcome).added = assembly.added := by
  cases outcome <;> rfl

end

/-- From one assembly to another, just these outcomes were settled, in this order. -/
structure Settles (outcomes : List (Except TypeError TypeDefinition)) (before after : Assembly) :
    Prop where
  types : after.types = before.types.insertAll (outcomes.filterMap placed?)
  errors : after.errors = before.errors ++ outcomes.filterMap fault?
  objects : after.objects = before.objects
  interfaces : after.interfaces = before.interfaces
  inputs : after.inputs = before.inputs

theorem settles_nil (assembly : Assembly) : Settles [] assembly assembly :=
  ⟨rfl, (List.append_nil _).symm, rfl, rfl, rfl⟩

theorem Settles.cons {outcome : Except TypeError TypeDefinition}
    {rest : List (Except TypeError TypeDefinition)} {before after : Assembly}
    (h : Settles rest (before.settle outcome) after) : Settles (outcome :: rest) before after where
  types := by
    rw [h.types]
    cases outcome <;> rfl
  errors := by
    rw [h.errors]
    cases outcome with
    | ok type => rfl
    | error error => exact List.append_assoc ..
  objects := h.objects.trans (settle_objects ..)
  interfaces := h.interfaces.trans (settle_interfaces ..)
  inputs := h.inputs.trans (settle_inputs ..)

theorem Settles.append {first second : List (Except TypeError TypeDefinition)}
    {before between after : Assembly} (h : Settles first before between)
    (h' : Settles second between after) : Settles (first ++ second) before after where
  types := by rw [h'.types, h.types, List.filterMap_append, Keyed.insertAll_append]
  errors := by rw [h'.errors, h.errors, List.filterMap_append, List.append_assoc]
  objects := h'.objects.trans h.objects
  interfaces := h'.interfaces.trans h.interfaces
  inputs := h'.inputs.trans h.inputs

theorem settles_foldl (outcomes : List (Except TypeError TypeDefinition)) (assembly : Assembly) :
    Settles outcomes assembly (outcomes.foldl settle assembly) := by
  induction outcomes generalizing assembly with
  | nil => exact settles_nil assembly
  | cons outcome rest ih => exact (ih (assembly.settle outcome)).cons

/-! ## The pass over the entries -/

def leaf? : String × Registered → Option (String × TypeDefinition)
  | (name, .scalar type) => some (name, .scalar type)
  | (name, .enum type) => some (name, .enum type)
  | _ => none

def union? : String × Registered → Option UnionConfig
  | (_, .union config) => some config
  | _ => none

def interface? : String × Registered → Option InterfaceConfig
  | (_, .interface config) => some config
  | _ => none

def input? : String × Registered → Option InputObjectConfig
  | (_, .inputObject config) => some config
  | _ => none

/-- What becomes of an entry that is an object. -/
def object? (publication : Publication) : String × Registered → Option (Except TypeError ObjectType)
  | (name, .object config) => some (publication.buildObject name config)
  | _ => none

/-- From one assembly to another, just these entries were sorted. -/
structure Sorted (publication : Publication) (entries : List (String × Registered))
    (before after : Assembly) : Prop where
  objects : after.objects = before.objects ++
    (entries.filterMap (object? publication)).filterMap Except.toOption
  errors : after.errors = before.errors ++
    (entries.filterMap (object? publication)).filterMap fun built => fault? (built.map .object)
  unions : after.unions = before.unions ++ entries.filterMap union?
  interfaces : after.interfaces = before.interfaces ++ entries.filterMap interface?
  inputs : after.inputs = before.inputs ++ entries.filterMap input?
  types : after.types = before.types.insertAll (entries.filterMap leaf?)
  /-- Only what was added to objects has been taken. -/
  added : ∀ name, (∀ config, (name, .object config) ∉ entries) →
    after.addedTo name = before.addedTo name

variable {publication : Publication}

theorem sorted_nil (assembly : Assembly) : Sorted publication [] assembly assembly where
  objects := (List.append_nil _).symm
  errors := (List.append_nil _).symm
  unions := (List.append_nil _).symm
  interfaces := (List.append_nil _).symm
  inputs := (List.append_nil _).symm
  types := rfl
  added := fun _ _ => rfl

theorem addedTo_of_erase {assembly rest : Assembly} {name other : String}
    (h : rest.added = assembly.added.erase name) (hother : other ≠ name) :
    rest.addedTo other = assembly.addedTo other := by
  simp only [addedTo, h, Keyed.get?_erase, if_neg hother]

theorem sorted_sort {name : String} {assembly : Assembly}
    (hadded : assembly.addedTo name = publication.registry.addedTo name) (entry : Registered) :
    Sorted publication [(name, entry)] assembly
      (assembly.sort publication.kinds publication.options (name, entry)) := by
  have hnil : ∀ {α : Type} (as : List α), as = as ++ [] := fun as => (List.append_nil as).symm
  cases entry with
  | scalar type => exact ⟨hnil _, hnil _, hnil _, hnil _, hnil _, rfl, fun _ _ => rfl⟩
  | enum type => exact ⟨hnil _, hnil _, hnil _, hnil _, hnil _, rfl, fun _ _ => rfl⟩
  | union config => exact ⟨hnil _, hnil _, rfl, hnil _, hnil _, rfl, fun _ _ => rfl⟩
  | interface config => exact ⟨hnil _, hnil _, hnil _, rfl, hnil _, rfl, fun _ _ => rfl⟩
  | inputObject config => exact ⟨hnil _, hnil _, hnil _, hnil _, rfl, rfl, fun _ _ => rfl⟩
  | object config =>
    have hne : ∀ other, (∀ config', (other, Registered.object config') ∉ [(name, .object config)]) →
        other ≠ name := by
      intro other hother heq
      exact hother config (heq ▸ List.mem_singleton_self _)
    have hdefine : config.define (assembly.addedTo name) publication.kinds publication.options =
        publication.buildObject name config := by rw [hadded, Publication.buildObject]
    show Sorted publication _ assembly (assembly.buildObject _ _ name config)
    unfold buildObject
    rw [hdefine]
    cases hbuild : publication.buildObject name config with
    | ok object =>
      refine ⟨?_, ?_, hnil _, hnil _, hnil _, rfl, fun other h => addedTo_of_erase rfl (hne other h)⟩
      · simp [object?, hbuild, Except.toOption]
      · simp [object?, hbuild, fault?, Except.map]
    | error error =>
      refine ⟨?_, ?_, hnil _, hnil _, hnil _, rfl, fun other h => addedTo_of_erase rfl (hne other h)⟩
      · simp [object?, hbuild, Except.toOption]
      · simp [object?, hbuild, fault?, Except.map]

theorem Sorted.append {first second : List (String × Registered)} {before between after : Assembly}
    (h : Sorted publication first before between) (h' : Sorted publication second between after) :
    Sorted publication (first ++ second) before after where
  objects := by rw [h'.objects, h.objects]; simp only [List.filterMap_append, List.append_assoc]
  errors := by rw [h'.errors, h.errors]; simp only [List.filterMap_append, List.append_assoc]
  unions := by rw [h'.unions, h.unions]; simp only [List.filterMap_append, List.append_assoc]
  interfaces := by
    rw [h'.interfaces, h.interfaces]
    simp only [List.filterMap_append, List.append_assoc]
  inputs := by rw [h'.inputs, h.inputs]; simp only [List.filterMap_append, List.append_assoc]
  types := by
    rw [h'.types, h.types]
    simp only [List.filterMap_append, Keyed.insertAll_append]
  added := by
    intro name hname
    rw [h'.added name fun config hmem => hname config (List.mem_append_right _ hmem),
      h.added name fun config hmem => hname config (List.mem_append_left _ hmem)]

/-- An entry finds what was added to it, since no entry before it had its name. -/
theorem sorted_foldl {entries : List (String × Registered)} (hnd : (entries.map Prod.fst).Nodup)
    {assembly : Assembly}
    (hadded : ∀ name ∈ entries.map Prod.fst,
      assembly.addedTo name = publication.registry.addedTo name) :
    Sorted publication entries assembly
      (entries.foldl (sort publication.kinds publication.options) assembly) := by
  induction entries generalizing assembly with
  | nil => exact sorted_nil assembly
  | cons named rest ih =>
    obtain ⟨name, entry⟩ := named
    rw [List.map_cons, List.nodup_cons] at hnd
    have hfirst := sorted_sort (hadded name (List.mem_cons_self ..)) entry
    refine hfirst.append (ih hnd.2 fun other hother => ?_)
    have hne : other ≠ name := fun heq => hnd.1 (heq ▸ hother)
    rw [hfirst.added other fun config hmem => hne (by cases List.mem_singleton.mp hmem; rfl)]
    exact hadded other (List.mem_cons_of_mem name hother)

/-! ## The lists -/

theorem foldl_buildUnion (kinds : KindTable) (configs : List UnionConfig) (assembly : Assembly) :
    configs.foldl (buildUnion kinds) assembly =
      (configs.map fun config => (config.define assembly.objects kinds).map .union).foldl settle
        assembly := by
  induction configs generalizing assembly with
  | nil => rfl
  | cons config rest ih =>
    rw [List.foldl_cons, ih, buildUnion, settle_objects]
    rfl

theorem foldl_buildInput (kinds : KindTable) (configs : List InputObjectConfig)
    (assembly : Assembly) :
    configs.foldl (buildInput kinds) assembly =
      (configs.map fun config => (config.define kinds).map .inputObject).foldl settle assembly := by
  rw [List.foldl_map]
  rfl

/-- An interface finds what was added to it, since no interface before it had its name. -/
theorem settles_foldl_buildInterface (kinds : KindTable) {registry : TypeRegistry}
    {configs : List InterfaceConfig} (hnd : (configs.map InterfaceConfig.name).Nodup)
    {assembly : Assembly}
    (hadded : ∀ config ∈ configs, assembly.addedTo config.name = registry.addedTo config.name) :
    Settles
      (configs.map fun config =>
        (config.define (registry.addedTo config.name) assembly.objects kinds).map .interface)
      assembly (configs.foldl (buildInterface kinds) assembly) := by
  induction configs generalizing assembly with
  | nil => exact settles_nil assembly
  | cons config rest ih =>
    rw [List.map_cons, List.nodup_cons] at hnd
    have hready : ∀ other ∈ rest,
        (assembly.buildInterface kinds config).addedTo other.name = registry.addedTo other.name := by
      intro other hother
      have hne : other.name ≠ config.name := fun heq =>
        hnd.1 (List.mem_map.mpr ⟨other, hother, heq⟩)
      rw [← hadded other (List.mem_cons_of_mem config hother)]
      exact addedTo_of_erase (settle_added ..) hne
    have hrest := ih hnd.2 hready
    have hobjects : (assembly.buildInterface kinds config).objects = assembly.objects :=
      settle_objects ..
    rw [hobjects, buildInterface, hadded config (List.mem_cons_self ..)] at hrest
    have hall := hrest.cons
    rw [List.map_cons, List.foldl_cons, buildInterface, hadded config (List.mem_cons_self ..)]
    exact ⟨hall.types, hall.errors, hall.objects, hall.interfaces, hall.inputs⟩

theorem addedTo_buildUnions (kinds : KindTable) (assembly : Assembly) (name : String) :
    (assembly.buildUnions kinds).addedTo name = assembly.addedTo name := by
  have hadded : ∀ (configs : List UnionConfig) (start : Assembly),
      (configs.foldl (buildUnion kinds) start).added = start.added := by
    intro configs
    induction configs with
    | nil => exact fun _ => rfl
    | cons config rest ih => exact fun start => (ih _).trans (settle_added ..)
  rw [addedTo, buildUnions, hadded, addedTo]

theorem settles_placeObjects (assembly : Assembly) :
    Settles (assembly.objects.map fun object => .ok (.object object)) assembly
      assembly.placeObjects := by
  have hfold : assembly.placeObjects =
      (assembly.objects.map fun object => .ok (.object object)).foldl settle assembly := by
    rw [placeObjects, List.foldl_map]
  rw [hfold]
  exact settles_foldl _ assembly

end Assembly

end GraphSchema
