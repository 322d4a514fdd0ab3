/-
  GraphSchema.Proofs.Schema.Possible — the objects an interface or union may turn out to be.

  An interface collects the objects that list it, a union those it lists itself, and both
  only objects that were built. An object is among them exactly if it was built and the
  configurations say so (`mem_possibleTypes_iff`), and is found to be if the interface or
  union was built as well (`isPossibleIn_types_iff_built`); where nothing failed, the
  configurations decide alone (`isPossibleIn_types_iff`). A name with possible types is
  that of an interface or union and so never possible itself (`unchained_types`).
-/

import GraphSchema.Proofs.Schema.Narrowing
import GraphSchema.Proofs.Schema.Phases

namespace GraphSchema

/-! ## Lists of possible types -/

namespace AbstractType

theorem isPossibleType_eq_true_iff {type : AbstractType} {name : String} :
    type.isPossibleType name = true ↔ ∃ object ∈ type.possibleTypes, object.name = name := by
  cases type with
  | interface interface =>
    simp only [isPossibleType, InterfaceType.isPossibleType, interface.possible_eq,
      List.contains_iff_mem, List.mem_map, possibleTypes]
  | union union =>
    simp only [isPossibleType, UnionType.isPossibleType, union.possible_eq,
      List.contains_iff_mem, List.mem_map, possibleTypes]

end AbstractType

theorem isPossibleIn_eq_true_iff {types : Keyed TypeDefinition} {object name : String} :
    isPossibleIn types object name = true ↔
      ∃ type, (types.get? name).bind TypeDefinition.abstract? = some type ∧
        ∃ possible ∈ type.possibleTypes, possible.name = object := by
  simp only [← AbstractType.isPossibleType_eq_true_iff]
  unfold isPossibleIn
  cases types.get? name with
  | none => simp
  | some type => cases type <;> simp [TypeDefinition.abstract?, AbstractType.isPossibleType]

/-! ## What the configurations say -/

/-- A registered object lists a registered interface, or a registered union lists it. -/
inductive TypeRegistry.Possible (registry : TypeRegistry) (object name : String) : Prop
  | implements (config : ObjectConfig) (interface : InterfaceConfig) :
      registry.entries.get? object = some (.object config) →
      registry.entries.get? name = some (.interface interface) →
      name ∈ config.interfaces.resolve → Possible registry object name
  | member (config : ObjectConfig) (union : UnionConfig) :
      registry.entries.get? object = some (.object config) →
      registry.entries.get? name = some (.union union) →
      object ∈ union.types → Possible registry object name

theorem TypeRegistry.Possible.object {registry : TypeRegistry} {object name : String}
    (h : registry.Possible object name) :
    ∃ config, registry.entries.get? object = some (.object config) := by
  cases h with
  | implements config _ hobject _ _ => exact ⟨config, hobject⟩
  | member config _ hobject _ _ => exact ⟨config, hobject⟩

/-- What has possible types is registered too. -/
theorem TypeRegistry.Possible.entry {registry : TypeRegistry} {object name : String}
    (h : registry.Possible object name) : ∃ entry, registry.entries.get? name = some entry := by
  cases h with
  | implements _ _ _ hinterface _ => exact ⟨_, hinterface⟩
  | member _ _ _ hunion _ => exact ⟨_, hunion⟩

/-- What is possible somewhere is an object, and nothing is possible in an object. -/
theorem TypeRegistry.Possible.unchained {registry : TypeRegistry} {object name other : String}
    (h : registry.Possible object name) : ¬ registry.Possible other object := by
  obtain ⟨config, hobject⟩ := h.object
  intro hother
  cases hother with
  | implements _ interface _ hinterface _ => cases Keyed.eq_of_get?_eq_get? hobject hinterface
  | member _ union _ hunion _ => cases Keyed.eq_of_get?_eq_get? hobject hunion

/-! ## What was built -/

namespace Publication

variable {publication : Publication} {name : String}

theorem abstract_types_eq_some {type : AbstractType}
    (h : (publication.types.get? name).bind TypeDefinition.abstract? = some type) :
    (∃ config, publication.registry.entries.get? name = some (.interface config) ∧
        .interface (config.published (publication.registry.addedTo name) publication.objects) = type) ∨
      ∃ config, publication.registry.entries.get? name = some (.union config) ∧
        .union (config.published publication.objects) = type := by
  obtain ⟨definition, hdefinition, htype⟩ := Option.bind_eq_some_iff.mp h
  obtain ⟨entry, hentry, hbuilds⟩ := get?_types_eq_some_iff.mp hdefinition
  cases hbuilds with
  | interface config _ =>
    cases htype
    exact Or.inl ⟨config, hentry, rfl⟩
  | union config _ =>
    cases htype
    exact Or.inr ⟨config, hentry, rfl⟩
  | _ => cases htype

theorem mem_implementations_iff (hc : publication.registry.Consistent) {config : InterfaceConfig}
    (hentry : publication.registry.entries.get? name = some (.interface config))
    {object : ObjectType} :
    object ∈ publication.objects.filter (·.implements config.name) ↔
      object ∈ publication.objects ∧ publication.registry.Possible object.name name := by
  have hname : config.name = name := (hc.named name _ hentry).1
  rw [List.mem_filter, hname, and_congr_right_iff]
  intro hmem
  obtain ⟨key, objectConfig, hobject, hbuild⟩ := mem_objects_iff.mp hmem
  rw [buildObject_name hc hobject hbuild]
  obtain ⟨_, hpublished⟩ := buildObject_eq_ok_iff.mp hbuild
  subst hpublished
  rw [ObjectConfig.implements_published]
  constructor
  · intro hlisted
    exact .implements objectConfig config hobject hentry hlisted
  · intro hpossible
    cases hpossible with
    | implements other _ hother _ hlisted =>
      cases Keyed.eq_of_get?_eq_get? hobject hother
      exact hlisted
    | member _ union _ hunion _ => cases Keyed.eq_of_get?_eq_get? hentry hunion

theorem mem_memberObjects_iff (hc : publication.registry.Consistent) {config : UnionConfig}
    (hentry : publication.registry.entries.get? name = some (.union config))
    {object : ObjectType} :
    object ∈ UnionConfig.memberObjects publication.objects config.types ↔
      object ∈ publication.objects ∧ publication.registry.Possible object.name name := by
  rw [UnionConfig.mem_memberObjects_iff, find?_objects_eq_some_iff hc]
  constructor
  · intro h
    obtain ⟨hlisted, objectConfig, hobject, hbuild⟩ := h
    exact ⟨mem_objects_iff.mpr ⟨_, objectConfig, hobject, hbuild⟩,
      .member objectConfig config hobject hentry hlisted⟩
  · intro h
    obtain ⟨hmem, hpossible⟩ := h
    obtain ⟨key, objectConfig, hobject, hbuild⟩ := mem_objects_iff.mp hmem
    have hkey := buildObject_name hc hobject hbuild
    subst hkey
    cases hpossible with
    | implements _ interface _ hinterface _ => cases Keyed.eq_of_get?_eq_get? hentry hinterface
    | member _ union _ hunion hlisted =>
      cases Keyed.eq_of_get?_eq_get? hentry hunion
      exact ⟨hlisted, objectConfig, hobject, hbuild⟩

/-- The possible types of a type that was built are the objects that were built and that
the configurations call possible. -/
theorem mem_possibleTypes_iff (hc : publication.registry.Consistent) {type : AbstractType}
    (htype : (publication.types.get? name).bind TypeDefinition.abstract? = some type)
    {object : ObjectType} :
    object ∈ type.possibleTypes ↔
      object ∈ publication.objects ∧ publication.registry.Possible object.name name := by
  rcases abstract_types_eq_some htype with ⟨config, hentry, hpublished⟩ |
    ⟨config, hentry, hpublished⟩
  · subst hpublished
    exact mem_implementations_iff hc hentry
  · subst hpublished
    exact mem_memberObjects_iff hc hentry

theorem possible_of_isPossibleIn (hc : publication.registry.Consistent) {object : String}
    (h : isPossibleIn publication.types object name = true) :
    publication.registry.Possible object name := by
  obtain ⟨type, htype, possible, hpossible, hname⟩ := isPossibleIn_eq_true_iff.mp h
  subst hname
  exact ((mem_possibleTypes_iff hc htype).mp hpossible).2

theorem unchained_types (hc : publication.registry.Consistent) : Unchained publication.types := by
  intro object type h other
  have hpossible := possible_of_isPossibleIn hc h
  cases hother : isPossibleIn publication.types other object with
  | false => rfl
  | true => exact absurd (possible_of_isPossibleIn hc hother) hpossible.unchained

theorem published_mem_objects (hb : publication.AllBuilt) {config : ObjectConfig}
    (hentry : publication.registry.entries.get? name = some (.object config)) :
    config.published (publication.registry.addedTo name) ∈ publication.objects := by
  obtain ⟨_, hbuilds⟩ := hb name _ hentry
  cases hbuilds with
  | object _ hvalid =>
    exact mem_objects_iff.mpr ⟨name, config, hentry, buildObject_eq_ok_iff.mpr ⟨hvalid, rfl⟩⟩

/-- There is a type of that name among those that could be built. -/
def Built (publication : Publication) (name : String) : Prop :=
  ∃ type, publication.types.get? name = some type

theorem AllBuilt.built (hb : publication.AllBuilt) {entry : Registered}
    (hentry : publication.registry.entries.get? name = some entry) : publication.Built name := by
  obtain ⟨type, hbuilds⟩ := hb name entry hentry
  exact ⟨type, get?_types_eq_some_iff.mpr ⟨entry, hentry, hbuilds⟩⟩

theorem built_object_iff (hc : publication.registry.Consistent) {config : ObjectConfig}
    (hentry : publication.registry.entries.get? name = some (.object config)) :
    publication.Built name ↔
      config.published (publication.registry.addedTo name) ∈ publication.objects := by
  have hname : (config.published (publication.registry.addedTo name)).name = name :=
    (hc.named name _ hentry).1
  constructor
  · intro h
    obtain ⟨type, htype⟩ := h
    obtain ⟨entry, hfound, hbuilds⟩ := get?_types_eq_some_iff.mp htype
    cases Keyed.eq_of_get?_eq_get? hentry hfound
    cases hbuilds with
    | object _ _ => exact ((get?_types_eq_object_iff hc).mp htype).1
  · intro h
    exact ⟨_, (get?_types_eq_object_iff hc).mpr ⟨h, hname⟩⟩

/-- A name with possible types is that of an interface or a union. -/
theorem exists_abstract (hbuilt : publication.Built name) {object : String}
    (h : publication.registry.Possible object name) :
    ∃ type, (publication.types.get? name).bind TypeDefinition.abstract? = some type := by
  obtain ⟨definition, hdefinition⟩ := hbuilt
  obtain ⟨entry, hentry, hbuilds⟩ := get?_types_eq_some_iff.mp hdefinition
  rw [hdefinition]
  cases h with
  | implements _ interface _ hinterface _ =>
    cases Keyed.eq_of_get?_eq_get? hinterface hentry
    cases hbuilds with
    | interface _ _ => exact ⟨_, rfl⟩
  | member _ union _ hunion _ =>
    cases Keyed.eq_of_get?_eq_get? hunion hentry
    cases hbuilds with
    | union _ _ => exact ⟨_, rfl⟩

/-- What is possible among the types that were built. -/
theorem isPossibleIn_types_iff_built (hc : publication.registry.Consistent) {object : String} :
    isPossibleIn publication.types object name = true ↔
      publication.registry.Possible object name ∧ publication.Built object ∧
        publication.Built name := by
  constructor
  · intro h
    obtain ⟨type, htype, possible, hmem, hname⟩ := isPossibleIn_eq_true_iff.mp h
    obtain ⟨hbuilt, hpossible⟩ := (mem_possibleTypes_iff hc htype).mp hmem
    obtain ⟨definition, hdefinition, _⟩ := Option.bind_eq_some_iff.mp htype
    rw [hname] at hpossible
    exact ⟨hpossible, ⟨_, (get?_types_eq_object_iff hc).mpr ⟨hbuilt, hname⟩⟩, definition, hdefinition⟩
  · intro h
    obtain ⟨hpossible, hobject, hbuilt⟩ := h
    obtain ⟨config, hconfig⟩ := hpossible.object
    obtain ⟨type, htype⟩ := exists_abstract hbuilt hpossible
    have hname : (config.published (publication.registry.addedTo object)).name = object :=
      (hc.named object _ hconfig).1
    have hmem := (mem_possibleTypes_iff hc htype).mpr
      ⟨(built_object_iff hc hconfig).mp hobject, hname.symm ▸ hpossible⟩
    exact isPossibleIn_eq_true_iff.mpr ⟨type, htype, _, hmem, hname⟩

/-- Where everything was built, the configurations decide alone. -/
theorem isPossibleIn_types_iff (hc : publication.registry.Consistent)
    (hb : publication.AllBuilt) {object : String} :
    isPossibleIn publication.types object name = true ↔
      publication.registry.Possible object name := by
  rw [isPossibleIn_types_iff_built hc, and_iff_left_iff_imp]
  intro hpossible
  obtain ⟨config, hobject⟩ := hpossible.object
  obtain ⟨entry, hentry⟩ := hpossible.entry
  exact ⟨hb.built hobject, hb.built hentry⟩

end Publication

end GraphSchema
