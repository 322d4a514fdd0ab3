/-
  GraphSchema.Proofs.Types.Building — when types are built, and what they are then.

  Each kind has a condition on its configuration and what it is checked against (`Valid`),
  and a published form that is read off the configuration (`published`); building succeeds
  exactly under the condition and gives the published form (`define_eq_ok_iff`).
  - An object's interfaces are those it lists, each of them implementable.
  - A union's members are the objects found under the names it lists; a name without an
    object passes only if it is registered as one (`mem_memberObjects_iff`).
  - An input object keeps its valid fields and loses the others (`get?_published_fields`).
  - An enum has its declared values, each under a valid name.
-/

import GraphSchema.Types.Enum
import GraphSchema.Types.InputObject
import GraphSchema.Types.Interface
import GraphSchema.Types.Union
import GraphSchema.Proofs.Types.FieldMap

namespace GraphSchema

/-! ## Objects -/

namespace ObjectConfig

theorem checkInterface_eq_ok_iff {object : String} {hasIsTypeOf : Bool} {kinds : KindTable}
    {options : BuildOptions} {name : String} :
    checkInterface object hasIsTypeOf kinds options name = .ok () ↔
      ∃ resolvesType, kinds.named? name = some (.interface resolvesType) ∧
        (resolvesType = true ∨
          options.requireInterfaceResolveType = false ∧ hasIsTypeOf = true) := by
  unfold checkInterface
  cases hkind : kinds.named? name with
  | none => simp
  | some kind =>
    cases kind with
    | interface resolvesType =>
      by_cases h : resolvesType = true ∨
        options.requireInterfaceResolveType = false ∧ hasIsTypeOf = true
      · simp [h]
      · simp [h]
    | scalar _ => simp
    | enum => simp
    | object => simp
    | union _ => simp
    | inputObject => simp

theorem mem_foldl_distinct {names kept : List String} {name : String} :
    name ∈ names.foldl (fun kept name => if kept.contains name then kept else kept ++ [name]) kept ↔
      name ∈ names ∨ name ∈ kept := by
  induction names generalizing kept with
  | nil => simp
  | cons first rest ih =>
    rw [List.foldl_cons, ih, List.mem_cons]
    by_cases h : kept.contains first = true
    · have hmem : first ∈ kept := by simpa using h
      simp only [h, if_true]
      constructor
      · intro hn
        rcases hn with hn | hn
        · exact Or.inl (Or.inr hn)
        · exact Or.inr hn
      · intro hn
        rcases hn with (rfl | hn) | hn
        · exact Or.inr hmem
        · exact Or.inl hn
        · exact Or.inr hn
    · simp only [h, Bool.false_eq_true, if_false, List.mem_append, List.mem_singleton]
      grind

theorem mem_distinct_iff {names : List String} {name : String} :
    name ∈ distinct names ↔ name ∈ names := by
  rw [distinct, mem_foldl_distinct]
  simp

/-- Every listed interface may be implemented, and the fields with the added ones are
valid. -/
structure Valid (config : ObjectConfig) (added : Keyed FieldConfig) (kinds : KindTable)
    (options : BuildOptions) : Prop where
  interfaces : ∀ name ∈ config.interfaces.resolve,
    checkInterface config.name config.isTypeOf.isSome kinds options name = .ok ()
  fields : ValidFields kinds (config.fields.resolve.merge added)

def published (config : ObjectConfig) (added : Keyed FieldConfig) : ObjectType :=
  ⟨config.name, config.description, publishedFields (config.fields.resolve.merge added),
    distinct config.interfaces.resolve, config.isTypeOf⟩

theorem define_eq_ok_iff {config : ObjectConfig} {added : Keyed FieldConfig} {kinds : KindTable}
    {options : BuildOptions} {object : ObjectType} :
    config.define added kinds options = .ok object ↔
      config.Valid added kinds options ∧ config.published added = object := by
  simp only [define, bind_eq_ok_iff, defineFields_eq_ok_iff, Except.ok.injEq]
  constructor
  · intro h
    obtain ⟨_, hinterfaces, _, ⟨hfields, hpublished⟩, hobject⟩ := h
    subst hpublished hobject
    exact ⟨⟨forM_eq_ok_iff.mp hinterfaces, hfields⟩, rfl⟩
  · intro h
    obtain ⟨hvalid, hobject⟩ := h
    exact ⟨(), forM_eq_ok_iff.mpr hvalid.interfaces, _, ⟨hvalid.fields, rfl⟩, hobject⟩

theorem implements_published {config : ObjectConfig} {added : Keyed FieldConfig} {name : String} :
    (config.published added).implements name = true ↔ name ∈ config.interfaces.resolve := by
  rw [← mem_distinct_iff, ObjectType.implements, List.contains_iff_mem]
  rfl

end ObjectConfig

/-! ## Interfaces -/

namespace InterfaceConfig

def published (config : InterfaceConfig) (added : Keyed FieldConfig) (objects : List ObjectType) :
    InterfaceType :=
  ⟨config.name, config.description, publishedFields (config.fields.resolve.merge added),
    config.resolveType, objects.filter (·.implements config.name),
    (objects.filter (·.implements config.name)).map (·.name), rfl⟩

theorem define_eq_ok_iff {config : InterfaceConfig} {added : Keyed FieldConfig}
    {objects : List ObjectType} {kinds : KindTable} {interface : InterfaceType} :
    config.define added objects kinds = .ok interface ↔
      ValidFields kinds (config.fields.resolve.merge added) ∧
        config.published added objects = interface := by
  simp only [define, bind_eq_ok_iff, defineFields_eq_ok_iff, Except.ok.injEq]
  constructor
  · intro h
    obtain ⟨_, ⟨hfields, hpublished⟩, hinterface⟩ := h
    subst hpublished
    exact ⟨hfields, hinterface⟩
  · intro h
    obtain ⟨hfields, hinterface⟩ := h
    exact ⟨_, ⟨hfields, rfl⟩, hinterface⟩

end InterfaceConfig

/-! ## Unions -/

namespace UnionConfig

theorem check_eq_ok_iff {config : UnionConfig} :
    config.check = .ok () ↔ isValidName config.name = true ∧ config.types ≠ [] := by
  simp only [check, bind_eq_ok_iff]
  constructor
  · intro h
    obtain ⟨_, hname, htypes⟩ := h
    refine ⟨checkTypeName_eq_ok_iff.mp hname, fun hnil => ?_⟩
    simp [hnil] at htypes
  · intro h
    obtain ⟨hname, htypes⟩ := h
    refine ⟨(), checkTypeName_eq_ok_iff.mpr hname, ?_⟩
    simp [htypes, pure, Except.pure]

/-- The object under a member's name can be told, or that name is registered as an object
and has its own fault. -/
def Admits (config : UnionConfig) (objects : List ObjectType) (kinds : KindTable) (name : String) :
    Prop :=
  match objects.find? (·.name == name) with
  | some object => config.resolveType.isSome = true ∨ object.hasIsTypeOf = true
  | none => kinds.named? name = some .object

theorem admits_iff_of_find? {config : UnionConfig} {objects : List ObjectType} {kinds : KindTable}
    {name : String} {object : ObjectType} (h : objects.find? (·.name == name) = some object) :
    config.Admits objects kinds name ↔
      config.resolveType.isSome = true ∨ object.hasIsTypeOf = true := by
  rw [Admits, h]

theorem member?_eq_ok_iff {config : UnionConfig} {objects : List ObjectType} {kinds : KindTable}
    {name : String} {member : Option ObjectType} :
    config.member? objects kinds name = .ok member ↔
      config.Admits objects kinds name ∧ objects.find? (·.name == name) = member := by
  unfold member? Admits
  cases hfound : objects.find? (·.name == name) with
  | some object =>
    by_cases h : config.resolveType.isSome = true ∨ object.hasIsTypeOf = true
    · simp [h]
    · simp [h]
  | none =>
    cases hkind : kinds.named? name with
    | none => simp
    | some kind => cases kind <;> simp

/-- The objects found under the names, in order of first mention. -/
def memberObjects (objects : List ObjectType) : List String → List ObjectType
  | [] => []
  | name :: rest =>
    (objects.find? (·.name == name)).toList ++ (memberObjects objects rest).filter (·.name != name)

theorem members_eq_ok_iff {config : UnionConfig} {objects : List ObjectType} {kinds : KindTable}
    {names : List String} {types : List ObjectType} :
    config.members objects kinds names = .ok types ↔
      (∀ name ∈ names, config.Admits objects kinds name) ∧ memberObjects objects names = types := by
  induction names generalizing types with
  | nil => simp [members, memberObjects]
  | cons name rest ih =>
    simp only [members, bind_eq_ok_iff, member?_eq_ok_iff, ih, Except.ok.injEq,
      List.forall_mem_cons, memberObjects]
    constructor
    · intro h
      obtain ⟨member, ⟨hadmits, hmember⟩, others, ⟨hrest, hothers⟩, htypes⟩ := h
      subst hmember hothers
      exact ⟨⟨hadmits, hrest⟩, htypes⟩
    · intro h
      obtain ⟨⟨hadmits, hrest⟩, htypes⟩ := h
      exact ⟨_, ⟨hadmits, rfl⟩, _, ⟨hrest, rfl⟩, htypes⟩

theorem mem_memberObjects_iff {objects : List ObjectType} {names : List String}
    {object : ObjectType} :
    object ∈ memberObjects objects names ↔
      object.name ∈ names ∧ objects.find? (·.name == object.name) = some object := by
  induction names with
  | nil => simp [memberObjects]
  | cons name rest ih =>
    simp only [memberObjects, List.mem_append, Option.mem_toList, List.mem_filter, bne_iff_ne, ne_eq,
      ih, List.mem_cons]
    by_cases h : object.name = name
    · subst h
      simp
    · have hnot : objects.find? (·.name == name) ≠ some object := fun hfound => by
        have := List.find?_some hfound
        exact h (by simpa using this)
      simp [h, hnot]

/-- Only the objects found under the listed names matter. -/
theorem memberObjects_congr {objects others : List ObjectType} {names : List String}
    (h : ∀ name ∈ names, objects.find? (·.name == name) = others.find? (·.name == name)) :
    memberObjects objects names = memberObjects others names := by
  induction names with
  | nil => rfl
  | cons first rest ih =>
    rw [memberObjects, memberObjects, h first (List.mem_cons_self ..),
      ih fun name hname => h name (List.mem_cons_of_mem first hname)]

theorem nodup_name_memberObjects (objects : List ObjectType) (names : List String) :
    ((memberObjects objects names).map ObjectType.name).Nodup := by
  induction names with
  | nil => exact List.nodup_nil
  | cons first rest ih =>
    have hothers : (((memberObjects objects rest).filter (·.name != first)).map
        ObjectType.name).Nodup := ih.sublist (List.filter_sublist.map ObjectType.name)
    rw [memberObjects]
    cases hfound : objects.find? (·.name == first) with
    | none => exact hothers
    | some object =>
      have hname : object.name = first := by simpa using List.find?_some hfound
      refine List.nodup_cons.mpr ⟨?_, hothers⟩
      simp [hname]

/-- Leaving a name out of the list leaves out the object under it. -/
theorem filter_memberObjects {objects : List ObjectType} (name : String) (names : List String) :
    (memberObjects objects names).filter (·.name != name) =
      memberObjects objects (names.filter fun other => !other == name) := by
  induction names with
  | nil => rfl
  | cons first rest ih =>
    have hname : ∀ object ∈ (objects.find? (·.name == first)).toList, object.name = first := by
      intro object hobject
      simpa using List.find?_some (Option.mem_toList.mp hobject)
    rw [memberObjects, List.filter_append]
    by_cases h : first = name
    · subst h
      have hnone : (objects.find? (·.name == first)).toList.filter (·.name != first) = [] := by
        refine List.filter_eq_nil_iff.mpr fun object hobject => ?_
        simp [hname object hobject]
      rw [hnone, List.filter_filter, List.filter_cons_of_neg (by simp)]
      simpa using ih
    · have hall : (objects.find? (·.name == first)).toList.filter (·.name != name) =
          (objects.find? (·.name == first)).toList := by
        refine List.filter_eq_self.mpr fun object hobject => ?_
        simpa [hname object hobject] using h
      rw [hall, List.filter_cons_of_pos (by simpa using h), memberObjects, ← ih, List.filter_filter,
        List.filter_filter]
      simp only [Bool.and_comm]

/-- Where every name has an object, the members are named as listed, without repeats. -/
theorem map_name_memberObjects {objects : List ObjectType} {names : List String}
    (h : ∀ name ∈ names, ∃ object, objects.find? (·.name == name) = some object) :
    (memberObjects objects names).map ObjectType.name = names.eraseDups := by
  -- Leaving out the first name shortens the rest, but the rest is not a tail of the list.
  induction hlength : names.length using Nat.strongRecOn generalizing names with
  | ind length ih =>
    cases names with
    | nil => rfl
    | cons first rest =>
      obtain ⟨object, hobject⟩ := h first (List.mem_cons_self ..)
      have hname : object.name = first := by simpa using List.find?_some hobject
      have hshorter : (rest.filter fun other => !other == first).length < length := by
        have := List.length_filter_le (fun other => !other == first) rest
        rw [← hlength, List.length_cons]
        omega
      have hrest := ih _ hshorter
        (fun other hother => h other (List.mem_cons_of_mem first (List.mem_filter.mp hother).1)) rfl
      rw [memberObjects, filter_memberObjects, hobject, List.eraseDups_cons, ← hrest, ← hname]
      rfl

structure Valid (config : UnionConfig) (objects : List ObjectType) (kinds : KindTable) : Prop where
  check : config.check = .ok ()
  members : ∀ name ∈ config.types, config.Admits objects kinds name

def published (config : UnionConfig) (objects : List ObjectType) : UnionType :=
  ⟨config.name, config.description, memberObjects objects config.types, config.resolveType,
    (memberObjects objects config.types).map ObjectType.name, rfl⟩

theorem define_eq_ok_iff {config : UnionConfig} {objects : List ObjectType} {kinds : KindTable}
    {union : UnionType} :
    config.define objects kinds = .ok union ↔
      config.Valid objects kinds ∧ config.published objects = union := by
  simp only [define, bind_eq_ok_iff, members_eq_ok_iff, Except.ok.injEq]
  constructor
  · intro h
    obtain ⟨_, hcheck, _, ⟨hmembers, htypes⟩, hunion⟩ := h
    subst htypes
    exact ⟨⟨hcheck, hmembers⟩, hunion⟩
  · intro h
    obtain ⟨hvalid, hunion⟩ := h
    exact ⟨(), hvalid.check, _, ⟨hvalid.members, rfl⟩, hunion⟩

end UnionConfig

/-! ## Input objects -/

namespace InputFieldConfig

/-- A valid name, and the type of something that is read. -/
structure Valid (kinds : KindTable) (name : String) (config : InputFieldConfig) : Prop where
  name : isValidName name = true
  type : kinds.acceptsInput config.type = .ok true

def published (name : String) (config : InputFieldConfig) : InputField :=
  ⟨name, config.type, config.defaultValue, config.description⟩

theorem define_eq_ok_iff {owner : String} {kinds : KindTable} {name : String}
    {config : InputFieldConfig} {field : InputField} :
    config.define owner kinds name = .ok field ↔
      config.Valid kinds name ∧ config.published name = field := by
  simp only [define, bind_eq_ok_iff, unless_eq_ok_iff, checkName_eq_ok, Except.ok.injEq]
  constructor
  · intro h
    obtain ⟨_, hname, b, htype, hb, hfield⟩ := h
    subst hb
    exact ⟨⟨hname, htype⟩, hfield⟩
  · intro h
    obtain ⟨hvalid, hfield⟩ := h
    exact ⟨(), hvalid.name, true, hvalid.type, rfl, hfield⟩

end InputFieldConfig

namespace InputObjectConfig

def published (config : InputObjectConfig) (kinds : KindTable) : InputObjectType :=
  ⟨config.name, config.description, config.fields.resolve.filterMap fun name field =>
    (field.define config.name kinds name).toOption⟩

theorem define_eq_ok_iff {config : InputObjectConfig} {kinds : KindTable}
    {input : InputObjectType} :
    config.define kinds = .ok input ↔
      config.fields.resolve.isEmpty = false ∧ config.published kinds = input := by
  simp only [define]
  by_cases h : config.fields.resolve.isEmpty = true
  · simp [h]
  · simp only [h, Bool.false_eq_true, if_false, Except.ok.injEq, true_and]
    rfl

theorem get?_published_fields {config : InputObjectConfig} {kinds : KindTable} {name : String}
    {field : InputField} :
    (config.published kinds).fields.get? name = some field ↔
      ∃ fieldConfig, config.fields.resolve.get? name = some fieldConfig ∧
        fieldConfig.Valid kinds name ∧ fieldConfig.published name = field := by
  simp only [published, Keyed.get?_filterMap_eq_some_iff, toOption_eq_some_iff,
    InputFieldConfig.define_eq_ok_iff]

end InputObjectConfig

/-! ## Enums -/

namespace EnumValue

def published (name : String) (config : EnumValueConfig) : EnumValue :=
  ⟨name, config.value.getD (.string name), config.description, config.deprecationReason⟩

theorem ofConfig_eq_ok_iff {name : String} {config : EnumValueConfig} {value : EnumValue} :
    ofConfig name config = .ok value ↔ isValidName name = true ∧ published name config = value := by
  simp only [ofConfig, bind_eq_ok_iff, checkName_eq_ok, Except.ok.injEq]
  constructor
  · intro h
    obtain ⟨_, hvalid⟩ := h
    exact hvalid
  · intro h
    exact ⟨(), h⟩

end EnumValue

namespace EnumConfig

/-- A valid name, at least one value, and a valid name for each. -/
structure Valid (config : EnumConfig) : Prop where
  name : isValidName config.name = true
  nonempty : config.values.isEmpty = false
  values : ∀ name value, config.values.get? name = some value → isValidName name = true

def publishedValues (config : EnumConfig) : Keyed EnumValue :=
  config.values.mapValues EnumValue.published

def published (config : EnumConfig) : EnumType :=
  .ofSorted config.name config.description (sortOn EnumValue.name config.publishedValues.values)
    (pairwise_sortOn EnumValue.name config.publishedValues.values)

theorem ofConfig_eq_ok_iff {config : EnumConfig} {type : EnumType} :
    EnumType.ofConfig config = .ok type ↔ config.Valid ∧ config.published = type := by
  have hvalues : ∀ values, config.values.traverse EnumValue.ofConfig = .ok values ↔
      (∀ name value, config.values.get? name = some value → isValidName name = true) ∧
        config.publishedValues = values :=
    fun _ => Keyed.traverse_eq_ok_iff_forall fun _ _ _ => EnumValue.ofConfig_eq_ok_iff
  simp only [EnumType.ofConfig, bind_eq_ok_iff]
  by_cases hempty : config.values.isEmpty = true
  · have hnot : ¬ config.Valid := fun hvalid => by
      rw [hvalid.nonempty] at hempty
      cases hempty
    simp [hempty, hnot, bind_eq_ok_iff]
  · simp only [hempty, Bool.false_eq_true, if_false, bind_eq_ok_iff, hvalues, Except.ok.injEq]
    constructor
    · intro h
      obtain ⟨_, hname, _, ⟨hnames, hpublished⟩, htype⟩ := h
      subst hpublished
      exact ⟨⟨checkTypeName_eq_ok_iff.mp hname, by simpa using hempty, hnames⟩, htype⟩
    · intro h
      obtain ⟨hvalid, htype⟩ := h
      exact ⟨(), checkTypeName_eq_ok_iff.mpr hvalid.name, _, ⟨hvalid.values, rfl⟩, htype⟩

theorem nodup_name_publishedValues (config : EnumConfig) :
    (config.publishedValues.values.map EnumValue.name).Nodup := by
  have hkeys : config.publishedValues.values.map EnumValue.name = config.values.keys := by
    simp [publishedValues, Keyed.values, Keyed.keys, Keyed.mapValues, EnumValue.published,
      Function.comp_def]
  rw [hkeys]
  exact config.values.keys_nodup

theorem mem_values_published_iff {config : EnumConfig} {value : EnumValue} :
    value ∈ config.published.values ↔
      ∃ name valueConfig, config.values.get? name = some valueConfig ∧
        EnumValue.published name valueConfig = value := by
  rw [← Keyed.mem_values_mapValues_iff]
  exact mem_sortOn_iff config.nodup_name_publishedValues

end EnumConfig

end GraphSchema
