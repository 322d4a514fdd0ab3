/-
  GraphSchema.Proofs.Types.FieldMap — when a field map is built, and what it is.

  What is published of a field or an argument is read off its configuration
  (`FieldConfig.published`). The map of an object or interface is built exactly if it has
  a field and every field is valid, and is then the configured map with every field
  published (`defineFields_eq_ok_iff`). The arguments of a published field are found under
  their names as they were configured (`argument?_published`).
-/

import GraphSchema.Types.Field
import GraphSchema.Proofs.Collection.Sorted
import GraphSchema.Proofs.Types.Kinds

namespace GraphSchema

theorem checkName_eq_ok {name : String} {done : Unit} :
    checkName name = .ok done ↔ isValidName name = true := checkName_eq_ok_iff

/-! ## Arguments -/

namespace ArgumentConfig

/-- A valid name, and the type of something that is read. -/
structure Valid (kinds : KindTable) (name : String) (config : ArgumentConfig) : Prop where
  name : isValidName name = true
  type : kinds.acceptsInput config.type = .ok true

def published (name : String) (config : ArgumentConfig) : Argument :=
  ⟨name, config.type, config.defaultValue, config.description⟩

theorem define_eq_ok_iff {owner field : String} {kinds : KindTable} {name : String}
    {config : ArgumentConfig} {argument : Argument} :
    config.define owner field kinds name = .ok argument ↔
      config.Valid kinds name ∧ config.published name = argument := by
  simp only [define, bind_eq_ok_iff, unless_eq_ok_iff, checkName_eq_ok, Except.ok.injEq]
  constructor
  · intro h
    obtain ⟨_, hname, b, htype, hb, hargument⟩ := h
    subst hb
    exact ⟨⟨hname, htype⟩, hargument⟩
  · intro h
    obtain ⟨hvalid, hargument⟩ := h
    exact ⟨(), hvalid.name, true, hvalid.type, rfl, hargument⟩

end ArgumentConfig

/-! ## Fields -/

namespace FieldConfig

/-- A valid name, the type of something that is answered, and valid arguments. -/
structure Valid (kinds : KindTable) (name : String) (config : FieldConfig) : Prop where
  name : isValidName name = true
  type : kinds.acceptsOutput config.type = .ok true
  args : ∀ argument argumentConfig, config.args.get? argument = some argumentConfig →
    argumentConfig.Valid kinds argument

def publishedArgs (config : FieldConfig) : Keyed Argument :=
  config.args.mapValues ArgumentConfig.published

def published (name : String) (config : FieldConfig) : FieldDefinition :=
  ⟨name, config.type, sortOn Argument.name config.publishedArgs.values, config.deprecationReason,
    config.description, config.resolve⟩

theorem define_eq_ok_iff {owner : String} {kinds : KindTable} {name : String}
    {config : FieldConfig} {field : FieldDefinition} :
    config.define owner kinds name = .ok field ↔
      config.Valid kinds name ∧ config.published name = field := by
  simp only [define, bind_eq_ok_iff, unless_eq_ok_iff, checkName_eq_ok, Except.ok.injEq,
    Keyed.traverse_eq_ok_iff_forall fun _ _ _ => ArgumentConfig.define_eq_ok_iff]
  constructor
  · intro h
    obtain ⟨_, hname, b, htype, hb, args, ⟨hargs, hpublished⟩, hfield⟩ := h
    subst hb hpublished
    exact ⟨⟨hname, htype, hargs⟩, hfield⟩
  · intro h
    obtain ⟨hvalid, hfield⟩ := h
    exact ⟨(), hvalid.name, true, hvalid.type, rfl, _, ⟨hvalid.args, rfl⟩, hfield⟩

theorem map_name_publishedArgs (config : FieldConfig) :
    config.publishedArgs.values.map Argument.name = config.args.keys := by
  simp [publishedArgs, Keyed.values, Keyed.keys, Keyed.mapValues, ArgumentConfig.published,
    Function.comp_def]

theorem nodup_name_publishedArgs (config : FieldConfig) :
    (config.publishedArgs.values.map Argument.name).Nodup := by
  rw [map_name_publishedArgs]
  exact config.args.keys_nodup

theorem mem_args_published_iff {name : String} {config : FieldConfig} {argument : Argument} :
    argument ∈ (config.published name).args ↔
      ∃ key argumentConfig, config.args.get? key = some argumentConfig ∧
        ArgumentConfig.published key argumentConfig = argument := by
  rw [← Keyed.mem_values_mapValues_iff]
  exact mem_sortOn_iff config.nodup_name_publishedArgs

theorem argument?_published (name : String) (config : FieldConfig) (key : String) :
    (config.published name).argument? key =
      (config.args.get? key).map (ArgumentConfig.published key) := by
  have hsort : (config.published name).argument? key =
      config.publishedArgs.values.find? fun argument => argument.name == key :=
    find?_sortOn config.nodup_name_publishedArgs key
  rw [hsort]
  apply Option.ext
  intro argument
  rw [find?_key_eq_some_iff config.nodup_name_publishedArgs, publishedArgs,
    Keyed.mem_values_mapValues_iff, Option.map_eq_some_iff]
  constructor
  · intro h
    obtain ⟨⟨name, found, hfound, hpublished⟩, hname⟩ := h
    have hsame : name = key := by rw [← hname, ← hpublished]; rfl
    subst hsame
    exact ⟨found, hfound, hpublished⟩
  · intro h
    obtain ⟨found, hfound, hpublished⟩ := h
    exact ⟨⟨key, found, hfound, hpublished⟩, by rw [← hpublished]; rfl⟩

end FieldConfig

/-! ## Field maps -/

/-- At least one field, and every field valid. -/
structure ValidFields (kinds : KindTable) (configs : Keyed FieldConfig) : Prop where
  nonempty : configs.isEmpty = false
  valid : ∀ name config, configs.get? name = some config → config.Valid kinds name

def publishedFields (configs : Keyed FieldConfig) : Keyed FieldDefinition :=
  configs.mapValues FieldConfig.published

theorem defineFields_eq_ok_iff {owner : String} {kinds : KindTable} {configs : Keyed FieldConfig}
    {fields : Keyed FieldDefinition} :
    defineFields owner kinds configs = .ok fields ↔
      ValidFields kinds configs ∧ publishedFields configs = fields := by
  unfold defineFields
  split
  · rename_i hempty
    constructor
    · intro h
      cases h
    · intro h
      obtain ⟨hvalid, _⟩ := h
      rw [hvalid.nonempty] at hempty
      cases hempty
  · rename_i hempty
    rw [Keyed.traverse_eq_ok_iff_forall fun _ _ _ => FieldConfig.define_eq_ok_iff]
    constructor
    · intro h
      obtain ⟨hvalid, hfields⟩ := h
      exact ⟨⟨by simpa using hempty, hvalid⟩, hfields⟩
    · intro h
      obtain ⟨hvalid, hfields⟩ := h
      exact ⟨hvalid.valid, hfields⟩

theorem get?_publishedFields_eq_some_iff {configs : Keyed FieldConfig} {name : String}
    {field : FieldDefinition} :
    (publishedFields configs).get? name = some field ↔
      ∃ config, configs.get? name = some config ∧ config.published name = field :=
  Keyed.get?_mapValues_eq_some_iff

end GraphSchema
