/-
  GraphSchema.Proofs.Types.Descriptions — descriptions have no part in how types are built.

  Types, fields, arguments, enum values and input fields may be described. A wording says
  what becomes of each description; it may change some and leave out others, and can be
  applied to a configuration or to a type that was built of it. Nothing that is checked
  depends on a description, so a reworded configuration is valid if it was valid before
  (`Valid.reworded`), and what it is built to is the type as it was, reworded
  (`published_reworded`).
-/

import GraphSchema.Proofs.Types.Enum
import GraphSchema.Types.Definition

namespace GraphSchema

/-! ## What is described -/

/-- The elements of a schema that may have a description. -/
inductive Element where
  | type (name : String)
  | field (owner name : String)
  | argument (owner field name : String)
  | enumValue (owner name : String)
  | inputField (owner name : String)
  deriving DecidableEq, Repr

namespace Element

/-- The name of the type that the element belongs to. -/
def typeName : Element → String
  | type name => name
  | field owner _ => owner
  | argument owner _ _ => owner
  | enumValue owner _ => owner
  | inputField owner _ => owner

def isArgument : Element → Bool
  | argument _ _ _ => true
  | _ => false

end Element

/-- What becomes of the description of each element. -/
abbrev Wording := Element → Option String → Option String

/-- One element loses its description, all others keep theirs. -/
def Wording.without (element : Element) : Wording := fun other description =>
  if other = element then none else description

variable (wording : Wording)

/-! ## Configurations -/

def ArgumentConfig.reworded (type field name : String) (config : ArgumentConfig) :
    ArgumentConfig :=
  { config with description := wording (.argument type field name) config.description }

def FieldConfig.reworded (type name : String) (config : FieldConfig) : FieldConfig :=
  { config with
    args := config.args.mapValues (ArgumentConfig.reworded wording type name)
    description := wording (.field type name) config.description }

def InputFieldConfig.reworded (type name : String) (config : InputFieldConfig) :
    InputFieldConfig :=
  { config with description := wording (.inputField type name) config.description }

def EnumValueConfig.reworded (type name : String) (config : EnumValueConfig) : EnumValueConfig :=
  { config with description := wording (.enumValue type name) config.description }

def ObjectConfig.reworded (config : ObjectConfig) : ObjectConfig :=
  { config with
    description := wording (.type config.name) config.description
    fields := config.fields.map (.mapValues (FieldConfig.reworded wording config.name)) }

def InterfaceConfig.reworded (config : InterfaceConfig) : InterfaceConfig :=
  { config with
    description := wording (.type config.name) config.description
    fields := config.fields.map (.mapValues (FieldConfig.reworded wording config.name)) }

def UnionConfig.reworded (config : UnionConfig) : UnionConfig :=
  { config with description := wording (.type config.name) config.description }

def InputObjectConfig.reworded (config : InputObjectConfig) : InputObjectConfig :=
  { config with
    description := wording (.type config.name) config.description
    fields := config.fields.map (.mapValues (InputFieldConfig.reworded wording config.name)) }

def EnumConfig.reworded (config : EnumConfig) : EnumConfig :=
  { config with
    description := wording (.type config.name) config.description
    values := config.values.mapValues (EnumValueConfig.reworded wording config.name) }

def ScalarConfig.reworded (config : ScalarConfig) : ScalarConfig :=
  { config with description := wording (.type config.name) config.description }

/-! ## Types -/

def Argument.reworded (type field : String) (argument : Argument) : Argument :=
  { argument with description := wording (.argument type field argument.name) argument.description }

def FieldDefinition.reworded (type name : String) (field : FieldDefinition) : FieldDefinition :=
  { field with
    args := field.args.map (Argument.reworded wording type name)
    description := wording (.field type name) field.description }

def InputField.reworded (type name : String) (field : InputField) : InputField :=
  { field with description := wording (.inputField type name) field.description }

def EnumValue.reworded (type : String) (value : EnumValue) : EnumValue :=
  { value with description := wording (.enumValue type value.name) value.description }

def ObjectType.reworded (object : ObjectType) : ObjectType :=
  { object with
    description := wording (.type object.name) object.description
    fields := object.fields.mapValues (FieldDefinition.reworded wording object.name) }

theorem map_name_map_reworded (objects : List ObjectType) :
    (objects.map (ObjectType.reworded wording)).map ObjectType.name = objects.map ObjectType.name :=
  List.map_map ..

/-- The implementations are reworded as well. -/
def InterfaceType.reworded (interface : InterfaceType) : InterfaceType :=
  { interface with
    description := wording (.type interface.name) interface.description
    fields := interface.fields.mapValues (FieldDefinition.reworded wording interface.name)
    implementations := interface.implementations.map (ObjectType.reworded wording)
    possible_eq := interface.possible_eq.trans (map_name_map_reworded wording _).symm }

/-- The members are reworded as well. -/
def UnionType.reworded (union : UnionType) : UnionType :=
  { union with
    description := wording (.type union.name) union.description
    types := union.types.map (ObjectType.reworded wording)
    possible_eq := union.possible_eq.trans (map_name_map_reworded wording _).symm }

def InputObjectType.reworded (input : InputObjectType) : InputObjectType :=
  { input with
    description := wording (.type input.name) input.description
    fields := input.fields.mapValues (InputField.reworded wording input.name) }

def EnumType.reworded (type : EnumType) : EnumType :=
  .ofSorted type.name (wording (.type type.name) type.description)
    (type.values.map (EnumValue.reworded wording type.name))
    (List.pairwise_map.mpr type.sorted)

def ScalarType.reworded (type : ScalarType) : ScalarType :=
  { type with description := wording (.type type.name) type.description }

def TypeDefinition.reworded : TypeDefinition → TypeDefinition
  | scalar type => .scalar (type.reworded wording)
  | object type => .object (type.reworded wording)
  | interface type => .interface (type.reworded wording)
  | union type => .union (type.reworded wording)
  | enum type => .enum (type.reworded wording)
  | inputObject type => .inputObject (type.reworded wording)

@[simp] theorem TypeDefinition.name_reworded (type : TypeDefinition) :
    (type.reworded wording).name = type.name := by
  cases type <;> rfl

/-! ## Fields -/

variable {wording} {kinds : KindTable}

theorem FieldConfig.Valid.reworded {name : String} {config : FieldConfig}
    (h : config.Valid kinds name) (type : String) :
    (config.reworded wording type name).Valid kinds name where
  name := h.name
  type := h.type
  args := by
    intro argument reworded hargument
    obtain ⟨found, hfound, hreworded⟩ := Keyed.get?_mapValues_eq_some_iff.mp hargument
    subst hreworded
    exact ⟨(h.args argument found hfound).name, (h.args argument found hfound).type⟩

theorem FieldConfig.published_reworded (type name : String) (config : FieldConfig) :
    (config.reworded wording type name).published name =
      (config.published name).reworded wording type name := by
  have hargs : (config.reworded wording type name).publishedArgs.values =
      config.publishedArgs.values.map (Argument.reworded wording type name) := by
    simp [FieldConfig.reworded, publishedArgs, Keyed.values, Keyed.mapValues, Function.comp_def,
      ArgumentConfig.reworded, ArgumentConfig.published, Argument.reworded]
  have hsorted : sortOn Argument.name (config.publishedArgs.values.map
      (Argument.reworded wording type name)) =
        (sortOn Argument.name config.publishedArgs.values).map
          (Argument.reworded wording type name) := sortOn_map (fun _ => rfl) _
  rw [published, hargs, hsorted]
  rfl

theorem ValidFields.reworded {configs : Keyed FieldConfig} (h : ValidFields kinds configs)
    (type : String) :
    ValidFields kinds (configs.mapValues (FieldConfig.reworded wording type)) where
  nonempty := by rw [Keyed.isEmpty_mapValues, h.nonempty]
  valid := by
    intro name reworded hreworded
    obtain ⟨config, hconfig, hsame⟩ := Keyed.get?_mapValues_eq_some_iff.mp hreworded
    subst hsame
    exact (h.valid name config hconfig).reworded type

theorem publishedFields_reworded (type : String) (configs : Keyed FieldConfig) :
    publishedFields (configs.mapValues (FieldConfig.reworded wording type)) =
      (publishedFields configs).mapValues (FieldDefinition.reworded wording type) := by
  simp only [publishedFields, Keyed.mapValues_mapValues, FieldConfig.published_reworded]

/-! ## Objects, interfaces and unions -/

/-- Fields that were added are reworded as those of the type's own. -/
theorem resolve_merge_reworded (type : String) (fields : Deferred (Keyed FieldConfig))
    (added : Keyed FieldConfig) :
    (fields.map (.mapValues (FieldConfig.reworded wording type))).resolve.merge
        (added.mapValues (FieldConfig.reworded wording type)) =
      (fields.resolve.merge added).mapValues (FieldConfig.reworded wording type) := by
  rw [Deferred.resolve_map, Keyed.mapValues_merge]

theorem ObjectConfig.merge_reworded (config : ObjectConfig) (added : Keyed FieldConfig) :
    (config.reworded wording).fields.resolve.merge
        (added.mapValues (FieldConfig.reworded wording config.name)) =
      (config.fields.resolve.merge added).mapValues (FieldConfig.reworded wording config.name) :=
  resolve_merge_reworded ..

theorem ObjectConfig.Valid.reworded {config : ObjectConfig} {added : Keyed FieldConfig}
    {options : BuildOptions} (h : config.Valid added kinds options) :
    (config.reworded wording).Valid (added.mapValues (FieldConfig.reworded wording config.name))
      kinds options where
  interfaces := h.interfaces
  fields := config.merge_reworded added ▸ h.fields.reworded config.name

theorem ObjectConfig.published_reworded (config : ObjectConfig) (added : Keyed FieldConfig) :
    (config.reworded wording).published
        (added.mapValues (FieldConfig.reworded wording config.name)) =
      (config.published added).reworded wording := by
  rw [published, merge_reworded, publishedFields_reworded]
  rfl

theorem InterfaceConfig.merge_reworded (config : InterfaceConfig) (added : Keyed FieldConfig) :
    (config.reworded wording).fields.resolve.merge
        (added.mapValues (FieldConfig.reworded wording config.name)) =
      (config.fields.resolve.merge added).mapValues (FieldConfig.reworded wording config.name) :=
  resolve_merge_reworded ..

theorem InterfaceConfig.published_reworded (config : InterfaceConfig) (added : Keyed FieldConfig)
    (objects : List ObjectType) :
    (config.reworded wording).published
        (added.mapValues (FieldConfig.reworded wording config.name))
        (objects.map (ObjectType.reworded wording)) =
      (config.published added objects).reworded wording := by
  have himplementations : (objects.map (ObjectType.reworded wording)).filter
      (·.implements config.name) =
        (objects.filter (·.implements config.name)).map (ObjectType.reworded wording) :=
    List.filter_map
  simp only [published, merge_reworded, publishedFields_reworded, InterfaceType.reworded,
    InterfaceType.mk.injEq]
  refine ⟨rfl, rfl, trivial, rfl, himplementations, ?_⟩
  exact (congrArg (List.map ObjectType.name) himplementations).trans (map_name_map_reworded ..)

theorem find?_map_reworded (objects : List ObjectType) (name : String) :
    (objects.map (ObjectType.reworded wording)).find? (·.name == name) =
      (objects.find? (·.name == name)).map (ObjectType.reworded wording) :=
  List.find?_map ..

theorem UnionConfig.Valid.reworded {config : UnionConfig} {objects : List ObjectType}
    (h : config.Valid objects kinds) :
    (config.reworded wording).Valid (objects.map (ObjectType.reworded wording)) kinds where
  check := h.check
  members := by
    intro name hname
    have hadmits := h.members name hname
    rw [Admits] at hadmits ⊢
    rw [find?_map_reworded]
    cases hfound : objects.find? (·.name == name) with
    | none =>
      rw [hfound] at hadmits
      exact hadmits
    | some object =>
      rw [hfound] at hadmits
      exact hadmits

theorem UnionConfig.memberObjects_reworded (objects : List ObjectType) (names : List String) :
    memberObjects (objects.map (ObjectType.reworded wording)) names =
      (memberObjects objects names).map (ObjectType.reworded wording) := by
  induction names with
  | nil => rfl
  | cons first rest ih =>
    rw [memberObjects, memberObjects, find?_map_reworded, ih, List.map_append, List.filter_map]
    cases objects.find? (·.name == first) <;> rfl

theorem UnionConfig.published_reworded (config : UnionConfig) (objects : List ObjectType) :
    (config.reworded wording).published (objects.map (ObjectType.reworded wording)) =
      (config.published objects).reworded wording := by
  have hmembers : memberObjects (objects.map (ObjectType.reworded wording)) config.types =
      (memberObjects objects config.types).map (ObjectType.reworded wording) :=
    memberObjects_reworded objects config.types
  simp only [published, UnionType.reworded, UnionType.mk.injEq]
  refine ⟨rfl, rfl, hmembers, rfl, ?_⟩
  exact (congrArg (List.map ObjectType.name) hmembers).trans (map_name_map_reworded ..)

/-! ## Input objects, enums and scalars -/

theorem InputFieldConfig.define_reworded (owner name : String) (config : InputFieldConfig) :
    (config.reworded wording owner name).define owner kinds name =
      (config.define owner kinds name).map (InputField.reworded wording owner name) := by
  simp only [define, InputFieldConfig.reworded]
  cases checkName name with
  | error error => rfl
  | ok done =>
    cases kinds.acceptsInput config.type with
    | error error => rfl
    | ok accepted => cases accepted <;> rfl

theorem InputObjectConfig.published_reworded (config : InputObjectConfig) :
    (config.reworded wording).published kinds = (config.published kinds).reworded wording := by
  have htoOption : ∀ (x : Except TypeError InputField) (f : InputField → InputField),
      (x.map f).toOption = x.toOption.map f := by
    intro x f
    cases x <;> rfl
  simp only [published, InputObjectConfig.reworded, InputObjectType.reworded, Deferred.resolve_map,
    Keyed.filterMap_mapValues, Keyed.mapValues_filterMap, InputFieldConfig.define_reworded,
    htoOption]

theorem ScalarType.ofConfig_reworded (config : ScalarConfig) :
    ofConfig (config.reworded wording) = (ofConfig config).map (ScalarType.reworded wording) := by
  simp only [ofConfig, readersOf, ScalarConfig.reworded]
  cases checkTypeName config.name with
  | error error => rfl
  | ok done =>
    cases config.serialize with
    | none => rfl
    | some serialize =>
      cases config.parseValue <;> cases config.parseLiteral <;> rfl

theorem EnumValue.ofConfig_reworded (type name : String) (config : EnumValueConfig) :
    ofConfig name (config.reworded wording type name) =
      (ofConfig name config).map (EnumValue.reworded wording type) := by
  simp only [ofConfig, EnumValueConfig.reworded]
  cases checkName name <;> rfl

theorem EnumType.ofSorted_congr {name : String} {description : Option String}
    {values others : List EnumValue} (h : values = others)
    (sorted : values.Pairwise fun x y => x.name < y.name) :
    ofSorted name description values sorted = ofSorted name description others (h ▸ sorted) := by
  subst h
  rfl

theorem EnumType.ofConfig_reworded (config : EnumConfig) :
    ofConfig (config.reworded wording) = (ofConfig config).map (EnumType.reworded wording) := by
  have htraverse : (config.reworded wording).values.traverse EnumValue.ofConfig =
      (config.values.traverse EnumValue.ofConfig).map fun values =>
        values.mapValues fun _ => EnumValue.reworded wording config.name :=
    Keyed.traverse_mapValues (EnumValue.ofConfig_reworded config.name) config.values
  have hempty : (config.reworded wording).values.isEmpty = config.values.isEmpty :=
    Keyed.isEmpty_mapValues ..
  have hsorted : ∀ values : Keyed EnumValue, sortOn EnumValue.name
      (values.mapValues fun _ => EnumValue.reworded wording config.name).values =
        (sortOn EnumValue.name values.values).map (EnumValue.reworded wording config.name) := by
    intro values
    have hvalues : (values.mapValues fun _ => EnumValue.reworded wording config.name).values =
        values.values.map (EnumValue.reworded wording config.name) := by
      simp [Keyed.values, Keyed.mapValues, Function.comp_def]
    rw [hvalues]
    exact sortOn_map (fun _ => rfl) _
  simp only [ofConfig, htraverse, hempty]
  have hname : (config.reworded wording).name = config.name := rfl
  rw [hname]
  cases checkTypeName config.name with
  | error error => rfl
  | ok done =>
    cases config.values.isEmpty with
    | true => rfl
    | false =>
      cases config.values.traverse EnumValue.ofConfig with
      | error error => rfl
      | ok values => exact congrArg Except.ok (ofSorted_congr (hsorted values) _)

/-! ## The description of an element -/

theorem FieldDefinition.argument?_reworded (field : FieldDefinition) (type name argument : String) :
    (field.reworded wording type name).argument? argument =
      (field.argument? argument).map (Argument.reworded wording type name) :=
  List.find?_map ..

theorem EnumType.value?_reworded (type : EnumType) (name : String) :
    (type.reworded wording).value? name =
      (type.value? name).map (EnumValue.reworded wording type.name) := by
  apply Option.ext
  intro value
  rw [Option.map_eq_some_iff, value?_eq_some_iff]
  simp only [value?_eq_some_iff]
  constructor
  · intro h
    obtain ⟨hmem, hname⟩ := h
    obtain ⟨found, hfound, hsame⟩ := List.mem_map.mp hmem
    subst hsame
    exact ⟨found, ⟨hfound, hname⟩, rfl⟩
  · intro h
    obtain ⟨found, ⟨hfound, hname⟩, hsame⟩ := h
    subst hsame
    exact ⟨List.mem_map_of_mem hfound, hname⟩

namespace TypeDefinition

def field? (type : TypeDefinition) (name : String) : Option FieldDefinition :=
  type.composite?.bind fun composite => composite.field? name

def value? (type : TypeDefinition) (name : String) : Option EnumValue :=
  type.leaf?.bind fun leaf => leaf.value? name

def inputField? : TypeDefinition → String → Option InputField
  | inputObject input, name => input.field? name
  | _, _ => none

/-- The description of an element of the type, if it has that element and it is described. -/
def descriptionOf (type : TypeDefinition) : Element → Option String
  | .type _ => type.description
  | .field _ name => (type.field? name).bind FieldDefinition.description
  | .argument _ field name =>
    ((type.field? field).bind fun field => field.argument? name).bind Argument.description
  | .enumValue _ name => (type.value? name).bind EnumValue.description
  | .inputField _ name => (type.inputField? name).bind InputField.description

theorem description_reworded (type : TypeDefinition) :
    (type.reworded wording).description = wording (.type type.name) type.description := by
  cases type <;> rfl

theorem field?_reworded (type : TypeDefinition) (name : String) :
    (type.reworded wording).field? name =
      (type.field? name).map (FieldDefinition.reworded wording type.name name) := by
  cases type with
  | object object => exact Keyed.get?_mapValues ..
  | interface interface => exact Keyed.get?_mapValues ..
  | _ => rfl

theorem value?_reworded (type : TypeDefinition) (name : String) :
    (type.reworded wording).value? name =
      (type.value? name).map (EnumValue.reworded wording type.name) := by
  cases type with
  | enum enum => exact enum.value?_reworded name
  | _ => rfl

theorem name_of_value? {type : TypeDefinition} {name : String} {value : EnumValue}
    (h : type.value? name = some value) : value.name = name := by
  cases type with
  | enum enum => exact (EnumType.value?_eq_some_iff.mp h).2
  | _ => cases h

theorem inputField?_reworded (type : TypeDefinition) (name : String) :
    (type.reworded wording).inputField? name =
      (type.inputField? name).map (InputField.reworded wording type.name name) := by
  cases type with
  | inputObject input => exact Keyed.get?_mapValues ..
  | _ => rfl

/-- A wording that describes nothing new says what becomes of the description of an element. -/
theorem descriptionOf_reworded (type : TypeDefinition) {element : Element}
    (hnone : ∀ element, wording element none = none) (hname : type.name = element.typeName) :
    (type.reworded wording).descriptionOf element =
      wording element (type.descriptionOf element) := by
  cases element with
  | type name =>
    cases hname
    exact type.description_reworded
  | field owner name =>
    cases hname
    simp only [descriptionOf, field?_reworded]
    cases type.field? name with
    | none => exact (hnone _).symm
    | some field => rfl
  | argument owner fieldName name =>
    cases hname
    simp only [descriptionOf, field?_reworded]
    cases type.field? fieldName with
    | none => exact (hnone _).symm
    | some field =>
      simp only [Option.map_some, Option.bind_some, FieldDefinition.argument?_reworded]
      cases hargument : field.argument? name with
      | none => exact (hnone _).symm
      | some argument =>
        have hsame : argument.name = name := by simpa using List.find?_some hargument
        subst hsame
        rfl
  | enumValue owner name =>
    cases hname
    simp only [descriptionOf, value?_reworded]
    cases hvalue : type.value? name with
    | none => exact (hnone _).symm
    | some value =>
      have hsame := name_of_value? hvalue
      subst hsame
      rfl
  | inputField owner name =>
    cases hname
    simp only [descriptionOf, inputField?_reworded]
    cases type.inputField? name with
    | none => exact (hnone _).symm
    | some field => rfl

end TypeDefinition

end GraphSchema
