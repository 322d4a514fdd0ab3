/-
  GraphSchema.Proofs.Print.Structure — a printed schema tells the structure of its types.

  In a published schema every name is valid (`Published.legible`), so where nothing that is
  free text is printed (`Schema.Plain`: no descriptions, default values or deprecations)
  each block is legible and the whole text is read in one way only: two plain schemas with
  one text have, beside the built-in scalars, types with the same signatures in the same
  order (`sdl_determines_types`). Built-in scalars are known by their names and not
  printed, so a plain schema gives these names to no other type; no host that starts from
  the standard registry can (`builtin_of_standard`).
-/

import GraphSchema.Proofs.Print.Roots
import GraphSchema.Proofs.Schema.Closed

namespace GraphSchema

/-! ## Plain schemas -/

def Argument.isPlain (argument : Argument) : Bool := argument.defaultValue.isNone

def FieldDefinition.isPlain (field : FieldDefinition) : Bool :=
  field.description.isNone && field.deprecationReason.isNone && field.args.all Argument.isPlain

def EnumValue.isPlain (value : EnumValue) : Bool :=
  value.description.isNone && value.deprecationReason.isNone

def InputField.isPlain (field : InputField) : Bool :=
  field.description.isNone && field.defaultValue.isNone

namespace TypeDefinition

def hasPlainParts : TypeDefinition → Bool
  | scalar _ => true
  | object type => type.fields.values.all FieldDefinition.isPlain
  | interface type => type.fields.values.all FieldDefinition.isPlain
  | union _ => true
  | enum type => type.values.all EnumValue.isPlain
  | inputObject type => type.fields.values.all InputField.isPlain

/-- No description, no default value and no deprecation, of the type or of its parts. -/
def isPlain (type : TypeDefinition) : Bool := type.description.isNone && type.hasPlainParts

/-- The type is one of the built-in scalars. -/
def IsBuiltin (type : TypeDefinition) : Prop := ∃ scalar ∈ BuiltinScalar.all, .scalar scalar = type

theorem IsBuiltin.isBuiltinScalar {type : TypeDefinition} (h : type.IsBuiltin) :
    isBuiltinScalar type.name = true := by
  obtain ⟨scalar, hscalar, htype⟩ := h
  subst htype
  exact List.contains_iff_mem.mpr (List.mem_map.mpr ⟨scalar, hscalar, rfl⟩)

end TypeDefinition

namespace Schema

open Classical in
/-- The types beside the built-in scalars, in order. -/
noncomputable def ownTypes (schema : Schema) : List TypeDefinition :=
  schema.types.values.filter fun type => ¬ type.IsBuiltin

structure Plain (schema : Schema) : Prop where
  plain : ∀ type ∈ schema.ownTypes, type.isPlain = true
  /-- No other type has the name of a built-in scalar. -/
  reserved : ∀ name type, schema.type? name = some type → isBuiltinScalar name = true →
    type.IsBuiltin

variable {config : SchemaConfig} {registry : TypeRegistry} {schema : Schema}

/-- Of a plain schema all types of its own are printed. -/
theorem Plain.printedTypes_eq (hs : schema.Published) (h : schema.Plain) :
    Sdl.printedTypes schema = schema.ownTypes := by
  refine List.filter_congr fun type hmem => ?_
  obtain ⟨name, htype⟩ := Keyed.mem_values_iff.mp hmem
  have hname := (hs.named htype).1
  by_cases hbuiltin : type.IsBuiltin
  · simp [hbuiltin, hbuiltin.isBuiltinScalar]
  · have hnot : ¬ isBuiltinScalar type.name = true := fun hscalar =>
      hbuiltin (h.reserved name type htype (hname ▸ hscalar))
    simp [hbuiltin, hnot]

/-! ## Names in a published schema -/

theorem Published.innermostName_valid (hs : schema.Published) {reference : TypeRef}
    {resolved : ResolvedType} (h : schema.resolve? reference = some resolved) :
    isValidName reference.innermostName = true := by
  induction reference generalizing resolved with
  | named name =>
    obtain ⟨type, htype, _⟩ := Option.map_eq_some_iff.mp h
    exact (hs.named htype).2
  | list item ih =>
    obtain ⟨_, hitem, _⟩ := Option.map_eq_some_iff.mp h
    exact ih hitem
  | nonNull item ih =>
    obtain ⟨_, hitem, _⟩ := Option.map_eq_some_iff.mp h
    exact ih hitem

theorem Published.legible_field (hs : schema.Published) {key : String} {field : FieldDefinition}
    (hclosed : schema.ClosedField key field) (hplain : field.isPlain = true) : field.Legible := by
  simp only [FieldDefinition.isPlain, Bool.and_eq_true, Option.isNone_iff_eq_none,
    List.all_eq_true] at hplain
  obtain ⟨⟨hdescription, hdeprecation⟩, hargs⟩ := hplain
  obtain ⟨hkey, hvalid⟩ := hclosed.name
  obtain ⟨_, htype, _⟩ := hclosed.type
  refine ⟨hkey ▸ hvalid, hs.innermostName_valid htype, fun argument hargument => ?_, hdescription,
    hdeprecation⟩
  obtain ⟨hname, _, hargumentType, _⟩ := hclosed.args argument hargument
  exact ⟨hname, hs.innermostName_valid hargumentType,
    Option.isNone_iff_eq_none.mp (hargs argument hargument)⟩

theorem Published.legible_fields (hs : schema.Published) {name : String}
    {fields : Keyed FieldDefinition} (hd : schema.Declares name fields)
    (hplain : fields.values.all FieldDefinition.isPlain = true) :
    ∀ field ∈ fields.values, field.Legible := by
  intro field hmem
  obtain ⟨key, hfield⟩ := Keyed.mem_values_iff.mp hmem
  have hclosed : schema.ClosedField key field := by
    obtain ⟨_, _, _, h⟩ := hs
    exact (fields_closed h hd).2 key field hfield
  exact hs.legible_field hclosed (List.all_eq_true.mp hplain field hmem)

theorem legibleParts (hr : registry.Reachable) (h : ofRegistry config registry = .ok schema)
    {name : String} {type : TypeDefinition} (htype : schema.type? name = some type)
    (hparts : type.hasPlainParts = true) : type.LegibleParts := by
  have hs : schema.Published := ⟨config, registry, hr, h⟩
  cases type with
  | scalar scalar => trivial
  | object object =>
    refine ⟨fun interface hinterface => ?_, hs.legible_fields (.object object htype) hparts⟩
    obtain ⟨_, hfound⟩ :=
      interfaces_known h (object?_eq_some_iff.mpr htype) interface hinterface
    exact (hs.named hfound).2
  | interface interface => exact hs.legible_fields (.interface interface htype) hparts
  | union union =>
    refine ⟨members_nonempty hr h htype, fun member hmember => ?_⟩
    have habstract := abstract?_eq_some_iff.mpr (Or.inr ⟨union, htype, rfl⟩)
    have hobject := ((mem_possibleTypes_iff hr h habstract).mp hmember).1
    exact (hs.named (object?_eq_some_iff.mp hobject)).2
  | enum enum =>
    intro value hvalue
    have hplain := List.all_eq_true.mp hparts value hvalue
    simp only [EnumValue.isPlain, Bool.and_eq_true, Option.isNone_iff_eq_none] at hplain
    exact ⟨(values_checked hr h htype).2 value hvalue, hplain.1, hplain.2⟩
  | inputObject input =>
    intro field hmem
    have hplain := List.all_eq_true.mp hparts field hmem
    simp only [InputField.isPlain, Bool.and_eq_true, Option.isNone_iff_eq_none] at hplain
    obtain ⟨key, hfield⟩ := Keyed.mem_values_iff.mp hmem
    have hclosed := inputFields_closed h htype hfield
    obtain ⟨hkey, hvalid⟩ := hclosed.name
    obtain ⟨_, hresolved, _⟩ := hclosed.type
    exact ⟨hkey ▸ hvalid, hs.innermostName_valid hresolved, hplain.1, hplain.2⟩

/-- The types of a published schema are legible where they are plain. -/
theorem Published.legible (hs : schema.Published) {name : String} {type : TypeDefinition}
    (htype : schema.type? name = some type) (hplain : type.isPlain = true) :
    type.description = none ∧ type.Legible := by
  obtain ⟨hdescription, hparts⟩ := Bool.and_eq_true_iff.mp hplain
  obtain ⟨hname, hvalid⟩ := hs.named htype
  obtain ⟨config, registry, hr, h⟩ := hs
  exact ⟨Option.isNone_iff_eq_none.mp hdescription, hname ▸ hvalid, legibleParts hr h htype hparts⟩

theorem Plain.legible (hs : schema.Published) (h : schema.Plain) :
    ∀ type ∈ schema.ownTypes, type.description = none ∧ type.Legible := by
  intro type hmem
  obtain ⟨name, htype⟩ := Keyed.mem_values_iff.mp (List.mem_filter.mp hmem).1
  exact hs.legible htype (h.plain type hmem)

end Schema

/-! ## Hosts that start from the built-in scalars -/

theorem TypeRegistry.get?_standard :
    ∀ scalar ∈ BuiltinScalar.all, standard.entries.get? scalar.name = some (.scalar scalar) := by
  simp only [BuiltinScalar.all, List.forall_mem_cons]
  exact ⟨rfl, rfl, rfl, rfl, rfl, fun _ h => by cases h⟩

namespace Schema

variable {config : SchemaConfig} {calls : List Registration} {schema : Schema}

/-- Where the built-in scalars were registered first, no other type has the name of one. -/
theorem builtin_of_standard
    (h : ofRegistry config (TypeRegistry.standard.run calls) = .ok schema) {name : String}
    {type : TypeDefinition} (htype : schema.type? name = some type)
    (hname : isBuiltinScalar name = true) : type.IsBuiltin := by
  obtain ⟨scalar, hscalar, hsame⟩ := List.mem_map.mp (List.contains_iff_mem.mp hname)
  obtain ⟨entry, hentry, hbuilds⟩ := (type?_eq_some_iff h).mp htype
  have hregistered := TypeRegistry.get?_run (TypeRegistry.get?_standard scalar hscalar) calls
  rw [hsame] at hregistered
  cases Keyed.eq_of_get?_eq_get? hentry hregistered
  cases hbuilds with
  | scalar _ => exact ⟨scalar, hscalar, rfl⟩

theorem plain_of_standard
    (h : ofRegistry config (TypeRegistry.standard.run calls) = .ok schema)
    (hplain : ((Sdl.printedTypes schema).all TypeDefinition.isPlain) = true) : schema.Plain where
  reserved := fun _ _ htype hname => builtin_of_standard h htype hname
  plain := by
    intro type hmem
    obtain ⟨hvalue, hown⟩ := List.mem_filter.mp hmem
    obtain ⟨name, htype⟩ := Keyed.mem_values_iff.mp hvalue
    have hs : schema.Published := ⟨config, _, TypeRegistry.Reachable.standard.run calls, h⟩
    have hnot : ¬ type.IsBuiltin := by simpa using hown
    have hname : ¬ isBuiltinScalar type.name = true := fun hscalar =>
      hnot (builtin_of_standard h htype ((hs.named htype).1 ▸ hscalar))
    exact List.all_eq_true.mp hplain type (List.mem_filter.mpr ⟨hvalue, by simpa using hname⟩)

end Schema

/-! ## The whole text -/

namespace Sdl

theorem tells_type :
    Tells (fun type : TypeDefinition => type.description = none ∧ type.Legible) type
      TypeDefinition.signature fun x => x = [] ∨ "\n\n".toList <+: x := by
  intro a b x y ha hb hx hy htext
  rw [type, type, ha.1, hb.1] at htext
  exact TypeDefinition.tells_body ha.2 hb.2 hx hy (by simpa [description] using htext)

theorem not_prefix_nil (x : List Char) (hx : x = []) : ¬ "\n\n".toList <+: x := by
  simp [hx]

end Sdl

/-- Plain published schemas with one text have, beside the built-in scalars, types with the
same signatures in the same order. -/
theorem sdl_determines_types {schema other : Schema} (hs : schema.Published) (ho : other.Published)
    (hplain : schema.Plain) (hotherPlain : other.Plain) (h : Sdl.schema schema = Sdl.schema other) :
    schema.ownTypes.map TypeDefinition.signature = other.ownTypes.map TypeDefinition.signature := by
  have hlegible := hplain.legible hs
  have hotherLegible := hotherPlain.legible ho
  rw [← hplain.printedTypes_eq hs] at hlegible ⊢
  rw [← hotherPlain.printedTypes_eq ho] at hotherLegible ⊢
  rcases Sdl.rootNames_of_text hs ho h with ⟨husual, hotherUsual⟩ | ⟨hunusual, hsame⟩
  · obtain ⟨hprinted, htypes⟩ := Sdl.text_of_usual hs husual
    obtain ⟨hotherPrinted, hotherTypes⟩ := Sdl.text_of_usual ho hotherUsual
    have htext : joinWith "\n\n" ((Sdl.printedTypes schema).map Sdl.type) =
        joinWith "\n\n" ((Sdl.printedTypes other).map Sdl.type) := by rw [← htypes, h, hotherTypes]
    exact (Sdl.tells_type.joined Sdl.not_prefix_nil ⟨hprinted, hlegible⟩
      ⟨hotherPrinted, hotherLegible⟩ rfl rfl (congrArg (·.toList ++ []) htext)).1
  · have hotherUnusual : ¬ Sdl.UsualRoots other.rootNames := hsame ▸ hunusual
    have htext : (marked "\n\n" Sdl.type (Sdl.printedTypes schema)).toList =
        (marked "\n\n" Sdl.type (Sdl.printedTypes other)).toList := by
      have hchars := congrArg String.toList h
      rw [Sdl.text_of_unusual hunusual, Sdl.text_of_unusual hotherUnusual, hsame,
        String.toList_append, String.toList_append] at hchars
      exact List.append_cancel_left hchars
    exact (Sdl.tells_type.repeated Sdl.not_prefix_nil hlegible hotherLegible rfl rfl
      (congrArg (· ++ []) htext)).1

/-- One type of each kind, with the arguments of a field and the values of an enum declared
in any order, and an input field that is kept or left out. -/
def atlas (args : List (String × ArgumentConfig)) (values : List (String × EnumValueConfig))
    (scale : InputFieldConfig) : TypeRegistry :=
  TypeRegistry.standard.run [
    .interface {
      name := "Place"
      fields := .now (.ofList [("name", { type := .nonNull (.named "String") })])
      resolveType := some fun _ _ => none },
    .object {
      name := "City"
      fields := .now (.ofList [("name", { type := .nonNull (.named "String") })])
      interfaces := .now ["Place"] },
    .union { name := "Find", types := ["City"], resolveType := some fun _ _ => none },
    .enum { name := "Land", values := .ofList values },
    .scalar {
      name := "Date"
      serialize := some some
      parseValue := some some
      parseLiteral := some fun _ => none },
    .inputObject {
      name := "Filter"
      fields := .now (.ofList [("land", { type := .named "Land" }), ("scale", scale)]) },
    .object {
      name := "Query"
      fields := .now (.ofList [
        ("find", { type := .list (.nonNull (.named "Find")), args := .ofList args })]) }]

def atlasText : String :=
  "interface Place \x7b\n  name: String!\n\x7d\n\n" ++
  "type City implements Place \x7b\n  name: String!\n\x7d\n\n" ++
  "union Find = City\n\n" ++
  "enum Land \x7b\n  COAST\n  HILL\n\x7d\n\n" ++
  "scalar Date\n\n" ++
  "input Filter \x7b\n  land: Land\n\x7d\n\n" ++
  "type Query \x7b\n  find(by: Filter, since: Date): [Find!]\n\x7d"

theorem atlas_published {args : List (String × ArgumentConfig)}
    {values : List (String × EnumValueConfig)} {scale : InputFieldConfig}
    (h : ((Schema.ofRegistry {} (atlas args values scale)).toOption.map fun schema =>
        (Sdl.schema schema, (Sdl.printedTypes schema).all TypeDefinition.isPlain)) =
      some (atlasText, true)) :
    ∃ schema : Schema, schema.Published ∧ schema.Plain ∧ Sdl.schema schema = atlasText := by
  obtain ⟨schema, hschema, hpair⟩ := Option.map_eq_some_iff.mp h
  obtain ⟨htext, hplain⟩ := Prod.mk.inj hpair
  have hpublished := toOption_eq_some_iff.mp hschema
  exact ⟨schema, ⟨_, _, TypeRegistry.Reachable.standard.run _, hpublished⟩,
    Schema.plain_of_standard hpublished hplain, htext⟩

theorem atlas_determines_types :
    ∃ schema other : Schema, (schema.Published ∧ other.Published) ∧ (schema.Plain ∧ other.Plain) ∧
      Sdl.schema schema = Sdl.schema other ∧
      schema.ownTypes.map TypeDefinition.signature = other.ownTypes.map TypeDefinition.signature := by
  have hfirst : ((Schema.ofRegistry {} (atlas
      [("since", { type := .named "Date" }), ("by", { type := .named "Filter" })]
      [("HILL", {}), ("COAST", {})] { type := .named "City" })).toOption.map fun schema =>
        (Sdl.schema schema, (Sdl.printedTypes schema).all TypeDefinition.isPlain)) =
      some (atlasText, true) := by decide +kernel
  have hsecond : ((Schema.ofRegistry {} (atlas
      [("by", { type := .named "Filter" }), ("since", { type := .named "Date" })]
      [("COAST", {}), ("HILL", {})] { type := .list (.named "Find") })).toOption.map fun schema =>
        (Sdl.schema schema, (Sdl.printedTypes schema).all TypeDefinition.isPlain)) =
      some (atlasText, true) := by decide +kernel
  obtain ⟨schema, hs, hplain, htext⟩ := atlas_published hfirst
  obtain ⟨other, ho, hotherPlain, hotherText⟩ := atlas_published hsecond
  have h := htext.trans hotherText.symm
  exact ⟨schema, other, ⟨hs, ho⟩, ⟨hplain, hotherPlain⟩, h,
    sdl_determines_types hs ho hplain hotherPlain h⟩

end GraphSchema
