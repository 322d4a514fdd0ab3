/-
  GraphSchema.Proofs.Print.Documentation — which descriptions are printed.

  A block is made of parts, each with a description in front: the type, its fields, its
  enum values or its input fields (`type_eq_parts`). A part that loses its description
  becomes shorter, so the text of the schema changes with it. The arguments of a field are
  on the line of the field and are no parts; what they are described with is published
  but not printed (`library_argument_untold`).
  - `description_printed_iff`: a host that leaves out one description gets the schema
    without it, and another text exactly if it was not that of an argument.
-/

import GraphSchema.Proofs.Print.Coverage
import GraphSchema.Proofs.Schema.Descriptions

namespace GraphSchema

namespace Sdl

/-! ## Parts of a block -/

/-- What is printed behind one description. -/
structure Part where
  element : Element
  indent : String
  description : Option String
  text : String

namespace Part

def print (part : Part) : String := Sdl.description part.indent part.description ++ part.text

def reworded (wording : Wording) (part : Part) : Part :=
  { part with description := wording part.element part.description }

def ofField (owner : String) (named : String × FieldDefinition) : Part where
  element := .field owner named.1
  indent := "  "
  description := named.2.description
  text := Sdl.field { named.2 with description := none }

def ofEnumValue (owner : String) (value : EnumValue) : Part where
  element := .enumValue owner value.name
  indent := "  "
  description := value.description
  text := Sdl.enumValue { value with description := none }

def ofInputField (owner : String) (named : String × InputField) : Part where
  element := .inputField owner named.1
  indent := "  "
  description := named.2.description
  text := Sdl.inputField { named.2 with description := none }

theorem print_ofField (owner : String) (named : String × FieldDefinition) :
    (ofField owner named).print = Sdl.field named.2 := by
  simp [print, ofField, Sdl.field, Sdl.description, String.append_assoc]

theorem print_ofEnumValue (owner : String) (value : EnumValue) :
    (ofEnumValue owner value).print = Sdl.enumValue value := by
  simp [print, ofEnumValue, Sdl.enumValue, Sdl.description, String.append_assoc]

theorem print_ofInputField (owner : String) (named : String × InputField) :
    (ofInputField owner named).print = Sdl.inputField named.2 := by
  simp [print, ofInputField, Sdl.inputField, Sdl.description, String.append_assoc]

end Part

end Sdl

namespace TypeDefinition

/-- What stands in front of the lines of a type. -/
def opening : TypeDefinition → String
  | scalar type => "scalar " ++ type.name
  | object type => "type " ++ type.name ++ Sdl.implementsClause type.interfaces ++ " \x7b\n"
  | interface type => "interface " ++ type.name ++ " \x7b\n"
  | union type => "union " ++ type.name ++ " = " ++ joinWith " | " (type.types.map (·.name))
  | enum type => "enum " ++ type.name ++ " \x7b\n"
  | inputObject type => "input " ++ type.name ++ " \x7b\n"

def lines : TypeDefinition → List Sdl.Part
  | scalar _ => []
  | object type => type.fields.entries.map (.ofField type.name)
  | interface type => type.fields.entries.map (.ofField type.name)
  | union _ => []
  | enum type => type.values.map (.ofEnumValue type.name)
  | inputObject type => type.fields.entries.map (.ofInputField type.name)

def closing : TypeDefinition → String
  | scalar _ => ""
  | union _ => ""
  | _ => "\x7d"

theorem blank_braced (lines : List String) :
    " " ++ Sdl.braced lines = " \x7b\n" ++ (String.join lines ++ "\x7d") := by
  apply String.toList_inj.mp
  simp [Sdl.braced]

theorem body_eq_lines (type : TypeDefinition) :
    Sdl.body type =
      type.opening ++ String.join (type.lines.map Sdl.Part.print) ++ type.closing := by
  cases type with
  | scalar type => simp [Sdl.body, opening, lines, closing]
  | object type =>
    simp [Sdl.body, blank_braced, opening, lines, closing, Keyed.values, Function.comp_def,
      Sdl.Part.print_ofField, String.append_assoc]
  | interface type =>
    simp [Sdl.body, blank_braced, opening, lines, closing, Keyed.values, Function.comp_def,
      Sdl.Part.print_ofField, String.append_assoc]
  | union type => simp [Sdl.body, opening, lines, closing]
  | enum type =>
    simp [Sdl.body, blank_braced, opening, lines, closing, Function.comp_def,
      Sdl.Part.print_ofEnumValue, String.append_assoc]
  | inputObject type =>
    simp [Sdl.body, blank_braced, opening, lines, closing, Keyed.values, Function.comp_def,
      Sdl.Part.print_ofInputField, String.append_assoc]

/-- The part of the type itself, and then its lines. -/
def parts (type : TypeDefinition) : List Sdl.Part :=
  ⟨.type type.name, "", type.description, type.opening⟩ :: type.lines

theorem type_eq_parts (type : TypeDefinition) :
    Sdl.type type = String.join (type.parts.map Sdl.Part.print) ++ type.closing := by
  rw [Sdl.type, body_eq_lines, parts, List.map_cons, String.join_cons, Sdl.Part.print]
  simp only [String.append_assoc]

/-! ## Rewording -/

variable {wording : Wording}

theorem argument_reworded (owner field : String) (argument : Argument) :
    Sdl.argument (argument.reworded wording owner field) = Sdl.argument argument := rfl

theorem ofField_reworded (owner name : String) (field : FieldDefinition) :
    Sdl.Part.ofField owner (name, field.reworded wording owner name) =
      (Sdl.Part.ofField owner (name, field)).reworded wording := by
  -- The line names the arguments with their types and default values and no descriptions.
  have hargs : Sdl.arguments (field.reworded wording owner name).args =
      Sdl.arguments field.args := by
    simp [Sdl.arguments, FieldDefinition.reworded, Function.comp_def, argument_reworded]
  simp only [Sdl.Part.ofField, Sdl.Part.reworded, Sdl.field, hargs]
  rfl

theorem lines_reworded (type : TypeDefinition) :
    (type.reworded wording).lines = type.lines.map (Sdl.Part.reworded wording) := by
  have hfields : ∀ (owner : String) (fields : Keyed FieldDefinition),
      (fields.mapValues (FieldDefinition.reworded wording owner)).entries.map
          (Sdl.Part.ofField owner) =
        (fields.entries.map (Sdl.Part.ofField owner)).map (Sdl.Part.reworded wording) := by
    intro owner fields
    rw [List.map_map]
    exact (List.map_map ..).trans
      (List.map_congr_left fun named _ => ofField_reworded owner named.1 named.2)
  cases type with
  | scalar type => rfl
  | object type => exact hfields type.name type.fields
  | interface type => exact hfields type.name type.fields
  | union type => rfl
  | enum type =>
    rw [lines, List.map_map]
    exact List.map_map ..
  | inputObject type =>
    rw [lines, List.map_map]
    exact List.map_map ..

theorem parts_reworded (type : TypeDefinition) :
    (type.reworded wording).parts = type.parts.map (Sdl.Part.reworded wording) := by
  have hopening : (type.reworded wording).opening = type.opening := by
    cases type with
    | union type => exact congrArg (_ ++ joinWith " | " ·) (map_name_map_reworded ..)
    | _ => rfl
  rw [parts, parts, lines_reworded, name_reworded, description_reworded, hopening]
  rfl

theorem closing_reworded (type : TypeDefinition) :
    (type.reworded wording).closing = type.closing := by
  cases type <;> rfl

end TypeDefinition

/-! ## One description less -/

namespace Sdl

theorem length_join (texts : List String) :
    (String.join texts).length = (texts.map String.length).sum := by
  rw [← String.length_toList, String.toList_join, List.length_flatMap]
  rfl

theorem length_description_pos (indent text : String) :
    0 < (description indent (some text)).length := by
  rw [← String.length_toList, description]
  split
  · simp [block, tripleQuote]
  · simp [quoted, Quoted.encode]

namespace Part

variable {part : Part} {element : Element}

theorem length_print (part : Part) :
    part.print.length = (Sdl.description part.indent part.description).length + part.text.length :=
  String.length_append ..

theorem reworded_without_of_ne (h : part.element ≠ element) :
    part.reworded (.without element) = part := by
  rw [reworded, Wording.without, if_neg h]

theorem length_print_without_lt {text : String} (helement : part.element = element)
    (hdescription : part.description = some text) :
    (part.reworded (.without element)).print.length < part.print.length := by
  have hpositive := length_description_pos part.indent text
  have hnone : (Sdl.description part.indent none).length = 0 := rfl
  rw [length_print, length_print, reworded, Wording.without, if_pos helement, hdescription, hnone]
  exact Nat.add_lt_add_right hpositive _

theorem length_print_without_le (part : Part) (element : Element) :
    (part.reworded (.without element)).print.length ≤ part.print.length := by
  by_cases helement : part.element = element
  · cases hdescription : part.description with
    | none =>
      rw [length_print, length_print, reworded, Wording.without, if_pos helement, hdescription]
    | some text => exact Nat.le_of_lt (length_print_without_lt helement hdescription)
  · rw [reworded_without_of_ne helement]

end Part

end Sdl

namespace TypeDefinition

variable {type : TypeDefinition} {element : Element}

theorem length_type_reworded (type : TypeDefinition) (wording : Wording) :
    (Sdl.type (type.reworded wording)).length =
      (type.parts.map fun part => (part.reworded wording).print.length).sum +
        type.closing.length := by
  rw [type_eq_parts, parts_reworded, closing_reworded, String.length_append, Sdl.length_join,
    List.map_map, List.map_map]
  rfl

theorem length_type (type : TypeDefinition) :
    (Sdl.type type).length =
      (type.parts.map fun part => part.print.length).sum + type.closing.length := by
  rw [type_eq_parts, String.length_append, Sdl.length_join, List.map_map]
  rfl

theorem length_type_without_le (type : TypeDefinition) (element : Element) :
    (Sdl.type (type.reworded (.without element))).length ≤ (Sdl.type type).length := by
  rw [length_type_reworded, length_type]
  exact Nat.add_le_add_right
    (List.sum_le_sum fun part _ => part.length_print_without_le element) _

/-- The block of a type is shorter without the description of one of its parts. -/
theorem length_type_without_lt {part : Sdl.Part} {text : String} (hpart : part ∈ type.parts)
    (helement : part.element = element) (hdescription : part.description = some text) :
    (Sdl.type (type.reworded (.without element))).length < (Sdl.type type).length := by
  rw [length_type_reworded, length_type]
  refine Nat.add_lt_add_right (List.sum_lt_sum _ _
    (fun part _ => part.length_print_without_le element) ⟨part, hpart, ?_⟩) _
  exact Sdl.Part.length_print_without_lt helement hdescription

/-- The block of a type is the same without a description that none of its parts has. -/
theorem type_without_of_no_part (h : ∀ part ∈ type.parts, part.element ≠ element) :
    Sdl.type (type.reworded (.without element)) = Sdl.type type := by
  have hparts : type.parts.map (Sdl.Part.reworded (.without element)) = type.parts.map id :=
    List.map_congr_left fun part hpart => Sdl.Part.reworded_without_of_ne (h part hpart)
  rw [type_eq_parts, type_eq_parts type, parts_reworded, closing_reworded, hparts, List.map_id]

/-! ## Parts and elements -/

theorem isArgument_of_mem_parts {part : Sdl.Part} (h : part ∈ type.parts) :
    part.element.isArgument = false := by
  rcases List.mem_cons.mp h with hsame | hline
  · subst hsame
    rfl
  · cases type with
    | scalar _ => cases hline
    | union _ => cases hline
    | _ =>
      obtain ⟨_, _, hsame⟩ := List.mem_map.mp hline
      subst hsame
      rfl

/-- A described element of a type that is not an argument is that of a part. -/
theorem exists_part {text : String} (hname : type.name = element.typeName)
    (hargument : element.isArgument = false) (h : type.descriptionOf element = some text) :
    ∃ part ∈ type.parts, part.element = element ∧ part.description = some text := by
  cases element with
  | type name => exact ⟨_, List.mem_cons_self .., congrArg Element.type hname, h⟩
  | argument owner field name => cases hargument
  | field owner name =>
    obtain ⟨field, hfield, hdescription⟩ := Option.bind_eq_some_iff.mp h
    cases hname
    refine ⟨.ofField type.name (name, field), List.mem_cons_of_mem _ ?_, rfl, hdescription⟩
    cases type with
    | object object => exact List.mem_map_of_mem (Keyed.get?_eq_some_iff.mp hfield)
    | interface interface => exact List.mem_map_of_mem (Keyed.get?_eq_some_iff.mp hfield)
    | _ => cases hfield
  | enumValue owner name =>
    obtain ⟨value, hvalue, hdescription⟩ := Option.bind_eq_some_iff.mp h
    cases hname
    cases name_of_value? hvalue
    refine ⟨.ofEnumValue type.name value, List.mem_cons_of_mem _ ?_, rfl, hdescription⟩
    cases type with
    | enum enum => exact List.mem_map_of_mem (EnumType.value?_eq_some_iff.mp hvalue).1
    | _ => cases hvalue
  | inputField owner name =>
    obtain ⟨field, hfield, hdescription⟩ := Option.bind_eq_some_iff.mp h
    cases hname
    refine ⟨.ofInputField type.name (name, field), List.mem_cons_of_mem _ ?_, rfl, hdescription⟩
    cases type with
    | inputObject input => exact List.mem_map_of_mem (Keyed.get?_eq_some_iff.mp hfield)
    | _ => cases hfield

end TypeDefinition

namespace Schema

variable {schema : Schema} {element : Element}

/-! ## The text of a schema -/

theorem printedTypes_reworded (schema : Schema) (wording : Wording) :
    Sdl.printedTypes (schema.reworded wording) =
      (Sdl.printedTypes schema).map (TypeDefinition.reworded wording) := by
  have hvalues : (schema.reworded wording).types.values =
      schema.types.values.map (TypeDefinition.reworded wording) := by
    simp [reworded, Keyed.values, Keyed.mapValues, Function.comp_def]
  rw [Sdl.printedTypes, Sdl.printedTypes, hvalues, List.filter_map]
  refine congrArg (List.map _) (List.filter_congr fun type _ => ?_)
  rw [Function.comp_apply, TypeDefinition.name_reworded]

theorem roots_reworded (schema : Schema) (wording : Wording) :
    Sdl.roots (schema.reworded wording) = Sdl.roots schema := by
  have hmutation : (schema.reworded wording).mutation.map ObjectType.name =
      schema.mutation.map ObjectType.name := Option.map_map ..
  rw [Sdl.roots, Sdl.roots, hmutation]
  rfl

theorem text_reworded (schema : Schema) (wording : Wording) :
    Sdl.schema (schema.reworded wording) = joinWith "\n\n" ((Sdl.roots schema).toList ++
      (Sdl.printedTypes schema).map fun type => Sdl.type (type.reworded wording)) := by
  have htext : Sdl.schema (schema.reworded wording) = joinWith "\n\n"
      ((Sdl.roots (schema.reworded wording)).toList ++
        (Sdl.printedTypes (schema.reworded wording)).map Sdl.type) := rfl
  rw [htext, roots_reworded, printedTypes_reworded, List.map_map]
  rfl

theorem text_eq (schema : Schema) : Sdl.schema schema = joinWith "\n\n"
    ((Sdl.roots schema).toList ++ (Sdl.printedTypes schema).map Sdl.type) := rfl

theorem length_text_without_lt {type : TypeDefinition} (htype : type ∈ Sdl.printedTypes schema)
    {part : Sdl.Part} {text : String} (hpart : part ∈ type.parts)
    (helement : part.element = element) (hdescription : part.description = some text) :
    (Sdl.schema (schema.reworded (.without element))).length < (Sdl.schema schema).length := by
  rw [text_reworded, text_eq schema]
  refine length_joinWith_lt ?_ ⟨Sdl.type type, ?_, Sdl.length_type_pos type⟩
  · simp only [List.map_append, List.sum_append, List.map_map, Function.comp_def]
    refine Nat.add_lt_add_left (List.sum_lt_sum _ _ (fun type _ => ?_) ⟨type, htype, ?_⟩) _
    · exact Nat.add_le_add_right (type.length_type_without_le element) _
    · exact Nat.add_lt_add_right
        (TypeDefinition.length_type_without_lt hpart helement hdescription) _
  · exact List.mem_append_right _ (List.mem_map_of_mem htype)

/-- Without the description of an argument the text is the same. -/
theorem text_without_argument (hargument : element.isArgument = true) :
    Sdl.schema (schema.reworded (.without element)) = Sdl.schema schema := by
  rw [text_reworded, text_eq schema]
  refine congrArg (fun blocks => joinWith "\n\n" ((Sdl.roots schema).toList ++ blocks))
    (List.map_congr_left fun type _ => TypeDefinition.type_without_of_no_part fun part hpart => ?_)
  intro helement
  rw [← helement, TypeDefinition.isArgument_of_mem_parts hpart] at hargument
  cases hargument

variable {start : TypeRegistry} {calls : List Registration} {config : SchemaConfig}

/-- A wording of the host's types is one of the schema that the host gets. -/
theorem ofCalls_reworded {wording : Wording} (hstart : start = .empty ∨ start = .standard)
    (hkept : ∀ scalar ∈ BuiltinScalar.all,
      wording (.type scalar.name) scalar.description = scalar.description)
    (h : ofCalls start calls config = .ok schema) :
    ofCalls start (calls.map (Registration.reworded wording)) config =
      .ok (schema.reworded wording) := by
  have hr : start.Reachable := .of_start hstart
  rw [ofCalls_eq_ofRegistry hr] at h ⊢
  have hrun : (start.reworded wording).run (calls.map (Registration.reworded wording)) =
      (start.run calls).reworded wording := start.run_reworded calls
  rw [TypeRegistry.reworded_start hstart hkept] at hrun
  rw [hrun]
  exact ofRegistry_reworded (hr.run calls).consistent h

/-- A host that leaves out the description of one element, whose type is printed, gets the
schema without it; the text is another one exactly if the element is not an argument. -/
theorem description_printed_iff (hstart : start = .empty ∨ start = .standard)
    (h : ofCalls start calls config = .ok schema) {text : String}
    (hprinted : isBuiltinScalar element.typeName = false)
    (hdescribed : schema.descriptionOf element = some text) :
    ofCalls start (calls.map (Registration.reworded (.without element))) config =
        .ok (schema.reworded (.without element)) ∧
      (∀ other, (schema.reworded (.without element)).descriptionOf other =
        if other = element then none else schema.descriptionOf other) ∧
      (Sdl.schema (schema.reworded (.without element)) ≠ Sdl.schema schema ↔
        element.isArgument = false) := by
  have hs := published_of_calls (.of_start hstart) h
  have hkept : ∀ scalar ∈ BuiltinScalar.all,
      Wording.without element (.type scalar.name) scalar.description = scalar.description := by
    intro scalar hscalar
    refine if_neg fun hsame => ?_
    have hbuiltin : isBuiltinScalar scalar.name = true :=
      List.contains_iff_mem.mpr (List.mem_map_of_mem hscalar)
    rw [← hsame] at hprinted
    exact Bool.false_ne_true (hprinted.symm.trans hbuiltin)
  refine ⟨ofCalls_reworded hstart hkept h, fun other => ?_, ?_⟩
  · have hnone : ∀ other, Wording.without element other none = none := fun other => by
      rw [Wording.without, ite_self]
    exact descriptionOf_reworded hs hnone other
  · constructor
    · intro hchanged
      by_contra hargument
      exact hchanged (text_without_argument (by simpa using hargument))
    · intro hargument hsame
      obtain ⟨type, htype, hdescription⟩ := Option.bind_eq_some_iff.mp hdescribed
      have hname : type.name = element.typeName := (hs.named htype).1
      obtain ⟨part, hpart, helement, hpartDescription⟩ :=
        TypeDefinition.exists_part hname hargument hdescription
      have hmem : type ∈ Sdl.printedTypes schema := by
        refine List.mem_filter.mpr ⟨Keyed.mem_values_iff.mpr ⟨_, htype⟩, ?_⟩
        rw [hname, hprinted]
        rfl
      -- Its part is shorter without it, and no other part becomes longer.
      have hshorter := length_text_without_lt hmem hpart helement hpartDescription
      rw [hsame] at hshorter
      exact Nat.lt_irrefl _ hshorter

/-! A library whose one field is described, and so is the argument of that field. -/

def library : List Registration := [
  .object {
    name := "Query"
    fields := .now (.ofList [("find", {
      type := .named "ID"
      args := .ofList [("title", {
        type := .named "String"
        description := some "Any part of the title." })]
      description := some "The first book found." })]) }]

def libraryText : String :=
  "type Query \x7b\n  \"The first book found.\"\n  find(title: String): ID\n\x7d"

theorem library_published :
    ∃ schema, ofCalls .standard library {} = .ok schema ∧ Sdl.schema schema = libraryText ∧
      schema.descriptionOf (.field "Query" "find") = some "The first book found." ∧
      schema.descriptionOf (.argument "Query" "find" "title") = some "Any part of the title." := by
  have hoption : ((ofCalls .standard library {}).toOption.map fun schema =>
      (Sdl.schema schema, schema.descriptionOf (.field "Query" "find"),
        schema.descriptionOf (.argument "Query" "find" "title"))) =
      some (libraryText, some "The first book found.", some "Any part of the title.") := by
    decide +kernel
  obtain ⟨schema, hschema, hall⟩ := Option.map_eq_some_iff.mp hoption
  obtain ⟨htext, hdescriptions⟩ := Prod.mk.inj hall
  obtain ⟨hfield, hargument⟩ := Prod.mk.inj hdescriptions
  exact ⟨schema, toOption_eq_some_iff.mp hschema, htext, hfield, hargument⟩

theorem library_field_told :
    ∃ schema bare, ofCalls .standard library {} = .ok schema ∧
      schema.descriptionOf (.field "Query" "find") = some "The first book found." ∧
      ofCalls .standard
        (library.map (Registration.reworded (.without (.field "Query" "find")))) {} = .ok bare ∧
      bare.descriptionOf (.field "Query" "find") = none ∧
      Sdl.schema bare ≠ Sdl.schema schema := by
  obtain ⟨schema, h, _, hfield, _⟩ := library_published
  obtain ⟨hbare, hothers, htext⟩ := description_printed_iff (Or.inr rfl) h (by decide) hfield
  exact ⟨schema, _, h, hfield, hbare, (hothers _).trans (if_pos rfl), htext.mpr rfl⟩

/-- The argument is described in one schema only, and both have one text. -/
theorem library_argument_untold :
    ∃ schema bare, ofCalls .standard library {} = .ok schema ∧
      schema.descriptionOf (.argument "Query" "find" "title") = some "Any part of the title." ∧
      ofCalls .standard
        (library.map (Registration.reworded (.without (.argument "Query" "find" "title")))) {} =
          .ok bare ∧
      bare.descriptionOf (.argument "Query" "find" "title") = none ∧
      Sdl.schema bare = Sdl.schema schema := by
  have hoption : ((ofCalls .standard
      (library.map (Registration.reworded (.without (.argument "Query" "find" "title")))) {}
        ).toOption.map fun schema =>
          (Sdl.schema schema, schema.descriptionOf (.argument "Query" "find" "title"))) =
      some (libraryText, none) := by
    decide +kernel
  obtain ⟨schema, h, htext, _, hargument⟩ := library_published
  obtain ⟨bare, hbare, hall⟩ := Option.map_eq_some_iff.mp hoption
  obtain ⟨hbareText, hnone⟩ := Prod.mk.inj hall
  exact ⟨schema, bare, h, hargument, toOption_eq_some_iff.mp hbare, hnone,
    hbareText.trans htext.symm⟩

end Schema

end GraphSchema
