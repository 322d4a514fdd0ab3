/-
  GraphSchema.Proofs.Schema.Calls — calls made through an interface.

  A field requires an argument whose type is non-null and which has no default value, and
  takes a call that gives all it requires (`FieldDefinition.Accepts`). A caller that knows
  the interface alone gives what the interface requires. Objects are checked for the
  arguments the interface declares and for the types of these, and for nothing else: an
  argument the interface does not declare, or declares with a default value, is one that
  the caller may leave out (`FieldDefinition.Spares`). So calls carry over from the
  interface to an object exactly if the object requires no such argument
  (`calls_carry_over_iff`).
  - `boxOffice_call_refused`: a published object whose field requires an argument of its
    own; a call the interface takes is none that the object takes.
-/

import GraphSchema.Proofs.Schema.Closed
import GraphSchema.Proofs.Schema.Substitution

namespace GraphSchema

/-! ## Calls -/

def Argument.isRequired (argument : Argument) : Bool :=
  argument.type.isNonNull && argument.defaultValue.isNone

theorem Argument.isRequired_iff {argument : Argument} :
    argument.isRequired = true ↔ argument.type.isNonNull = true ∧ argument.defaultValue = none := by
  rw [isRequired, Bool.and_eq_true, Option.isNone_iff_eq_none]

namespace FieldDefinition

/-- The call gives every argument the field requires. -/
def Accepts (field : FieldDefinition) (call : Keyed Json) : Prop :=
  ∀ argument ∈ field.args, argument.isRequired = true → call.contains argument.name = true

/-- The field does not make a caller give the argument, which another field has with the
type it has here, if it is declared here at all. -/
inductive Spares (field : FieldDefinition) (argument : Argument) : Prop
  | undeclared : field.argument? argument.name = none → Spares field argument
  | defaulted (declared : Argument) : field.argument? argument.name = some declared →
      declared.type = argument.type → declared.defaultValue.isSome = true → Spares field argument

/-- A call that gives what the field requires and no more. -/
def leastCall (field : FieldDefinition) : Keyed Json :=
  .ofList ((field.args.filter Argument.isRequired).map fun argument => (argument.name, .bool true))

variable {field found expected : FieldDefinition} {argument : Argument} {call : Keyed Json}

theorem contains_leastCall_iff {key : String} :
    field.leastCall.contains key = true ↔
      ∃ argument ∈ field.args, argument.isRequired = true ∧ argument.name = key := by
  rw [leastCall, Keyed.contains_ofList_iff]
  simp only [List.map_map, List.mem_map, List.mem_filter, Function.comp_apply, and_assoc]

theorem accepts_leastCall (field : FieldDefinition) : field.Accepts field.leastCall :=
  fun argument hmem hrequired => contains_leastCall_iff.mpr ⟨argument, hmem, hrequired, rfl⟩

theorem argument?_eq_some_iff (hnd : (field.args.map Argument.name).Nodup) {key : String} :
    field.argument? key = some argument ↔ argument ∈ field.args ∧ argument.name = key :=
  find?_key_eq_some_iff hnd

/-- An argument that is spared is not in the least call. -/
theorem contains_leastCall_of_spares (hnd : (expected.args.map Argument.name).Nodup)
    (h : expected.Spares argument) : expected.leastCall.contains argument.name = false := by
  rw [Bool.eq_false_iff]
  intro hgiven
  obtain ⟨required, hmem, hrequired, hname⟩ := contains_leastCall_iff.mp hgiven
  have hfound := (argument?_eq_some_iff hnd).mpr ⟨hmem, hname⟩
  cases h with
  | undeclared hnone =>
    rw [hfound] at hnone
    cases hnone
  | defaulted declared hdeclared _ hdefault =>
    rw [hfound] at hdeclared
    cases hdeclared
    rw [(Argument.isRequired_iff.mp hrequired).2] at hdefault
    cases hdefault

/-- What a call through a kept promise may lack is spared by the promise: an argument that
is promised without a default value is required by both. -/
theorem spares_of_lacks {types : Keyed TypeDefinition} (hkeeps : Keeps types found expected)
    (hnd : (found.args.map Argument.name).Nodup) (hmem : argument ∈ found.args)
    (hrequired : argument.isRequired = true) (haccepts : expected.Accepts call)
    (hlacks : call.contains argument.name = false) : expected.Spares argument := by
  cases hdeclared : expected.argument? argument.name with
  | none => exact .undeclared hdeclared
  | some declared =>
    have hin : declared ∈ expected.args := List.mem_of_find?_eq_some hdeclared
    have hname : declared.name = argument.name := by simpa using List.find?_some hdeclared
    obtain ⟨given, hgiven, htype⟩ := hkeeps.args declared hin
    rw [(argument?_eq_some_iff hnd).mpr ⟨hmem, hname.symm⟩] at hgiven
    cases hgiven
    refine .defaulted declared hdeclared htype.symm (Option.isSome_iff_ne_none.mpr fun hnone => ?_)
    have hpromised : declared.isRequired = true :=
      Argument.isRequired_iff.mpr ⟨htype ▸ (Argument.isRequired_iff.mp hrequired).1, hnone⟩
    rw [← hname, haccepts declared hin hpromised] at hlacks
    cases hlacks

end FieldDefinition

/-! ## Published fields -/

namespace Schema

open FieldDefinition

variable {config : SchemaConfig} {registry : TypeRegistry} {schema : Schema}

theorem Declares.nodup_args (h : ofRegistry config registry = .ok schema) {name key : String}
    {fields : Keyed FieldDefinition} (hd : schema.Declares name fields) {field : FieldDefinition}
    (hfield : fields.get? key = some field) : (field.args.map Argument.name).Nodup := by
  obtain ⟨configs, _, hfields⟩ := hd.configured h
  subst hfields
  obtain ⟨fieldConfig, _, hpublished⟩ := get?_publishedFields_eq_some_iff.mp hfield
  subst hpublished
  exact nodup_map_sortOn _

/-- Every call that a field of an interface takes is taken by that field of an object which
implements it, exactly if the object's field requires nothing that the interface spares. -/
theorem calls_carry_over_iff (hr : registry.Reachable)
    (h : ofRegistry config registry = .ok schema) {name : String} {interface : InterfaceType}
    (hinterface : schema.type? name = some (.interface interface)) {object : ObjectType}
    (hobject : object ∈ interface.implementations) {field : String} {expected : FieldDefinition}
    (hexpected : interface.field? field = some expected) :
    ∃ found, object.field? field = some found ∧
      ((∀ call, expected.Accepts call → found.Accepts call) ↔
        ∀ argument ∈ found.args, argument.isRequired = true → ¬ expected.Spares argument) := by
  obtain ⟨found, hfound, hkeeps⟩ := conforms h hinterface hobject field expected hexpected
  have habstract := abstract?_eq_some_iff.mpr (Or.inl ⟨interface, hinterface, rfl⟩)
  obtain ⟨hown, _⟩ := (mem_possibleTypes_iff hr h habstract).mp hobject
  have hexpectedArgs := (Declares.interface interface hinterface).nodup_args h hexpected
  have hfoundArgs := (Declares.object object (object?_eq_some_iff.mp hown)).nodup_args h hfound
  refine ⟨found, hfound, ?_⟩
  constructor
  · intro hcarry argument hmem hrequired hspares
    have hgiven := hcarry _ (accepts_leastCall expected) argument hmem hrequired
    rw [contains_leastCall_of_spares hexpectedArgs hspares] at hgiven
    cases hgiven
  · intro hnone call haccepts argument hmem hrequired
    refine Bool.of_not_eq_false fun hlacks => ?_
    exact hnone argument hmem hrequired
      (spares_of_lacks hkeeps hfoundArgs hmem hrequired haccepts hlacks)

/-- An implementation that requires no argument for the related items. -/
def relatesFreely : TypeDefinition → Bool
  | .interface interface =>
    (interface.field? "related").any fun _ => interface.implementations.any fun object =>
      (object.field? "related").any fun found => found.args.all fun argument => !argument.isRequired
  | _ => false

/-- What is asked of works in general can be asked of books, though they can be sorted. -/
theorem catalogue_calls_carry_over :
    ∃ schema interface object expected found, ofRegistry {} catalogue = .ok schema ∧
      schema.type? "Work" = some (.interface interface) ∧ object ∈ interface.implementations ∧
      interface.field? "related" = some expected ∧ object.field? "related" = some found ∧
      ∀ call, expected.Accepts call → found.Accepts call := by
  have hcheck : ((ofRegistry {} catalogue).toOption.any fun schema =>
      (schema.type? "Work").any relatesFreely) = true := by decide +kernel
  obtain ⟨schema, type, h, htype, hcheck⟩ := exists_of_check hcheck
  cases type with
  | interface interface =>
    obtain ⟨expected, hexpected, hcheck⟩ := (Option.any_eq_true _ _).mp hcheck
    obtain ⟨object, hobject, hcheck⟩ := List.any_eq_true.mp hcheck
    obtain ⟨free, hfree, hargs⟩ := (Option.any_eq_true _ _).mp hcheck
    obtain ⟨found, hfound, hcarry⟩ :=
      calls_carry_over_iff catalogue_reachable h htype hobject hexpected
    rw [hfree] at hfound
    cases hfound
    refine ⟨schema, interface, object, expected, free, h, htype, hobject, hexpected, hfree,
      hcarry.mpr fun argument hmem hrequired => ?_⟩
    simpa [hrequired] using List.all_eq_true.mp hargs argument hmem
  | _ => cases hcheck

/-- Tickets have a price in a currency, and whatever is priced has a price. -/
def boxOffice : TypeRegistry :=
  TypeRegistry.standard.run [
    .interface {
      name := "Priced"
      fields := .now (.ofList [("price", { type := .named "Int" })])
      resolveType := some fun _ _ => none },
    .object {
      name := "Ticket"
      fields := .now (.ofList [
        ("price", {
          type := .named "Int"
          args := .ofList [("currency", { type := .nonNull (.named "String") })] })])
      interfaces := .now ["Priced"] },
    .object { name := "Query", fields := .now (.ofList [("cheapest", { type := .named "Priced" })]) }]

/-- An interface without arguments to the price, and an implementation that requires one. -/
def requiresMore : TypeDefinition → Bool
  | .interface interface =>
    (interface.field? "price").any (fun expected => expected.args.isEmpty) &&
      interface.implementations.any fun object =>
        (object.field? "price").any fun found => found.args.any Argument.isRequired
  | _ => false

/-- The schema is published, with a required argument that the interface does not declare:
the call without arguments is taken by the interface's field and not by the ticket's. -/
theorem boxOffice_call_refused :
    ∃ schema interface object expected found argument, ofRegistry {} boxOffice = .ok schema ∧
      schema.type? "Priced" = some (.interface interface) ∧ object ∈ interface.implementations ∧
      interface.field? "price" = some expected ∧ object.field? "price" = some found ∧
      (argument ∈ found.args ∧ argument.isRequired = true ∧
        expected.argument? argument.name = none) ∧
      expected.Accepts .empty ∧ ¬ found.Accepts .empty := by
  have hcheck : ((ofRegistry {} boxOffice).toOption.any fun schema =>
      (schema.type? "Priced").any requiresMore) = true := by decide +kernel
  obtain ⟨schema, type, h, htype, hcheck⟩ := exists_of_check hcheck
  cases type with
  | interface interface =>
    obtain ⟨hprice, hobjects⟩ := Bool.and_eq_true_iff.mp hcheck
    obtain ⟨expected, hexpected, hnone⟩ := (Option.any_eq_true _ _).mp hprice
    obtain ⟨object, hobject, hfield⟩ := List.any_eq_true.mp hobjects
    obtain ⟨found, hfound, hargs⟩ := (Option.any_eq_true _ _).mp hfield
    obtain ⟨argument, hmem, hrequired⟩ := List.any_eq_true.mp hargs
    have hno : expected.args = [] := List.isEmpty_iff.mp hnone
    refine ⟨schema, interface, object, expected, found, argument, h, htype, hobject, hexpected,
      hfound, ⟨hmem, hrequired, ?_⟩, ?_, ?_⟩
    · rw [argument?, hno]
      rfl
    · intro promised hpromised
      rw [hno] at hpromised
      cases hpromised
    · intro haccepts
      cases haccepts argument hmem hrequired
  | _ => cases hcheck

end Schema

end GraphSchema
