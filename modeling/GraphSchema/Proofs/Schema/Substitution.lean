/-
  GraphSchema.Proofs.Schema.Substitution — an object can stand in for its interfaces.

  A caller that knows only an interface reads a field through it and is answered by some
  implementation. The answer has the lists and at least the non-null markers the
  interface announced, ends in an object or leaf the announced name allows for, and every
  announced argument is taken with its announced type (`published_substitutable`). The
  check compared references and names; what names denote is decided by the same possible
  types in the end.
-/

import GraphSchema.Schema.Dispatch
import GraphSchema.Proofs.Schema.Published

namespace GraphSchema

namespace Schema

/-- The objects a value under that name can be: itself, or the possible types. -/
def denotes (schema : Schema) (name : String) : List ObjectType :=
  match schema.type? name with
  | some (.object object) => [object]
  | some (.interface interface) => interface.implementations
  | some (.union union) => union.types
  | _ => []

/-- What a caller who expects one field may rely on when answered by another. -/
structure StandsIn (schema : Schema) (found expected : FieldDefinition) : Prop where
  lists : found.type.listDepth = expected.type.listDepth
  nonNull : ∀ level, expected.type.nonNullAt level = true → found.type.nonNullAt level = true
  objects : ∀ object ∈ schema.denotes found.type.innermostName,
    object ∈ schema.denotes expected.type.innermostName
  leaf : ∀ type, schema.type? expected.type.innermostName = some type → type.isLeaf = true →
    found.type.innermostName = expected.type.innermostName
  args : ∀ argument ∈ expected.args, ∃ given, found.argument? argument.name = some given ∧
    given.type = argument.type

variable {config : SchemaConfig} {registry : TypeRegistry} {schema : Schema}

/-! ## What names denote -/

theorem denotes_of_object? {name : String} {object : ObjectType}
    (h : schema.object? name = some object) : schema.denotes name = [object] := by
  rw [denotes, object?_eq_some_iff.mp h]

theorem denotes_of_abstract? {name : String} {type : AbstractType}
    (h : schema.abstract? name = some type) : schema.denotes name = type.possibleTypes := by
  rcases abstract?_eq_some_iff.mp h with ⟨interface, hfound, htype⟩ | ⟨union, hfound, htype⟩
  · subst htype
    rw [denotes, hfound]
    rfl
  · subst htype
    rw [denotes, hfound]
    rfl

/-- What a possible type denotes is denoted by the type it is possible in. -/
theorem denotes_possible (hr : registry.Reachable) (h : ofRegistry config registry = .ok schema)
    {found expected : String} (hpossible : isPossibleIn schema.types found expected = true)
    {object : ObjectType} (hobject : object ∈ schema.denotes found) :
    object ∈ schema.denotes expected := by
  obtain ⟨type, htype, possible, hmem, hname⟩ := isPossibleIn_eq_true_iff.mp hpossible
  have habstract : schema.abstract? expected = some type := htype
  obtain ⟨hfound, _⟩ := (mem_possibleTypes_iff hr h habstract).mp hmem
  rw [hname] at hfound
  rw [denotes_of_object? hfound, List.mem_singleton] at hobject
  subst hobject
  rw [denotes_of_abstract? habstract]
  exact hmem

theorem denotes_reachable (hr : registry.Reachable) (h : ofRegistry config registry = .ok schema)
    {found expected : String}
    (hnames : Relation.ReflTransGen (fun object type => isPossibleIn schema.types object type = true)
      found expected)
    {object : ObjectType} (hobject : object ∈ schema.denotes found) :
    object ∈ schema.denotes expected := by
  induction hnames with
  | refl => exact hobject
  | tail _ hpossible ih => exact denotes_possible hr h hpossible ih

/-- A leaf has no possible types, so no other name is below it. -/
theorem eq_of_isLeaf {found expected : String}
    (hnames : Relation.ReflTransGen (fun object type => isPossibleIn schema.types object type = true)
      found expected)
    {type : TypeDefinition} (htype : schema.type? expected = some type)
    (hleaf : type.isLeaf = true) : found = expected := by
  cases hnames with
  | refl => rfl
  | tail _ hpossible =>
    obtain ⟨abstract, habstract, _⟩ := isPossibleIn_eq_true_iff.mp hpossible
    have hbind : (some type).bind TypeDefinition.abstract? = some abstract := htype ▸ habstract
    cases type with
    | interface _ => cases hleaf
    | union _ => cases hleaf
    | _ => cases hbind

/-! ## Fields -/

theorem standsIn_of_keeps (hr : registry.Reachable) (h : ofRegistry config registry = .ok schema)
    {found expected : FieldDefinition} (hkeeps : Keeps schema.types found expected) :
    schema.StandsIn found expected := by
  have hnarrows := narrows_of_isCovariant hkeeps.type
  have hnames := hnarrows.innermostName
  refine ⟨hnarrows.listDepth, fun _ hlevel => hnarrows.nonNullAt hlevel, ?_, ?_, hkeeps.args⟩
  · intro object hobject
    exact denotes_reachable hr h hnames hobject
  · intro type htype hleaf
    exact eq_of_isLeaf hnames htype hleaf

theorem conforms (h : ofRegistry config registry = .ok schema) {name : String}
    {interface : InterfaceType} (hinterface : schema.type? name = some (.interface interface))
    {object : ObjectType} (hobject : object ∈ interface.implementations) :
    Conforms schema.types interface object := by
  rw [type?, ← types_eq h] at hinterface
  rw [← types_eq h]
  exact (succeeds h).conforms name interface hinterface object hobject

theorem mem_possibleTypes_of_objectType? {type : AbstractType} {value : Json}
    {info : ResolveInfo} {object : ObjectType}
    (h : type.objectType? value info = some object) : object ∈ type.possibleTypes := by
  unfold AbstractType.objectType? at h
  split at h
  · obtain ⟨name, _, hfound⟩ := Option.bind_eq_some_iff.mp h
    exact List.mem_of_find?_eq_some hfound
  · exact List.mem_of_find?_eq_some h

/-- Whatever object a value of an interface turns out to be has each field of the
interface, and its field stands in for that of the interface. -/
theorem published_substitutable (hr : registry.Reachable)
    (h : ofRegistry config registry = .ok schema) {name : String} {interface : InterfaceType}
    (hinterface : schema.type? name = some (.interface interface)) :
    (∀ value info object, (AbstractType.interface interface).objectType? value info = some object →
        object ∈ interface.implementations) ∧
      ∀ object ∈ interface.implementations,
        ∀ field expected, interface.field? field = some expected →
          ∃ found, object.field? field = some found ∧ schema.StandsIn found expected := by
  constructor
  · intro value info object hobject
    exact mem_possibleTypes_of_objectType? hobject
  · intro object hobject field expected hexpected
    obtain ⟨found, hfound, hkeeps⟩ := conforms h hinterface hobject field expected hexpected
    exact ⟨found, hfound, standsIn_of_keeps hr h hkeeps⟩

/-- An interface that books implement and that announces a list of related items. -/
def relatesBooksToItems : TypeDefinition → Bool
  | .interface interface =>
    interface.implementations.any (·.name == "Book") &&
      (interface.field? "related").any (·.type == .list (.named "Item"))
  | _ => false

theorem catalogue_work :
    ∃ schema interface object expected, ofRegistry {} catalogue = .ok schema ∧
      schema.type? "Work" = some (.interface interface) ∧
      object ∈ interface.implementations ∧ object.name = "Book" ∧
      interface.field? "related" = some expected ∧ expected.type = .list (.named "Item") := by
  have hcheck : ((ofRegistry {} catalogue).toOption.any fun schema =>
      (schema.type? "Work").any relatesBooksToItems) = true := by decide +kernel
  obtain ⟨schema, type, h, htype, hcheck⟩ := exists_of_check hcheck
  cases type with
  | interface interface =>
    obtain ⟨hobjects, hfield⟩ := Bool.and_eq_true_iff.mp hcheck
    obtain ⟨object, hobject, hname⟩ := List.any_eq_true.mp hobjects
    obtain ⟨expected, hexpected, hlist⟩ := (Option.any_eq_true _ _).mp hfield
    exact ⟨schema, interface, object, expected, h, htype, hobject, eq_of_beq hname, hexpected,
      eq_of_beq hlist⟩
  | _ => cases hcheck

/-- A book is related to books where works are related to items. -/
theorem catalogue_substitutable :
    ∃ schema interface object expected found, ofRegistry {} catalogue = .ok schema ∧
      schema.type? "Work" = some (.interface interface) ∧
      object ∈ interface.implementations ∧ object.name = "Book" ∧
      interface.field? "related" = some expected ∧ expected.type = .list (.named "Item") ∧
      object.field? "related" = some found ∧ schema.StandsIn found expected := by
  obtain ⟨schema, interface, object, expected, h, htype, hobject, hname, hexpected, hlist⟩ :=
    catalogue_work
  obtain ⟨found, hfound, hstands⟩ :=
    (published_substitutable catalogue_reachable h htype).2 object hobject _ expected hexpected
  exact ⟨schema, interface, object, expected, found, h, htype, hobject, hname, hexpected, hlist,
    hfound, hstands⟩

end Schema

end GraphSchema
