/-
  GraphSchema.Proofs.Print.Roots — what a printed schema tells of its roots.

  The text of a published schema starts with a schema block unless the query root is
  `Query` and a mutation root, where there is one, is `Mutation`; a block names the roots,
  and no type is taken for one. So two schemas with one text have query roots of one name,
  and either mutation roots of one name or none (`sdl_determines_roots`), but for one case:
  where no block is printed, a mutation root `Mutation` is not told from none. An object of
  that name may stand among the types without being a root (`workshop_roots_untold`).
-/

import GraphSchema.Proofs.Print.Blocks
import GraphSchema.Proofs.Schema.Published

namespace GraphSchema

namespace Schema

/-- A schema made of a registry that a host came to hold. -/
def Published (schema : Schema) : Prop :=
  ∃ config registry, TypeRegistry.Reachable registry ∧ ofRegistry config registry = .ok schema

/-- The names of the query root and of the mutation root, if there is one. -/
def rootNames (schema : Schema) : String × Option String :=
  (schema.query.name, schema.mutation.map ObjectType.name)

variable {schema other : Schema}

/-! ## Names -/

/-- A type stands under its own valid name. -/
theorem Published.named (h : schema.Published) {name : String} {type : TypeDefinition}
    (htype : schema.type? name = some type) : type.name = name ∧ isValidName name = true := by
  obtain ⟨config, registry, hr, hschema⟩ := h
  obtain ⟨entry, hentry, hbuilds⟩ := (type?_eq_some_iff hschema).mp htype
  exact ⟨hbuilds.name_eq_key hr.consistent hentry, (hr.consistent.named name entry hentry).2⟩

/-- The roots are objects of the schema. -/
theorem Published.roots (h : schema.Published) :
    schema.type? schema.query.name = some (.object schema.query) ∧
      ∀ mutation ∈ schema.mutation, schema.type? mutation.name = some (.object mutation) := by
  have hown : ∀ {name : String} {object : ObjectType}, schema.type? name = some (.object object) →
      schema.type? object.name = some (.object object) := by
    intro name object hobject
    have hname : object.name = name := (h.named hobject).1
    rw [hname]
    exact hobject
  obtain ⟨config, registry, _, hschema⟩ := h
  obtain ⟨_, _, hquery, hmutation⟩ := ofRegistry_eq_ok_iff.mp hschema
  refine ⟨hown (root_eq_ok_iff.mp hquery), fun mutation hmem => ?_⟩
  rcases mutationRoot_eq_ok_iff.mp hmutation with ⟨_, hnone⟩ | ⟨name, object, _, hobject, hsome⟩
  · rw [hnone] at hmem
    cases hmem
  · rw [hsome] at hmem
    cases hmem
    exact hown hobject

theorem Published.rootNames_valid (h : schema.Published) :
    isValidName schema.rootNames.1 = true ∧
      ∀ name ∈ schema.rootNames.2, isValidName name = true := by
  obtain ⟨hquery, hmutation⟩ := h.roots
  refine ⟨(h.named hquery).2, fun name hname => ?_⟩
  obtain ⟨mutation, hmem, hname⟩ := Option.map_eq_some_iff.mp hname
  subst hname
  exact (h.named (hmutation mutation hmem)).2

end Schema

/-! ## The start of the text -/

namespace Sdl

variable {schema other : Schema}

/-- The types that are printed. -/
def printedTypes (schema : Schema) : List TypeDefinition :=
  schema.types.values.filter fun definition => !isBuiltinScalar definition.name

/-- The roots have the names that go without saying. -/
def UsualRoots (names : String × Option String) : Prop :=
  names.1 = "Query" ∧ (names.2 = none ∨ names.2 = some "Mutation")

theorem usual_iff {names : String × Option String} :
    UsualRoots names ↔ names.1 = "Query" ∧ names.2.all (· == "Mutation") = true := by
  unfold UsualRoots
  cases names.2 with
  | none => simp
  | some name => simp

theorem roots_of_usual (h : UsualRoots schema.rootNames) : roots schema = none :=
  if_pos (usual_iff.mp h)

theorem roots_of_unusual (h : ¬ UsualRoots schema.rootNames) :
    roots schema = some (rootsBlock schema.rootNames.1 schema.rootNames.2) :=
  if_neg fun husual => h (usual_iff.mpr husual)

/-- Without a schema block the text is that of the types, of which there is one. -/
theorem text_of_usual (hs : schema.Published) (h : UsualRoots schema.rootNames) :
    printedTypes schema ≠ [] ∧
      Sdl.schema schema = joinWith "\n\n" ((printedTypes schema).map Sdl.type) := by
  have hquery : TypeDefinition.object schema.query ∈ printedTypes schema := by
    refine List.mem_filter.mpr ⟨?_, ?_⟩
    · exact Keyed.mem_values_iff.mpr ⟨_, hs.roots.1⟩
    · have hname : (TypeDefinition.object schema.query).name = "Query" := h.1
      rw [hname]
      decide
  refine ⟨List.ne_nil_of_mem hquery, ?_⟩
  rw [Sdl.schema, blocks, roots_of_usual h, ← printedTypes, Option.toList_none, List.nil_append]

theorem text_of_unusual (h : ¬ UsualRoots schema.rootNames) :
    Sdl.schema schema = rootsBlock schema.rootNames.1 schema.rootNames.2 ++
      marked "\n\n" Sdl.type (printedTypes schema) := by
  rw [Sdl.schema, blocks, roots_of_unusual h, ← printedTypes, Option.toList_some,
    List.singleton_append, joinWith_cons, marked_map]

/-- The texts of two schemas of which one has roots of the usual names differ, if the other
has not. -/
theorem text_ne_of_usual (hs : schema.Published) (h : UsualRoots schema.rootNames)
    (ho : ¬ UsualRoots other.rootNames) : Sdl.schema schema ≠ Sdl.schema other := by
  intro htext
  obtain ⟨hprinted, htypes⟩ := text_of_usual hs h
  obtain ⟨first, rest, hfirst⟩ := List.exists_cons_of_ne_nil hprinted
  rw [htypes, hfirst, joinWith_map_cons, text_of_unusual ho] at htext
  have hchars := congrArg String.toList htext
  rw [String.toList_append, String.toList_append] at hchars
  exact type_ne_rootsBlock first _ _ _ _ hchars

/-- Of two schemas with one text both have roots of the usual names, or neither has and the
names are the same. -/
theorem rootNames_of_text (hs : schema.Published) (ho : other.Published)
    (h : Sdl.schema schema = Sdl.schema other) :
    (UsualRoots schema.rootNames ∧ UsualRoots other.rootNames) ∨
      ¬ UsualRoots schema.rootNames ∧ schema.rootNames = other.rootNames := by
  by_cases hschema : UsualRoots schema.rootNames
  · by_cases hother : UsualRoots other.rootNames
    · exact Or.inl ⟨hschema, hother⟩
    · exact absurd h (text_ne_of_usual hs hschema hother)
  · by_cases hother : UsualRoots other.rootNames
    · exact absurd h.symm (text_ne_of_usual ho hother hschema)
    · refine Or.inr ⟨hschema, ?_⟩
      have htext := congrArg String.toList h
      rw [text_of_unusual hschema, text_of_unusual hother, String.toList_append,
        String.toList_append] at htext
      exact (tells_rootsBlock hs.rootNames_valid ho.rootNames_valid trivial trivial htext).1

end Sdl

/-- Published schemas with one text have query roots of one name, and mutation roots of one
name or none; but beside a query root `Query`, a mutation root `Mutation` is not told from
none. -/
theorem sdl_determines_roots {schema other : Schema} (hs : schema.Published) (ho : other.Published)
    (h : Sdl.schema schema = Sdl.schema other) :
    schema.query.name = other.query.name ∧
      (schema.mutation.map ObjectType.name = other.mutation.map ObjectType.name ∨
        schema.query.name = "Query" ∧
          (schema.mutation = none ∧ other.mutation.map ObjectType.name = some "Mutation" ∨
            schema.mutation.map ObjectType.name = some "Mutation" ∧ other.mutation = none)) := by
  rcases Sdl.rootNames_of_text hs ho h with ⟨hschema, hother⟩ | ⟨_, hsame⟩
  · obtain ⟨hquery, hmutation⟩ := hschema
    obtain ⟨hotherQuery, hotherMutation⟩ := hother
    refine ⟨hquery.trans hotherQuery.symm, ?_⟩
    rcases hmutation with hnone | hsome
    · rcases hotherMutation with hotherNone | hotherSome
      · exact Or.inl (hnone.trans hotherNone.symm)
      · exact Or.inr ⟨hquery, Or.inl ⟨Option.map_eq_none_iff.mp hnone, hotherSome⟩⟩
    · rcases hotherMutation with hotherNone | hotherSome
      · exact Or.inr ⟨hquery, Or.inr ⟨hsome, Option.map_eq_none_iff.mp hotherNone⟩⟩
      · exact Or.inl (hsome.trans hotherSome.symm)
  · exact ⟨congrArg Prod.fst hsame, Or.inl (congrArg Prod.snd hsame)⟩

/-- An object with the usual name of a mutation root, which may be the root or not. -/
def workshop : TypeRegistry :=
  TypeRegistry.standard.run [
    .object { name := "Query", fields := .now (.ofList [("tools", { type := .named "Int" })]) },
    .object { name := "Mutation", fields := .now (.ofList [("repair", { type := .named "ID" })]) }]

def workshopText : String :=
  "type Query \x7b\n  tools: Int\n\x7d\n\ntype Mutation \x7b\n  repair: ID\n\x7d"

theorem workshop_published (mutation : Option String)
    (h : mutation = none ∨ mutation = some "Mutation") :
    ∃ schema : Schema, schema.Published ∧ Sdl.schema schema = workshopText ∧
      schema.rootNames = ("Query", mutation) := by
  have hoption : ((Schema.ofRegistry { mutation } workshop).toOption.map fun schema =>
      (Sdl.schema schema, schema.rootNames)) = some (workshopText, "Query", mutation) := by
    rcases h with rfl | rfl
    · decide +kernel
    · decide +kernel
  obtain ⟨schema, hschema, hpair⟩ := Option.map_eq_some_iff.mp hoption
  obtain ⟨htext, hnames⟩ := Prod.mk.inj hpair
  exact ⟨schema, ⟨_, workshop, TypeRegistry.Reachable.standard.run _,
    toOption_eq_some_iff.mp hschema⟩, htext, hnames⟩

theorem workshop_determines_roots :
    ∃ schema other : Schema, schema.Published ∧ other.Published ∧
      Sdl.schema schema = Sdl.schema other ∧ schema.query.name = other.query.name ∧
      (schema.mutation.map ObjectType.name = other.mutation.map ObjectType.name ∨
        schema.query.name = "Query" ∧
          (schema.mutation = none ∧ other.mutation.map ObjectType.name = some "Mutation" ∨
            schema.mutation.map ObjectType.name = some "Mutation" ∧ other.mutation = none)) := by
  obtain ⟨schema, hs, htext, _⟩ := workshop_published none (Or.inl rfl)
  obtain ⟨other, ho, hotherText, _⟩ := workshop_published (some "Mutation") (Or.inr rfl)
  have h := htext.trans hotherText.symm
  exact ⟨schema, other, hs, ho, h, sdl_determines_roots hs ho h⟩

/-- One text for two schemas, of which only one has a mutation root. -/
theorem workshop_roots_untold :
    ∃ schema other : Schema, schema.Published ∧ other.Published ∧
      Sdl.schema schema = Sdl.schema other ∧
      schema.mutation = none ∧ other.mutation.map ObjectType.name = some "Mutation" := by
  obtain ⟨schema, hs, htext, hnames⟩ := workshop_published none (Or.inl rfl)
  obtain ⟨other, ho, hotherText, hotherNames⟩ := workshop_published (some "Mutation") (Or.inr rfl)
  exact ⟨schema, other, hs, ho, htext.trans hotherText.symm,
    Option.map_eq_none_iff.mp (congrArg Prod.snd hnames), congrArg Prod.snd hotherNames⟩

end GraphSchema
