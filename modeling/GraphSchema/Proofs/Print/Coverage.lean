/-
  GraphSchema.Proofs.Print.Coverage — which types of a schema are printed.

  The printer leaves out the types that have the name of a built-in scalar, whatever they
  are. Where the built-in scalars were registered first these names are taken, so all that
  a host registered is printed, each type as one block, in order. A registry that was
  empty at the start leaves the names free: a type that a host gives one of them is
  published and can be referred to, but it has no block (`parade_left_out`).
  - `hostTypes_printed`: what is printed, and that it is all types of the host exactly if
    none of them has the name of a built-in scalar.
-/

import Mathlib.Algebra.Order.BigOperators.Group.List
import Mathlib.Algebra.Order.Ring.Nat
import GraphSchema.Proofs.Print.Structure
import GraphSchema.Proofs.Registry.Session
import GraphSchema.Proofs.Schema.Assembly

namespace GraphSchema

/-! ## Schemas that a host makes -/

namespace Schema

/-- The schema of what a run of calls leaves of a registry. -/
def ofCalls (start : TypeRegistry) (calls : List Registration) (config : SchemaConfig) :
    Except SchemaError Schema :=
  assemble (calls.foldl Session.left start) config.options >>= ofTypes config

variable {start : TypeRegistry} {calls : List Registration} {config : SchemaConfig}
  {schema : Schema}

theorem ofCalls_eq_ofRegistry (hr : start.Reachable) (calls : List Registration)
    (config : SchemaConfig) : ofCalls start calls config = ofRegistry config (start.run calls) := by
  rw [ofCalls, Session.foldl_left_eq_run, assemble_eq_publish (hr.run calls).consistent]
  rfl

theorem published_of_calls (hr : start.Reachable) (h : ofCalls start calls config = .ok schema) :
    schema.Published :=
  ⟨config, start.run calls, hr.run calls, ofCalls_eq_ofRegistry hr calls config ▸ h⟩

/-- The types that were not there at the start, in order. -/
def hostTypes (schema : Schema) (start : TypeRegistry) : List TypeDefinition :=
  (schema.types.entries.filter fun entry => !start.contains entry.1).map Prod.snd

end Schema

/-! ## The names of built-in scalars -/

theorem TypeRegistry.contains_standard (name : String) :
    standard.contains name = isBuiltinScalar name := by
  rw [Bool.eq_iff_iff, isBuiltinScalar, List.contains_iff_mem]
  exact Keyed.contains_iff_mem_keys

theorem isBuiltinScalar_of_start {start : TypeRegistry} (h : start = .empty ∨ start = .standard)
    {name : String} (hname : start.contains name = true) : isBuiltinScalar name = true := by
  rcases h with rfl | rfl
  · cases hname
  · rwa [← TypeRegistry.contains_standard]

/-! ## The length of a text -/

theorem length_joinWith (separator : String) (texts : List String) :
    (joinWith separator texts).length =
      (texts.map fun text => text.length + separator.length).sum - separator.length := by
  induction texts with
  | nil => exact (Nat.zero_sub _).symm
  | cons first rest ih =>
    cases rest with
    | nil => simp [joinWith]
    | cons next others =>
      have hunfold : joinWith separator (first :: next :: others) =
          first ++ separator ++ joinWith separator (next :: others) := rfl
      simp only [List.map_cons, List.sum_cons] at ih ⊢
      rw [hunfold, String.length_append, String.length_append, ih]
      omega

/-- What is joined is shorter if its parts are, one with another. -/
theorem length_joinWith_lt {separator : String} {texts others : List String}
    (h : (texts.map fun text => text.length + separator.length).sum <
      (others.map fun text => text.length + separator.length).sum)
    (hlong : ∃ text ∈ others, 0 < text.length) :
    (joinWith separator texts).length < (joinWith separator others).length := by
  obtain ⟨text, htext, hpositive⟩ := hlong
  have hle : text.length + separator.length ≤
      (others.map fun text => text.length + separator.length).sum :=
    List.single_le_sum (fun _ _ => Nat.zero_le _) _ (List.mem_map.mpr ⟨text, htext, rfl⟩)
  rw [length_joinWith, length_joinWith]
  omega

/-- Leaving out an element that weighs something makes the rest weigh less. -/
theorem sum_filter_lt {α : Type} {weight : α → Nat} {keep : α → Bool} {as : List α} {a : α}
    (ha : a ∈ as) (hkeep : keep a = false) (hweight : 0 < weight a) :
    ((as.filter keep).map weight).sum < (as.map weight).sum := by
  induction as with
  | nil => cases ha
  | cons first rest ih =>
    have hle : ((rest.filter keep).map weight).sum ≤ (rest.map weight).sum :=
      (List.filter_sublist.map weight).sum_le_sum fun _ _ => Nat.zero_le _
    rcases List.mem_cons.mp ha with rfl | hrest
    · rw [List.filter_cons_of_neg (by simp [hkeep]), List.map_cons, List.sum_cons]
      omega
    · have hlt := ih hrest
      rw [List.filter_cons]
      split
      · simp only [List.map_cons, List.sum_cons]
        omega
      · simp only [List.map_cons, List.sum_cons]
        omega

/-- Leaving out one of the values whose texts are joined makes the whole shorter. -/
theorem length_joinWith_filter_lt {α : Type} (separator : String) (before : List String)
    {print : α → String} {keep : α → Bool} {as : List α} {a : α} (ha : a ∈ as)
    (hkeep : keep a = false) (hprint : 0 < (print a).length) :
    (joinWith separator (before ++ (as.filter keep).map print)).length <
      (joinWith separator (before ++ as.map print)).length := by
  have hlt : ((as.filter keep).map fun a => (print a).length + separator.length).sum <
      (as.map fun a => (print a).length + separator.length).sum :=
    sum_filter_lt ha hkeep (Nat.lt_of_lt_of_le hprint (Nat.le_add_right ..))
  refine length_joinWith_lt ?_ ⟨print a, ?_, hprint⟩
  · simpa [Function.comp_def] using hlt
  · exact List.mem_append_right _ (List.mem_map_of_mem ha)

namespace Sdl

theorem length_type_pos (definition : TypeDefinition) : 0 < (Sdl.type definition).length := by
  have hbody : 0 < (Sdl.body definition).length := by
    rw [← String.length_toList, TypeDefinition.toList_body]
    simp only [List.length_append, List.length_singleton]
    omega
  rw [Sdl.type, String.length_append]
  omega

end Sdl

/-! ## What is printed -/

namespace Schema

variable {start : TypeRegistry} {calls : List Registration} {config : SchemaConfig}
  {schema : Schema}

/-- Of the types of a host those are printed that have not the name of a built-in scalar. -/
theorem Published.printedTypes_eq (hs : schema.Published)
    (hstart : start = .empty ∨ start = .standard) :
    Sdl.printedTypes schema =
      (schema.hostTypes start).filter fun type => !isBuiltinScalar type.name := by
  rw [Sdl.printedTypes, hostTypes, Keyed.values, List.filter_map, List.filter_map,
    List.filter_filter]
  refine congrArg (List.map Prod.snd) (List.filter_congr fun entry hentry => ?_)
  obtain ⟨name, type⟩ := entry
  have hname : type.name = name := (hs.named (Keyed.get?_eq_some_iff.mpr hentry)).1
  cases hknown : start.contains name with
  | false => simp
  | true =>
    have hbuiltin := isBuiltinScalar_of_start hstart hknown
    simp [hname, hbuiltin]

/-- Where the built-in scalars were there at the start, all other types are a host's. -/
theorem hostTypes_standard (h : ofCalls .standard calls config = .ok schema) :
    schema.hostTypes .standard = schema.ownTypes := by
  have hs := published_of_calls .standard h
  rw [ofCalls_eq_ofRegistry .standard] at h
  rw [hostTypes, ownTypes, Keyed.values, List.filter_map]
  refine congrArg (List.map Prod.snd) (List.filter_congr fun entry hentry => ?_)
  obtain ⟨name, type⟩ := entry
  have htype : schema.type? name = some type := Keyed.get?_eq_some_iff.mpr hentry
  rw [TypeRegistry.contains_standard, Function.comp_apply]
  cases hbuiltin : isBuiltinScalar name with
  | true => simp [builtin_of_standard h htype hbuiltin]
  | false =>
    have hnot : ¬ type.IsBuiltin := fun hscalar => by
      have hsame := hscalar.isBuiltinScalar
      rw [(hs.named htype).1, hbuiltin] at hsame
      cases hsame
    simp [hnot]

/-- The text of a schema is the schema block, where there is one, and then a block for each
type of the host that has not the name of a built-in scalar. These are all types of the host
exactly if none of them has such a name. Where the built-in scalars were there at the start
none has, and the types of the host are all types but these. -/
theorem hostTypes_printed (hstart : start = .empty ∨ start = .standard)
    (h : ofCalls start calls config = .ok schema) :
    Sdl.schema schema = joinWith "\n\n" ((Sdl.roots schema).toList ++
        ((schema.hostTypes start).filter fun type => !isBuiltinScalar type.name).map Sdl.type) ∧
      (Sdl.schema schema = joinWith "\n\n"
          ((Sdl.roots schema).toList ++ (schema.hostTypes start).map Sdl.type) ↔
        ∀ type ∈ schema.hostTypes start, isBuiltinScalar type.name = false) ∧
      (start = .standard → schema.hostTypes start = schema.ownTypes ∧
        ∀ type ∈ schema.hostTypes start, isBuiltinScalar type.name = false) := by
  have hs := published_of_calls (.of_start hstart) h
  have htext : Sdl.schema schema = joinWith "\n\n" ((Sdl.roots schema).toList ++
      ((schema.hostTypes start).filter fun type => !isBuiltinScalar type.name).map Sdl.type) := by
    rw [← hs.printedTypes_eq hstart]
    rfl
  refine ⟨htext, ⟨fun hall type hmem => ?_, fun hnone => ?_⟩, fun hstandard => ?_⟩
  · by_contra hbuiltin
    have hshorter : (Sdl.schema schema).length < (joinWith "\n\n"
        ((Sdl.roots schema).toList ++ (schema.hostTypes start).map Sdl.type)).length := by
      rw [htext]
      exact length_joinWith_filter_lt _ _ hmem (by simpa using hbuiltin) (Sdl.length_type_pos type)
    rw [← hall] at hshorter
    exact Nat.lt_irrefl _ hshorter
  · rw [htext, List.filter_eq_self.mpr]
    intro type hmem
    simp [hnone type hmem]
  · subst hstandard
    refine ⟨hostTypes_standard h, fun type hmem => ?_⟩
    obtain ⟨entry, hentry, htype⟩ := List.mem_map.mp hmem
    obtain ⟨name, found⟩ := entry
    obtain ⟨hfound, hnew⟩ := List.mem_filter.mp hentry
    subst htype
    have hname : found.name = name := (hs.named (Keyed.get?_eq_some_iff.mpr hfound)).1
    rw [hname, ← TypeRegistry.contains_standard]
    simpa using hnew

/-! The floats of a parade, in a registry in which `Float` is no number. -/

def parade : List Registration := [
  .enum { name := "Float", values := .ofList [("TRUCK", {}), ("BALLOON", {})] },
  .object { name := "Query", fields := .now (.ofList [("lead", { type := .named "Float" })]) }]

def floatBlock : String := "enum Float \x7b\n  BALLOON\n  TRUCK\n\x7d"

def queryBlock : String := "type Query \x7b\n  lead: Float\n\x7d"

theorem parade_published :
    ∃ schema, ofCalls .empty parade {} = .ok schema ∧ Sdl.roots schema = none ∧
      (schema.hostTypes .empty).map Sdl.type = [floatBlock, queryBlock] ∧
      Sdl.schema schema = queryBlock := by
  have hoption : ((ofCalls .empty parade {}).toOption.map fun schema =>
      (Sdl.roots schema, (schema.hostTypes .empty).map Sdl.type, Sdl.schema schema)) =
      some (none, [floatBlock, queryBlock], queryBlock) := by
    decide +kernel
  obtain ⟨schema, hschema, htexts⟩ := Option.map_eq_some_iff.mp hoption
  obtain ⟨hroots, hrest⟩ := Prod.mk.inj htexts
  obtain ⟨hblocks, htext⟩ := Prod.mk.inj hrest
  exact ⟨schema, toOption_eq_some_iff.mp hschema, hroots, hblocks, htext⟩

theorem parade_printed :
    ∃ schema, ofCalls .empty parade {} = .ok schema ∧
      Sdl.schema schema = joinWith "\n\n" ((Sdl.roots schema).toList ++
        ((schema.hostTypes .empty).filter fun type => !isBuiltinScalar type.name).map Sdl.type) ∧
      (Sdl.schema schema = joinWith "\n\n"
          ((Sdl.roots schema).toList ++ (schema.hostTypes .empty).map Sdl.type) ↔
        ∀ type ∈ schema.hostTypes .empty, isBuiltinScalar type.name = false) := by
  obtain ⟨schema, h, _⟩ := parade_published
  obtain ⟨htext, hall, _⟩ := hostTypes_printed (Or.inl rfl) h
  exact ⟨schema, h, htext, hall⟩

/-- The enum is a type of the host and has a block, which is not printed. -/
theorem parade_left_out :
    ∃ schema, ofCalls .empty parade {} = .ok schema ∧
      (schema.hostTypes .empty).map Sdl.type = [floatBlock, queryBlock] ∧
      Sdl.schema schema ≠ joinWith "\n\n"
        ((Sdl.roots schema).toList ++ (schema.hostTypes .empty).map Sdl.type) := by
  obtain ⟨schema, h, hroots, hblocks, htext⟩ := parade_published
  refine ⟨schema, h, hblocks, ?_⟩
  rw [htext, hroots, hblocks]
  decide

end Schema

end GraphSchema
