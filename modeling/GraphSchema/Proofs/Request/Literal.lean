/-
  GraphSchema.Proofs.Request.Literal — which literals have a value, and which value.

  A literal is open when a variable, or a floating number that is not finite, stands
  somewhere inside it. What stands there is found by its place alone: an entry of an
  object counts although a later entry of its name covers it. An open literal has no
  value (`Open.toJson?_eq_none`), since the lists below it are converted as a whole or
  not at all.

  Any other literal has the value that mirrors it (`Mirrors`): an array has the items of the
  list in turn, an object has one member for each name and mirrors the last entry of that
  name. The relation says nothing of how a literal is converted; it leaves one value for each
  literal (`Mirrors.unique`).
  - `toJson?_faithful`: no value exactly if the literal is open, else the one that mirrors it,
    wherever in a document the literal and its parts stood.
  - `palette_moved`: names repeated at two depths, in two places of a document.
-/

import GraphSchema.Proofs.Json.Collected
import GraphSchema.Request.Literal

namespace GraphSchema.Literal

/-- A variable, or a number that is not finite, stands somewhere inside. -/
inductive Open : Literal → Prop
  | var (name : Name) : Open (.var name)
  | float {value : Binary64} (span : Span) : value.finite? = none → Open (.float value span)
  | item {item : Literal} {items : List Literal} (span : Span) :
      item ∈ items → Open item → Open (.list items span)
  | entry {name : Name} {item : Literal} {entries : List (Name × Literal)} (span : Span) :
      (name, item) ∈ entries → Open item → Open (.object entries span)

theorem itemsToJson?_eq_none {item : Literal} {items : List Literal} (h : item ∈ items)
    (none : item.toJson? = none) : itemsToJson? items = .none := by
  induction items with
  | nil => cases h
  | cons first rest ih =>
    simp only [itemsToJson?]
    cases h with
    | head => simp [none]
    | tail _ later => simp [ih later]

theorem entriesToJson?_eq_none {name : Name} {item : Literal} {entries : List (Name × Literal)}
    (h : (name, item) ∈ entries) (none : item.toJson? = none) :
    entriesToJson? entries = .none := by
  induction entries with
  | nil => cases h
  | cons first rest ih =>
    obtain ⟨key, value⟩ := first
    simp only [entriesToJson?]
    cases h with
    | head => simp [none]
    | tail _ later => simp [ih later]

theorem Open.toJson?_eq_none {literal : Literal} (h : literal.Open) : literal.toJson? = none := by
  induction h with
  | var name => rfl
  | float span infinite => simp [toJson?, infinite]
  | item span member _ ih => simp [toJson?, itemsToJson?_eq_none member ih]
  | entry span member _ ih => simp [toJson?, entriesToJson?_eq_none member ih]

/-- A literal with a value is not open. -/
theorem not_open_of_toJson? {literal : Literal} {value : Json}
    (h : literal.toJson? = some value) : ¬ literal.Open := by
  intro inside
  rw [inside.toJson?_eq_none] at h
  cases h

/-! ## Induction on a literal -/

/-- The literal has neither items nor entries. -/
def isLeaf : Literal → Bool
  | list _ _ | object _ _ => false
  | _ => true

theorem sizeOf_item_lt {item : Literal} {items : List Literal} {span : Span} (h : item ∈ items) :
    sizeOf item < sizeOf (list items span) := by
  have := List.sizeOf_lt_of_mem h
  rw [list.sizeOf_spec]
  omega

theorem sizeOf_entry_lt {name : Name} {item : Literal} {entries : List (Name × Literal)}
    {span : Span} (h : (name, item) ∈ entries) :
    sizeOf item < sizeOf (object entries span) := by
  have := List.sizeOf_lt_of_mem h
  rw [object.sizeOf_spec]
  rw [Prod.mk.sizeOf_spec] at this
  omega

/-- From the items to the list, from the entries to the object. -/
@[elab_as_elim]
theorem inductionOn {motive : Literal → Prop}
    (leaf : ∀ literal, literal.isLeaf = true → motive literal)
    (list : ∀ items span, (∀ item ∈ items, motive item) → motive (.list items span))
    (object : ∀ entries span, (∀ name item, (name, item) ∈ entries → motive item) →
      motive (.object entries span)) (literal : Literal) : motive literal :=
  match literal with
  | .list items span => list items span fun item _ => inductionOn leaf list object item
  | .object entries span => object entries span fun _ item _ => inductionOn leaf list object item
  | .var _ => leaf _ rfl
  | .int _ _ => leaf _ rfl
  | .float _ _ => leaf _ rfl
  | .string _ _ => leaf _ rfl
  | .boolean _ _ => leaf _ rfl
  | .null _ => leaf _ rfl
  | .enum _ => leaf _ rfl
termination_by sizeOf literal
decreasing_by
  · exact sizeOf_item_lt ‹_›
  · exact sizeOf_entry_lt ‹_›

/-! ## The value that mirrors a literal -/

/-- The entries of an object under their names, wherever these stood. -/
def named (entries : List (Name × Literal)) : List (String × Literal) :=
  entries.map fun entry => (entry.1.value, entry.2)

inductive Mirrors : Literal → Json → Prop
  | int (value : Int64) (span : Span) : Mirrors (.int value span) (.int value.toInt)
  | float (value : Double) (span : Span) : Mirrors (.float (.finite value) span) (.float value)
  | string (value : String) (span : Span) : Mirrors (.string value span) (.string value)
  | boolean (value : Bool) (span : Span) : Mirrors (.boolean value span) (.bool value)
  | null (span : Span) : Mirrors (.null span) .null
  | enum (name : Name) : Mirrors (.enum name) (.string name.value)
  | list {items : List Literal} {values : List Json} (span : Span) :
      List.Forall₂ Mirrors items values → Mirrors (.list items span) (.array values)
  /-- Sorted members under the names of the entries; each mirrors the last entry of its name. -/
  | object {entries : List (Name × Literal)} {members : List (String × Json)} (span : Span) :
      members.Pairwise (fun x y => x.1 < y.1) →
      (∀ name, name ∈ members.map Prod.fst ↔ name ∈ (named entries).map Prod.fst) →
      (∀ name item value, (named entries).reverse.lookup name = some item →
        members.lookup name = some value → Mirrors item value) →
      Mirrors (.object entries span) (.object members)

theorem mirrors_object_iff {entries : List (Name × Literal)} {members : List (String × Json)}
    {span : Span} : Mirrors (.object entries span) (.object members) ↔
      Json.Collects Mirrors (named entries) members := by
  constructor
  · intro h
    cases h with
    | object _ hincreasing hnames hvalues => exact ⟨hincreasing, hnames, hvalues⟩
  · exact fun h => .object span h.increasing h.names h.values

theorem Mirrors.unique {literal : Literal} {value other : Json} (h : literal.Mirrors value)
    (hother : literal.Mirrors other) : value = other := by
  induction literal using inductionOn generalizing value other with
  | leaf literal hleaf =>
    cases h with
    | list _ _ => cases hleaf
    | object _ _ _ _ => cases hleaf
    | _ =>
      cases hother
      rfl
  | list items span ih =>
    cases h with
    | list _ hvalues =>
      cases hother with
      | list _ hothers =>
        exact congrArg Json.array
          (eq_of_forall₂ (fun item hitem _ _ => ih item hitem) hvalues hothers)
  | object entries span ih =>
    have hunique : ∀ entry ∈ named entries, ∀ value other,
        entry.2.Mirrors value → entry.2.Mirrors other → value = other := by
      intro entry hentry _ _
      obtain ⟨place, hplace, rfl⟩ := List.mem_map.mp hentry
      exact ih place.1 place.2 hplace
    cases value with
    | object members =>
      cases other with
      | object others =>
        exact congrArg Json.object
          ((mirrors_object_iff.mp h).unique hunique (mirrors_object_iff.mp hother))
      | _ => cases hother
    | _ => cases h

/-! ## Conversion -/

theorem itemsToJson?_of_forall₂ {items : List Literal} {values : List Json}
    (h : List.Forall₂ (fun item value => item.toJson? = some value) items values) :
    itemsToJson? items = some values := by
  induction h with
  | nil => rfl
  | cons hitem _ ih => simp only [itemsToJson?, hitem, ih]

theorem entriesToJson?_of_pairs {entries : List (Name × Literal)} {members : List (String × Json)}
    (h : Json.Pairs (fun item value => item.toJson? = some value) (named entries) members) :
    entriesToJson? entries = some members := by
  induction entries generalizing members with
  | nil =>
    cases h
    rfl
  | cons entry rest ih =>
    obtain ⟨name, item⟩ := entry
    cases h with
    | @cons _ member _ others hfirst hrest =>
      have hname : member.1 = name.value := hfirst.1
      have hitem : item.toJson? = some member.2 := hfirst.2
      simp only [entriesToJson?, hitem, ih hrest, ← hname]

/-- A literal that is not open is converted, and its value mirrors it. -/
theorem exists_mirrors {literal : Literal} (h : ¬ literal.Open) :
    ∃ value, literal.toJson? = some value ∧ literal.Mirrors value := by
  induction literal using inductionOn with
  | leaf literal hleaf =>
    cases literal with
    | var name => exact absurd (.var name) h
    | int value span => exact ⟨_, rfl, .int value span⟩
    | float value span =>
      cases value with
      | finite value => exact ⟨_, rfl, .float value span⟩
      | infinite _ => exact absurd (.float span rfl) h
      | nan => exact absurd (.float span rfl) h
    | string value span => exact ⟨_, rfl, .string value span⟩
    | boolean value span => exact ⟨_, rfl, .boolean value span⟩
    | null span => exact ⟨_, rfl, .null span⟩
    | enum name => exact ⟨_, rfl, .enum name⟩
    | list _ _ => cases hleaf
    | object _ _ => cases hleaf
  | list items span ih =>
    obtain ⟨values, hvalues⟩ := exists_forall₂ fun item hitem =>
      ih item hitem fun hopen => h (.item span hitem hopen)
    refine ⟨.array values, ?_, .list span (hvalues.imp fun _ _ hvalue => hvalue.2)⟩
    rw [toJson?, itemsToJson?_of_forall₂ (hvalues.imp fun _ _ hvalue => hvalue.1)]
    rfl
  | object entries span ih =>
    have heach : ∀ entry ∈ named entries, ∃ value,
        entry.2.toJson? = some value ∧ entry.2.Mirrors value := by
      intro entry hentry
      obtain ⟨place, hplace, rfl⟩ := List.mem_map.mp hentry
      exact ih place.1 place.2 hplace fun hopen => h (.entry span hplace hopen)
    obtain ⟨members, hmembers⟩ := Json.exists_pairs
      (R := fun (item : Literal) value => item.toJson? = some value ∧ item.Mirrors value) heach
    have hconverted : entriesToJson? entries = some members :=
      entriesToJson?_of_pairs (hmembers.imp fun _ _ hvalue => hvalue.1)
    refine ⟨Json.ofMembers members, ?_, ?_⟩
    · rw [toJson?, hconverted]
      rfl
    · exact mirrors_object_iff.mpr (hmembers.imp fun _ _ hvalue => hvalue.2).collects

theorem toJson?_eq_none_iff {literal : Literal} : literal.toJson? = none ↔ literal.Open := by
  refine ⟨fun h => ?_, Open.toJson?_eq_none⟩
  by_contra hopen
  obtain ⟨value, hvalue, _⟩ := exists_mirrors hopen
  rw [h] at hvalue
  cases hvalue

theorem toJson?_eq_some_iff {literal : Literal} {value : Json} :
    literal.toJson? = some value ↔ ¬ literal.Open ∧ literal.Mirrors value := by
  constructor
  · intro h
    have hopen := not_open_of_toJson? h
    obtain ⟨found, hfound, hmirrors⟩ := exists_mirrors hopen
    cases h.symm.trans hfound
    exact ⟨hopen, hmirrors⟩
  · intro h
    obtain ⟨found, hfound, hmirrors⟩ := exists_mirrors h.1
    rw [hfound, hmirrors.unique h.2]

/-! ## Places -/

mutual

/-- The literal with nothing said of where it and its parts stood. -/
def bare : Literal → Literal
  | var name => .var ⟨name.value, default⟩
  | int value _ => .int value default
  | float value _ => .float value default
  | string value _ => .string value default
  | boolean value _ => .boolean value default
  | null _ => .null default
  | enum name => .enum ⟨name.value, default⟩
  | list items _ => .list (bareItems items) default
  | object entries _ => .object (bareEntries entries) default

def bareItems : List Literal → List Literal
  | [] => []
  | item :: rest => item.bare :: bareItems rest

def bareEntries : List (Name × Literal) → List (Name × Literal)
  | [] => []
  | (name, item) :: rest => (⟨name.value, default⟩, item.bare) :: bareEntries rest

end

theorem toJson?_bare (literal : Literal) : literal.bare.toJson? = literal.toJson? := by
  induction literal using inductionOn with
  | leaf literal hleaf =>
    cases literal with
    | list _ _ => cases hleaf
    | object _ _ => cases hleaf
    | _ => rfl
  | list items span ih =>
    have hitems : itemsToJson? (bareItems items) = itemsToJson? items := by
      induction items with
      | nil => rfl
      | cons item rest more =>
        rw [List.forall_mem_cons] at ih
        simp only [bareItems, itemsToJson?, ih.1, more ih.2]
    simp only [bare, toJson?, hitems]
  | object entries span ih =>
    have hentries : entriesToJson? (bareEntries entries) = entriesToJson? entries := by
      induction entries with
      | nil => rfl
      | cons entry rest more =>
        obtain ⟨name, item⟩ := entry
        have hitem := ih name item (List.mem_cons_self ..)
        have hrest := more fun name item hmem => ih name item (List.mem_cons_of_mem _ hmem)
        simp only [bareEntries, entriesToJson?, hitem, hrest]
    simp only [bare, toJson?, hentries]

/-- A literal has no value exactly if it is open, and else the one that mirrors it; literals
that differ in nothing but where they and their parts stood have the same. -/
theorem toJson?_faithful (literal : Literal) :
    (literal.toJson? = none ↔ literal.Open) ∧
    (∀ value, literal.toJson? = some value ↔ ¬ literal.Open ∧ literal.Mirrors value) ∧
    ∀ other : Literal, other.bare = literal.bare → other.toJson? = literal.toJson? := by
  refine ⟨toJson?_eq_none_iff, fun _ => toJson?_eq_some_iff, fun other h => ?_⟩
  rw [← toJson?_bare other, h, toJson?_bare]

/-- Two shades, of which the second covers the first, and a list with an object inside. -/
def palette (span : Span) : Literal :=
  .object [
    (⟨"shade", span⟩, .list [.null span, .boolean true span] span),
    (⟨"depth", span⟩, .float (.finite .one) span),
    (⟨"shade", span⟩, .list [
      .enum ⟨"RED", span⟩,
      .object [(⟨"mix", span⟩, .int 3 span), (⟨"mix", span⟩, .string "" span)] span] span)] span

/-- The same names repeated at two depths, in two places of a document. -/
theorem palette_moved :
    (palette ⟨4, 9⟩).bare = (palette ⟨70, 71⟩).bare ∧
      (palette ⟨4, 9⟩).toJson? = (palette ⟨70, 71⟩).toJson? ∧
      (palette ⟨4, 9⟩).toJson? = some (.object [("depth", .float .one),
        ("shade", .array [.string "RED", .object [("mix", .string "")]])]) := by
  have hbare : (palette ⟨4, 9⟩).bare = (palette ⟨70, 71⟩).bare := rfl
  exact ⟨hbare, (toJson?_faithful (palette ⟨70, 71⟩)).2.2 _ hbare, by rfl⟩

/-- A variable counts although a later entry covers it. -/
example (name : Name) (span : Span) :
    (object [(name, .var name), (name, .null span)] span).toJson? = none := rfl

end GraphSchema.Literal
