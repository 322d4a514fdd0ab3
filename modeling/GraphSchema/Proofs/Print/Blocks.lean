/-
  GraphSchema.Proofs.Print.Blocks — the blocks of a printed schema are read in one way only.

  A block starts with a word: the keyword of a type, or that of the schema block; a block
  with a description starts with a quote. So a block of one sort is not taken for one of
  another (`type_ne_roots`), and what a legible type prints tells its kind and name and then
  its parts, whatever block comes next (`tells_body`). The schema block tells the names of
  the roots, whatever follows (`tells_rootsBlock`).
-/

import GraphSchema.Proofs.Print.Parts

namespace GraphSchema

/-! ## Signatures -/

/-- What a legible type prints; a list that its kind has not is empty. -/
structure TypeSignature where
  kind : TypeKind
  name : String
  interfaces : List String := []
  fields : List FieldSignature := []
  members : List String := []
  values : List String := []
  inputFields : List (String × TypeRef) := []
  deriving DecidableEq, Repr

namespace TypeDefinition

def signature : TypeDefinition → TypeSignature
  | scalar type => { kind := .scalar, name := type.name }
  | object type =>
    { kind := .object, name := type.name, interfaces := type.interfaces
      fields := type.fields.values.map FieldDefinition.signature }
  | interface type =>
    { kind := .interface, name := type.name
      fields := type.fields.values.map FieldDefinition.signature }
  | union type => { kind := .union, name := type.name, members := type.types.map ObjectType.name }
  | enum type => { kind := .enum, name := type.name, values := type.values.map EnumValue.name }
  | inputObject type =>
    { kind := .inputObject, name := type.name
      inputFields := type.fields.values.map InputField.signature }

/-- The parts of a type are legible, and a union has a member. -/
def LegibleParts : TypeDefinition → Prop
  | scalar _ => True
  | object type => (∀ name ∈ type.interfaces, isValidName name = true) ∧
      ∀ field ∈ type.fields.values, field.Legible
  | interface type => ∀ field ∈ type.fields.values, field.Legible
  | union type => type.types ≠ [] ∧ ∀ member ∈ type.types, isValidName member.name = true
  | enum type => ∀ value ∈ type.values, value.Legible
  | inputObject type => ∀ field ∈ type.fields.values, field.Legible

structure Legible (type : TypeDefinition) : Prop where
  name : isValidName type.name = true
  parts : type.LegibleParts

/-! ## Types -/

def keyword : TypeDefinition → String
  | scalar _ => "scalar"
  | object _ => "type"
  | interface _ => "interface"
  | union _ => "union"
  | enum _ => "enum"
  | inputObject _ => "input"

/-- What stands behind the name. -/
def tail : TypeDefinition → String
  | scalar _ => ""
  | object type =>
    Sdl.implementsClause type.interfaces ++ " " ++ Sdl.braced (type.fields.values.map Sdl.field)
  | interface type => " " ++ Sdl.braced (type.fields.values.map Sdl.field)
  | union type => " = " ++ joinWith " | " (type.types.map ObjectType.name)
  | enum type => " " ++ Sdl.braced (type.values.map Sdl.enumValue)
  | inputObject type => " " ++ Sdl.braced (type.fields.values.map Sdl.inputField)

theorem toList_tail_object (object : ObjectType) :
    (tail (.object object)).toList = (Sdl.implementsClause object.interfaces).toList ++
      (" " ++ Sdl.braced (object.fields.values.map Sdl.field)).toList := by
  simp [tail]

theorem toList_body (type : TypeDefinition) :
    (Sdl.body type).toList =
      type.keyword.toList ++ ([' '] ++ (type.name.toList ++ type.tail.toList)) := by
  cases type <;> simp [Sdl.body, keyword, name, tail]

theorem keyword_valid (type : TypeDefinition) : isValidName type.keyword = true := by
  have hwords : ∀ word ∈ ["scalar", "type", "interface", "union", "enum", "input"],
      isValidName word = true := by decide
  apply hwords
  cases type <;> simp [keyword]

theorem kind_eq_of_keyword_eq {type other : TypeDefinition} (h : type.keyword = other.keyword) :
    type.kind = other.kind := by
  cases type <;> cases other <;> first | rfl | simp [keyword] at h

/-- Another block comes, or the text ends. -/
def EndsBlock (x : List Char) : Prop := x = [] ∨ ['\n', '\n'] <+: x

theorem EndsBlock.stopsAt {x : List Char} (h : EndsBlock x) : StopsAt isNameRest x := by
  rcases h with rfl | h
  · exact stopsAt_nil _
  · exact stopsAt_of_prefix h (by decide)

/-- After the name of a type comes a blank or the end of its block. -/
theorem stopsAt_tail (type : TypeDefinition) {x : List Char} (hx : EndsBlock x) :
    StopsAt isNameRest (type.tail.toList ++ x) := by
  have hblank : isNameRest ' ' = false := by decide
  cases type with
  | scalar _ => simpa [tail] using hx.stopsAt
  | object type =>
    cases hinterfaces : type.interfaces with
    | nil => simp [tail, hinterfaces, Sdl.implementsClause, hblank]
    | cons _ _ => simp [tail, hinterfaces, Sdl.implementsClause, hblank]
  | interface _ => simp [tail, hblank]
  | union _ => simp [tail, hblank]
  | enum _ => simp [tail, hblank]
  | inputObject _ => simp [tail, hblank]

/-- Values that are printed on lines of their own between braces. -/
theorem tells_lines {α β : Type} {valid : α → Prop} {print line : α → String} {shape : α → β}
    (h : Tells valid line shape fun _ => True) (hprint : ∀ a, valid a → print a = "  " ++ line a) :
    Tells (fun as => ∀ a ∈ as, valid a) (fun as => " " ++ Sdl.braced (as.map print))
      (List.map shape) fun _ => True := by
  intro as bs x y has hbs hx hy htext
  have hlines : ∀ as : List α, (∀ a ∈ as, valid a) →
      as.map print = as.map fun a => "  " ++ line a :=
    fun as has => List.map_congr_left fun a ha => hprint a (has a ha)
  simp only [hlines as has, hlines bs hbs, String.toList_append, List.append_assoc,
    List.append_cancel_left_eq] at htext
  exact tells_braced h has hbs hx hy htext

theorem prefix_braced (lines : List String) (x : List Char) :
    [' ', '{'] <+: (" " ++ Sdl.braced lines).toList ++ x := by
  simp [Sdl.braced]

theorem tells_fields :
    Tells (fun fields => ∀ field ∈ fields, field.Legible)
      (fun fields => " " ++ Sdl.braced (fields.map Sdl.field)) (List.map FieldDefinition.signature)
      fun _ => True :=
  tells_lines FieldDefinition.tells_line fun _ h => h.printed

theorem tells_members :
    Tells (fun members => members ≠ [] ∧ ∀ member ∈ members, isValidName member.name = true)
      (fun members => joinWith " | " (members.map ObjectType.name)) (List.map ObjectType.name)
      EndsBlock := by
  refine tells_joined_names ObjectType.name (fun x hx => ?_) (fun _ hx => hx.stopsAt) fun x hx => ?_
  · exact stopsAt_of_prefix hx (by decide)
  · rcases hx with rfl | ⟨rest, rfl⟩
    · simp
    · simp

/-- Types of one kind and one name are told by what stands behind the name. -/
theorem tells_tail {type other : TypeDefinition} {x y : List Char} (htype : type.LegibleParts)
    (hother : other.LegibleParts) (hkind : type.kind = other.kind) (hname : type.name = other.name)
    (hx : EndsBlock x) (hy : EndsBlock y)
    (htext : type.tail.toList ++ x = other.tail.toList ++ y) :
    type.signature = other.signature ∧ x = y := by
  cases type with
  | scalar scalar =>
    cases other with
    | scalar _ => exact ⟨congrArg (TypeSignature.mk .scalar · [] [] [] [] []) hname, htext⟩
    | _ => cases hkind
  | object object =>
    cases other with
    | object otherObject =>
      rw [toList_tail_object, toList_tail_object, List.append_assoc, List.append_assoc] at htext
      obtain ⟨hinterfaces, htext⟩ := tells_implementsClause htype.1 hother.1
        (prefix_braced (object.fields.values.map Sdl.field) x)
        (prefix_braced (otherObject.fields.values.map Sdl.field) y) htext
      obtain ⟨hfields, hxy⟩ := tells_fields htype.2 hother.2 trivial trivial htext
      have hname : object.name = otherObject.name := hname
      rw [List.map_id, List.map_id] at hinterfaces
      exact ⟨by simp only [signature, hname, hinterfaces, hfields], hxy⟩
    | _ => cases hkind
  | interface interface =>
    cases other with
    | interface otherInterface =>
      obtain ⟨hfields, hxy⟩ := tells_fields htype hother trivial trivial htext
      have hname : interface.name = otherInterface.name := hname
      exact ⟨by simp only [signature, hname, hfields], hxy⟩
    | _ => cases hkind
  | union union =>
    cases other with
    | union otherUnion =>
      simp only [tail, String.toList_append, List.append_assoc, List.append_cancel_left_eq] at htext
      obtain ⟨hmembers, hxy⟩ := tells_members htype hother hx hy htext
      have hname : union.name = otherUnion.name := hname
      exact ⟨by simp only [signature, hname, hmembers], hxy⟩
    | _ => cases hkind
  | enum enum =>
    cases other with
    | enum otherEnum =>
      obtain ⟨hvalues, hxy⟩ := tells_lines EnumValue.tells_line (fun _ h => h.printed) htype hother
        trivial trivial htext
      have hname : enum.name = otherEnum.name := hname
      exact ⟨by simp only [signature, hname, hvalues], hxy⟩
    | _ => cases hkind
  | inputObject input =>
    cases other with
    | inputObject otherInput =>
      obtain ⟨hfields, hxy⟩ := tells_lines InputField.tells_line (fun _ h => h.printed) htype hother
        trivial trivial htext
      have hname : input.name = otherInput.name := hname
      exact ⟨by simp only [signature, hname, hfields], hxy⟩
    | _ => cases hkind

/-- What a legible type prints tells its signature, whatever block comes next. -/
theorem tells_body : Tells Legible Sdl.body signature EndsBlock := by
  intro a b x y ha hb hx hy htext
  have hblank : ∀ rest, StopsAt isNameRest ([' '] ++ rest) := fun _ => stopsAt_cons.mpr (by decide)
  simp only [toList_body, List.append_assoc] at htext
  obtain ⟨hkeyword, htext⟩ :=
    tells_name a.keyword_valid b.keyword_valid (hblank _) (hblank _) htext
  obtain ⟨hname, htext⟩ := tells_name ha.name hb.name (a.stopsAt_tail hx) (b.stopsAt_tail hy)
    (List.append_cancel_left htext)
  exact tells_tail ha.parts hb.parts (kind_eq_of_keyword_eq hkeyword) hname hx hy htext

end TypeDefinition

/-! ## The schema block -/

namespace Sdl

def mutationLine : Option String → String
  | none => ""
  | some name => rootLine "mutation" name

/-- The schema block of roots with these names. -/
def rootsBlock (query : String) (mutation : Option String) : String :=
  "schema " ++ braced (rootLine "query" query :: mutation.toList.map (rootLine "mutation"))

theorem toList_rootsBlock (query : String) (mutation : Option String) :
    (rootsBlock query mutation).toList = "schema".toList ++ (" \x7b\n  query: ".toList ++
      (query.toList ++ (['\n'] ++ ((mutationLine mutation).toList ++ ['}'])))) := by
  cases mutation with
  | none => simp [rootsBlock, braced, rootLine, mutationLine]
  | some name => simp [rootsBlock, braced, rootLine, mutationLine]

/-- The line of a mutation root is told, also from none, before the closing brace. -/
theorem tells_mutationLine :
    Tells (fun mutation : Option String => ∀ name ∈ mutation, isValidName name = true)
      mutationLine id fun x => ['}'] <+: x := by
  have hline : ∀ name : String, (rootLine "mutation" name).toList =
      "  mutation: ".toList ++ (name.toList ++ ['\n']) := fun name => by simp [rootLine]
  intro a b x y ha hb hx hy htext
  cases a with
  | none =>
    cases b with
    | none => exact ⟨rfl, htext⟩
    | some other =>
      obtain ⟨rest, rfl⟩ := hx
      simp [mutationLine, hline] at htext
  | some name =>
    cases b with
    | none =>
      obtain ⟨rest, rfl⟩ := hy
      simp [mutationLine, hline] at htext
    | some other =>
      simp only [mutationLine, hline, List.append_assoc, List.append_cancel_left_eq] at htext
      obtain ⟨hname, hxy⟩ := tells_name (ha name rfl) (hb other rfl) (stopsAt_lineEnd x)
        (stopsAt_lineEnd y) htext
      exact ⟨congrArg some hname, List.append_cancel_left hxy⟩

theorem tells_rootsBlock :
    Tells (fun names : String × Option String =>
        isValidName names.1 = true ∧ ∀ name ∈ names.2, isValidName name = true)
      (fun names => rootsBlock names.1 names.2) id fun _ => True := by
  intro a b x y ha hb _ _ htext
  simp only [toList_rootsBlock, List.append_assoc, List.append_cancel_left_eq] at htext
  obtain ⟨hquery, htext⟩ := tells_name ha.1 hb.1 (stopsAt_lineEnd _) (stopsAt_lineEnd _) htext
  obtain ⟨hmutation, hxy⟩ := tells_mutationLine ha.2 hb.2 (List.prefix_append _ _)
    (List.prefix_append _ _) (List.append_cancel_left htext)
  exact ⟨Prod.ext hquery hmutation, List.append_cancel_left hxy⟩

theorem head?_description (text : String) :
    (description "" (some text)).toList.head? = some '"' := by
  simp only [description]
  split
  · simp [block, tripleQuote]
  · simp [quoted, Quoted.encode]

/-- A type is not taken for a schema block, whatever it prints besides. -/
theorem type_ne_rootsBlock (definition : TypeDefinition) (query : String) (mutation : Option String)
    (x y : List Char) :
    (Sdl.type definition).toList ++ x ≠ (rootsBlock query mutation).toList ++ y := by
  intro htext
  rw [Sdl.type, String.toList_append, toList_rootsBlock, List.append_assoc] at htext
  cases hdescription : definition.description with
  | none =>
    have hblank : isNameRest ' ' = false := by decide
    have hschema : isValidName "schema" = true := by decide
    rw [hdescription, TypeDefinition.toList_body] at htext
    simp only [description, String.toList_empty, List.nil_append, List.append_assoc] at htext
    obtain ⟨hkeyword, _⟩ := tells_name definition.keyword_valid hschema (by simp [hblank])
      (by simp [hblank]) htext
    cases definition <;> simp [TypeDefinition.keyword] at hkeyword
  | some text =>
    have hhead := congrArg List.head? htext
    rw [hdescription, List.head?_append, head?_description] at hhead
    simp at hhead

end Sdl

end GraphSchema
