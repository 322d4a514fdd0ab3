/-
  GraphSchema.Proofs.Print.Parts — the parts of a printed type are read in one way only.

  Names are runs of name characters, and references runs of these and of the three marks;
  whatever stands between them in print is of neither class. So a reference is told by
  its text (`display_injective`), and so are an argument list, which may be missing, a
  field, an enum value, an input field and a list of interfaces, which may be missing as
  well. Each is told of legible values: what is named has a valid name, and nothing is
  printed that is free text.
-/

import GraphSchema.Print.Sdl
import GraphSchema.Proofs.Text.Reading

namespace GraphSchema

theorem isNameRest_of_isValidName {name : String} (h : isValidName name = true) :
    ∀ c ∈ name.toList, isNameRest c = true :=
  isNameRest_of_isNameText h

/-- A name is read up to the first character that is not one of a name. -/
theorem tells_name : Tells (fun name => isValidName name = true) id id (StopsAt isNameRest) :=
  fun _ _ _ _ ha hb =>
    tells_run isNameRest (isNameRest_of_isValidName ha) (isNameRest_of_isValidName hb)

/-! ## References -/

namespace TypeRef

/-- A character of a name, or one of the marks for lists and for non-null. -/
def isDisplayed (c : Char) : Bool := isNameRest c || c == '[' || c == ']' || c == '!'

theorem isDisplayed_of_isNameRest {c : Char} (h : isNameRest c = true) : isDisplayed c = true := by
  simp [isDisplayed, h]

theorem isDisplayed_of_mem_display {type : TypeRef} (h : isValidName type.innermostName = true) :
    ∀ c ∈ type.display.toList, isDisplayed c = true := by
  induction type with
  | named name => exact fun c hc => isDisplayed_of_isNameRest (isNameRest_of_isValidName h c hc)
  | list item ih =>
    have hmarks : isDisplayed '[' = true ∧ isDisplayed ']' = true := by decide
    simpa [display, or_imp, forall_and, hmarks] using ih h
  | nonNull item ih =>
    have hmark : isDisplayed '!' = true := by decide
    simpa [display, or_imp, forall_and, hmark] using ih h

/-- A name is not the text of a marked reference. -/
theorem name_ne_display {name : String} (hname : isValidName name = true) {item : TypeRef} :
    name ≠ (list item).display ∧ name ≠ (nonNull item).display := by
  have hchars := isNameRest_of_isValidName hname
  constructor
  · intro h
    have hmark : isNameRest '[' = true := hchars '[' (by simp [h, display])
    exact absurd hmark (by decide)
  · intro h
    have hmark : isNameRest '!' = true := hchars '!' (by simp [h, display])
    exact absurd hmark (by decide)

/-- A list and a non-null reference end in different marks. -/
theorem list_display_ne_nonNull {item other : TypeRef} :
    (list item).display ≠ (nonNull other).display := by
  intro h
  have hlast := congrArg (fun text => text.toList.getLast?) h
  simp only [display, String.toList_append, List.getLast?_append] at hlast
  simp at hlast

theorem display_injective {type other : TypeRef} (htype : isValidName type.innermostName = true)
    (hother : isValidName other.innermostName = true) (h : type.display = other.display) :
    type = other := by
  -- Both texts lose the same mark; where the outermost forms differ, so do the texts at an end.
  induction type generalizing other with
  | named name =>
    cases other with
    | named _ => exact congrArg named h
    | list _ => exact absurd h (name_ne_display htype).1
    | nonNull _ => exact absurd h (name_ne_display htype).2
  | list item ih =>
    cases other with
    | named _ => exact absurd h.symm (name_ne_display hother).1
    | list _ =>
      have hitem := congrArg String.toList h
      simp only [display, String.toList_append, List.append_cancel_left_eq,
        List.append_cancel_right_eq, List.append_assoc] at hitem
      exact congrArg list (ih htype hother (String.toList_inj.mp hitem))
    | nonNull _ => exact absurd h list_display_ne_nonNull
  | nonNull item ih =>
    cases other with
    | named _ => exact absurd h.symm (name_ne_display hother).2
    | list _ => exact absurd h.symm list_display_ne_nonNull
    | nonNull _ =>
      have hitem := congrArg String.toList h
      simp only [display, String.toList_append, List.append_cancel_right_eq] at hitem
      exact congrArg nonNull (ih htype hother (String.toList_inj.mp hitem))

theorem tells_display :
    Tells (fun type : TypeRef => isValidName type.innermostName = true) display id
      (StopsAt isDisplayed) := by
  intro a b x y ha hb hx hy htext
  -- An item is not told before a non-null mark, so the whole text is read before its parts.
  obtain ⟨hsame, hxy⟩ := tells_run isDisplayed (isDisplayed_of_mem_display ha)
    (isDisplayed_of_mem_display hb) hx hy htext
  exact ⟨display_injective ha hb hsame, hxy⟩

/-- The type of a field, to the end of its line. -/
def ending (type : TypeRef) : String := ": " ++ type.display ++ "\n"

theorem toList_ending (type : TypeRef) :
    type.ending.toList = [':', ' '] ++ (type.display.toList ++ ['\n']) := by
  simp [ending]

theorem tells_ending :
    Tells (fun type : TypeRef => isValidName type.innermostName = true) ending id
      fun _ => True := by
  have hstop : ∀ rest, StopsAt isDisplayed (['\n'] ++ rest) := fun _ => stopsAt_cons.mpr (by decide)
  intro a b x y ha hb _ _ htext
  simp only [toList_ending, List.append_assoc, List.append_cancel_left_eq] at htext
  obtain ⟨htype, hxy⟩ := tells_display ha hb (hstop x) (hstop y) htext
  exact ⟨htype, List.append_cancel_left hxy⟩

end TypeRef

theorem stopsAt_colon (rest : List Char) : StopsAt isNameRest ([':', ' '] ++ rest) :=
  stopsAt_cons.mpr (by decide)

theorem stopsAt_lineEnd (rest : List Char) : StopsAt isNameRest (['\n'] ++ rest) :=
  stopsAt_cons.mpr (by decide)

theorem stopsAt_ending (type : TypeRef) (rest : List Char) :
    StopsAt isNameRest (type.ending.toList ++ rest) := by
  rw [TypeRef.toList_ending, List.append_assoc]
  exact stopsAt_colon _

/-! ## Arguments -/

/-- The name and the type, which are all that is printed of a legible argument. -/
def Argument.signature (argument : Argument) : String × TypeRef := (argument.name, argument.type)

structure Argument.Legible (argument : Argument) : Prop where
  name : isValidName argument.name = true
  type : isValidName argument.type.innermostName = true
  noDefault : argument.defaultValue = none

theorem Argument.Legible.printed {argument : Argument} (h : argument.Legible) :
    (Sdl.argument argument).toList =
      argument.name.toList ++ ([':', ' '] ++ argument.type.display.toList) := by
  simp [Sdl.argument, Sdl.defaultValue, h.noDefault]

theorem tells_argument :
    Tells Argument.Legible Sdl.argument Argument.signature (StopsAt TypeRef.isDisplayed) := by
  intro a b x y ha hb hx hy htext
  simp only [ha.printed, hb.printed, List.append_assoc] at htext
  obtain ⟨hname, htext⟩ :=
    tells_name ha.name hb.name (stopsAt_colon _) (stopsAt_colon _) htext
  obtain ⟨htype, hxy⟩ :=
    TypeRef.tells_display ha.type hb.type hx hy (List.append_cancel_left htext)
  exact ⟨Prod.ext hname htype, hxy⟩

theorem toList_arguments_cons (argument : Argument) (rest : List Argument) :
    (Sdl.arguments (argument :: rest)).toList =
      ['('] ++ ((joinWith ", " ((argument :: rest).map Sdl.argument)).toList ++ [')']) := by
  simp [Sdl.arguments]

theorem tells_joined_arguments :
    Tells (fun args => args ≠ [] ∧ ∀ argument ∈ args, argument.Legible)
      (fun args => joinWith ", " (args.map Sdl.argument)) (List.map Argument.signature)
      fun x => [')'] <+: x := by
  refine Tells.joined (tells_argument.mono fun x hx => ?_) fun x hx => ?_
  · rcases hx with hx | hx
    · exact stopsAt_of_prefix hx (by decide)
    · exact stopsAt_of_prefix hx (by decide)
  · obtain ⟨rest, rfl⟩ := hx
    simp

/-- An argument list is told, also from none, where no parenthesis follows. -/
theorem tells_arguments :
    Tells (fun args => ∀ argument ∈ args, argument.Legible) Sdl.arguments
      (List.map Argument.signature) (fun x => ¬ ['('] <+: x) := by
  have hparens : Tells (fun args => args ≠ [] ∧ ∀ argument ∈ args, argument.Legible)
      Sdl.arguments (List.map Argument.signature) (fun x => ¬ ['('] <+: x) := by
    intro as bs x y has hbs _ _ htext
    obtain ⟨a, rest, rfl⟩ := List.exists_cons_of_ne_nil has.1
    obtain ⟨b, others, rfl⟩ := List.exists_cons_of_ne_nil hbs.1
    simp only [toList_arguments_cons, List.append_assoc, List.append_cancel_left_eq] at htext
    obtain ⟨hargs, hxy⟩ := tells_joined_arguments has hbs (List.prefix_append _ _)
      (List.prefix_append _ _) htext
    exact ⟨hargs, List.append_cancel_left hxy⟩
  refine hparens.orEmpty "(" rfl (fun a as => ?_) fun x hx => hx
  rw [toList_arguments_cons]
  exact List.prefix_append _ _

/-! ## Lines -/

/-- Lines between braces are told one by one, whatever follows. -/
theorem tells_braced {α β : Type} {valid : α → Prop} {line : α → String} {shape : α → β}
    (h : Tells valid line shape fun _ => True) :
    Tells (fun as => ∀ a ∈ as, valid a) (fun as => Sdl.braced (as.map fun a => "  " ++ line a))
      (List.map shape) fun _ => True := by
  have hlines : Tells (fun as => ∀ a ∈ as, valid a) (marked "  " line) (List.map shape)
      fun x => ['}'] <+: x := by
    refine Tells.repeated (h.mono fun _ _ => trivial) fun x hx => ?_
    obtain ⟨rest, rfl⟩ := hx
    simp
  have hprinted : ∀ as, (Sdl.braced (as.map fun a => "  " ++ line a)).toList =
      ['{', '\n'] ++ ((marked "  " line as).toList ++ ['}']) := fun as => by
    simp [Sdl.braced, marked]
  intro as bs x y has hbs _ _ htext
  simp only [hprinted, List.append_assoc, List.append_cancel_left_eq] at htext
  obtain ⟨hshape, hxy⟩ :=
    hlines has hbs (List.prefix_append _ _) (List.prefix_append _ _) htext
  exact ⟨hshape, List.append_cancel_left hxy⟩

/-! ## Fields -/

structure FieldSignature where
  name : String
  type : TypeRef
  args : List (String × TypeRef)
  deriving DecidableEq, Repr

namespace FieldDefinition

def signature (field : FieldDefinition) : FieldSignature :=
  ⟨field.name, field.type, field.args.map Argument.signature⟩

structure Legible (field : FieldDefinition) : Prop where
  name : isValidName field.name = true
  type : isValidName field.type.innermostName = true
  args : ∀ argument ∈ field.args, argument.Legible
  noDescription : field.description = none
  noDeprecation : field.deprecationReason = none

/-- The line of a legible field, less its indent. -/
def line (field : FieldDefinition) : String :=
  field.name ++ Sdl.arguments field.args ++ field.type.ending

theorem Legible.printed {field : FieldDefinition} (h : field.Legible) :
    Sdl.field field = "  " ++ field.line := by
  simp [Sdl.field, line, TypeRef.ending, Sdl.description, Sdl.deprecation, h.noDescription,
    h.noDeprecation, String.append_assoc]

theorem stopsAt_arguments (args : List Argument) (type : TypeRef) (rest : List Char) :
    StopsAt isNameRest ((Sdl.arguments args).toList ++ (type.ending.toList ++ rest)) := by
  cases args with
  | nil => exact stopsAt_ending type rest
  | cons argument others =>
    rw [toList_arguments_cons]
    exact stopsAt_cons.mpr (by decide)

theorem tells_line : Tells Legible line signature fun _ => True := by
  have hparen : ∀ (type : TypeRef) (rest : List Char), ¬ ['('] <+: type.ending.toList ++ rest :=
    fun type rest => by simp [TypeRef.toList_ending]
  intro a b x y ha hb _ _ htext
  simp only [line, String.toList_append, List.append_assoc] at htext
  obtain ⟨hname, htext⟩ := tells_name ha.name hb.name (stopsAt_arguments a.args a.type x)
    (stopsAt_arguments b.args b.type y) htext
  obtain ⟨hargs, htext⟩ := tells_arguments ha.args hb.args (hparen _ _) (hparen _ _) htext
  obtain ⟨htype, hxy⟩ := TypeRef.tells_ending ha.type hb.type trivial trivial htext
  have hsame : a.signature = b.signature := by
    rw [signature, signature, FieldSignature.mk.injEq]
    exact ⟨hname, htype, hargs⟩
  exact ⟨hsame, hxy⟩

end FieldDefinition

/-! ## Input fields -/

namespace InputField

def signature (field : InputField) : String × TypeRef := (field.name, field.type)

structure Legible (field : InputField) : Prop where
  name : isValidName field.name = true
  type : isValidName field.type.innermostName = true
  noDescription : field.description = none
  noDefault : field.defaultValue = none

/-- The line of a legible input field, less its indent. -/
def line (field : InputField) : String := field.name ++ field.type.ending

theorem Legible.printed {field : InputField} (h : field.Legible) :
    Sdl.inputField field = "  " ++ field.line := by
  simp [Sdl.inputField, line, TypeRef.ending, Sdl.description, Sdl.defaultValue, h.noDescription,
    h.noDefault, String.append_assoc]

theorem tells_line : Tells Legible line signature fun _ => True := by
  intro a b x y ha hb _ _ htext
  simp only [line, String.toList_append, List.append_assoc] at htext
  obtain ⟨hname, htext⟩ :=
    tells_name ha.name hb.name (stopsAt_ending a.type x) (stopsAt_ending b.type y) htext
  obtain ⟨htype, hxy⟩ := TypeRef.tells_ending ha.type hb.type trivial trivial htext
  exact ⟨Prod.ext hname htype, hxy⟩

end InputField

/-! ## Enum values -/

namespace EnumValue

structure Legible (value : EnumValue) : Prop where
  name : isValidName value.name = true
  noDescription : value.description = none
  noDeprecation : value.deprecationReason = none

/-- The line of a legible value, less its indent. -/
def line (value : EnumValue) : String := value.name ++ "\n"

theorem Legible.printed {value : EnumValue} (h : value.Legible) :
    Sdl.enumValue value = "  " ++ value.line := by
  simp [Sdl.enumValue, line, Sdl.description, Sdl.deprecation, h.noDescription, h.noDeprecation,
    String.append_assoc]

theorem tells_line : Tells Legible line EnumValue.name fun _ => True := by
  intro a b x y ha hb _ _ htext
  simp only [line, String.toList_append, List.append_assoc] at htext
  obtain ⟨hname, hxy⟩ :=
    tells_name ha.name hb.name (stopsAt_lineEnd x) (stopsAt_lineEnd y) htext
  exact ⟨hname, List.append_cancel_left hxy⟩

end EnumValue

/-! ## Names in a row -/

/-- Names with a separator between them are told where what follows does not look like the
separator. -/
theorem tells_joined_names {α : Type} (name : α → String) {separator : String}
    {follow : List Char → Prop} (hseparator : ∀ x, separator.toList <+: x → StopsAt isNameRest x)
    (hstop : ∀ x, follow x → StopsAt isNameRest x)
    (hend : ∀ x, follow x → ¬ separator.toList <+: x) :
    Tells (fun as => as ≠ [] ∧ ∀ a ∈ as, isValidName (name a) = true)
      (fun as => joinWith separator (as.map name)) (List.map name) follow := by
  have hname : Tells (fun a => isValidName (name a) = true) name name
      fun x => follow x ∨ separator.toList <+: x := by
    intro a b x y ha hb hx hy
    exact tells_name ha hb (hx.elim (hstop x) (hseparator x)) (hy.elim (hstop y) (hseparator y))
  exact hname.joined hend

theorem toList_implementsClause_cons (name : String) (rest : List String) :
    (Sdl.implementsClause (name :: rest)).toList =
      " implements ".toList ++ (joinWith " & " ((name :: rest).map id)).toList := by
  simp [Sdl.implementsClause]

/-- The interfaces of an object are told, also from none, where the braces follow: these
and a separator both start with a blank, so it takes the brace as well. -/
theorem tells_implementsClause :
    Tells (fun names => ∀ name ∈ names, isValidName name = true) Sdl.implementsClause (List.map id)
      fun x => [' ', '{'] <+: x := by
  have hnames : Tells (fun names => names ≠ [] ∧ ∀ name ∈ names, isValidName (id name) = true)
      (fun names => joinWith " & " (names.map id)) (List.map id) fun x => [' ', '{'] <+: x := by
    refine tells_joined_names id (fun x hx => ?_) (fun x hx => ?_) fun x hx => ?_
    · exact stopsAt_of_prefix hx (by decide)
    · exact stopsAt_of_prefix hx (by decide)
    · obtain ⟨rest, rfl⟩ := hx
      simp
  have hclause : Tells (fun names => names ≠ [] ∧ ∀ name ∈ names, isValidName name = true)
      Sdl.implementsClause (List.map id) fun x => [' ', '{'] <+: x := by
    intro as bs x y has hbs hx hy htext
    obtain ⟨a, rest, rfl⟩ := List.exists_cons_of_ne_nil has.1
    obtain ⟨b, others, rfl⟩ := List.exists_cons_of_ne_nil hbs.1
    rw [toList_implementsClause_cons, toList_implementsClause_cons, List.append_assoc,
      List.append_assoc] at htext
    exact hnames has hbs hx hy (List.append_cancel_left htext)
  refine hclause.orEmpty " implements " rfl (fun a as => ?_) fun x hx => ?_
  · rw [toList_implementsClause_cons]
    exact List.prefix_append _ _
  · obtain ⟨rest, rfl⟩ := hx
    simp

end GraphSchema
