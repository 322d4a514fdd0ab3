/-
  GraphSchema.Proofs.Types.Input — the two ways input reaches a leaf type.

  Input is written in a document as a literal or comes from outside as the value of a
  variable, and a leaf type has a reader for each. A client that moves an argument out of
  its document into a variable sends the value of the literal. Nothing changes by that
  (`literal_accepted_iff`): a built-in scalar or an enum accepts exactly the
  literals of its own forms (`LeafType.Writes`) whose value the reader of variables
  accepts, with the same result. No literal with a variable or a number without value
  inside is accepted.

  The forms are what the two ways differ in. A string names a value of an enum in a
  variable only, and a floating number without fraction is an `Int` there only. An integer
  for `Float` is rounded to the same double on both ways (`halfway_accepted`), and one for
  `Int` is held to the same bounds.
-/

import GraphSchema.Proofs.Request.Literal
import GraphSchema.Types.BuiltinScalar
import GraphSchema.Types.Definition

namespace GraphSchema

namespace LeafType

/-- A built-in scalar, or an enum, whatever values it declares. -/
inductive Standard : LeafType → Prop
  | builtin {type : ScalarType} : type ∈ BuiltinScalar.all → Standard (.scalar type)
  | enum (type : EnumType) : Standard (.enum type)

/-- The forms of literal that a built-in scalar or an enum is written in. -/
inductive Writes : LeafType → Literal → Prop
  | int (n : Int64) (span : Span) : Writes (.scalar BuiltinScalar.int) (.int n span)
  | float (x : Binary64) (span : Span) : Writes (.scalar BuiltinScalar.float) (.float x span)
  | wholeFloat (n : Int64) (span : Span) : Writes (.scalar BuiltinScalar.float) (.int n span)
  | string (s : String) (span : Span) : Writes (.scalar BuiltinScalar.string) (.string s span)
  | boolean (b : Bool) (span : Span) : Writes (.scalar BuiltinScalar.boolean) (.boolean b span)
  | textId (s : String) (span : Span) : Writes (.scalar BuiltinScalar.id) (.string s span)
  | wholeId (n : Int64) (span : Span) : Writes (.scalar BuiltinScalar.id) (.int n span)
  | enum (type : EnumType) (name : Name) : Writes (.enum type) (.enum name)

/-- The literal is of the type's form, and its value reads as the given one. -/
def ReadsAsVariable (type : LeafType) (literal : Literal) (value : Json) : Prop :=
  type.Writes literal ∧ ∃ json, literal.toJson? = some json ∧ type.parseValue json = some value

/-! ## From a literal to a variable -/

variable {literal : Literal} {value : Json}

theorem int_readsAsVariable (h : BuiltinScalar.intOfLiteral literal = some value) :
    ReadsAsVariable (.scalar BuiltinScalar.int) literal value := by
  cases literal with
  | int n span =>
    exact ⟨.int n span, .int n.toInt, rfl, (BuiltinScalar.intOfNumber_toInt n).trans h⟩
  | _ => cases h

theorem float_readsAsVariable (h : BuiltinScalar.floatOfLiteral literal = some value) :
    ReadsAsVariable (.scalar BuiltinScalar.float) literal value := by
  cases literal with
  | int n span => exact ⟨.wholeFloat n span, .int n.toInt, rfl, h⟩
  | float x span =>
    -- the literal is its own value, since `Float` takes a finite number as it is
    obtain ⟨finite, found, rfl⟩ := Option.map_eq_some_iff.mp h
    exact ⟨.float x span, .float finite, by simp [Literal.toJson?, found], rfl⟩
  | _ => cases h

theorem string_readsAsVariable (h : BuiltinScalar.stringOfLiteral literal = some value) :
    ReadsAsVariable (.scalar BuiltinScalar.string) literal value := by
  cases literal with
  | string s span => exact ⟨.string s span, .string s, rfl, h⟩
  | _ => cases h

theorem boolean_readsAsVariable (h : BuiltinScalar.booleanOfLiteral literal = some value) :
    ReadsAsVariable (.scalar BuiltinScalar.boolean) literal value := by
  cases literal with
  | boolean b span => exact ⟨.boolean b span, .bool b, rfl, h⟩
  | _ => cases h

theorem id_readsAsVariable (h : BuiltinScalar.idOfLiteral literal = some value) :
    ReadsAsVariable (.scalar BuiltinScalar.id) literal value := by
  cases literal with
  | int n span => exact ⟨.wholeId n span, .int n.toInt, rfl, h⟩
  | string s span => exact ⟨.textId s span, .string s, rfl, h⟩
  | _ => cases h

theorem enum_readsAsVariable {type : EnumType} (h : type.parseLiteral literal = some value) :
    ReadsAsVariable (.enum type) literal value := by
  cases literal with
  | enum name => exact ⟨.enum type name, .string name.value, rfl, h⟩
  | _ => cases h

theorem Standard.readsAsVariable {type : LeafType} (h : type.Standard)
    (accepted : type.parseLiteral literal = some value) : type.ReadsAsVariable literal value := by
  cases h with
  | enum type => exact enum_readsAsVariable accepted
  | builtin mem =>
    simp only [BuiltinScalar.all, List.mem_cons, List.not_mem_nil, or_false] at mem
    obtain rfl | rfl | rfl | rfl | rfl := mem
    · exact int_readsAsVariable accepted
    · exact float_readsAsVariable accepted
    · exact string_readsAsVariable accepted
    · exact boolean_readsAsVariable accepted
    · exact id_readsAsVariable accepted

/-! ## From a variable to a literal -/

/-- Within the forms of the type, what is accepted as a variable is accepted as a literal. -/
theorem ReadsAsVariable.parseLiteral {type : LeafType} (h : type.ReadsAsVariable literal value) :
    type.parseLiteral literal = some value := by
  obtain ⟨hwrites, json, hjson, hread⟩ := h
  cases hwrites with
  | int n span =>
    cases hjson
    exact (BuiltinScalar.intOfNumber_toInt n).symm.trans hread
  | float x span =>
    obtain ⟨finite, found, rfl⟩ := Option.map_eq_some_iff.mp hjson
    cases hread
    show x.finite?.map Json.float = _
    rw [found]
    rfl
  | _ =>
    cases hjson
    exact hread

/-- A literal is accepted exactly if it is of the type's form and its value is accepted from
a variable, with the same result, and no open literal is. -/
theorem literal_accepted_iff {type : LeafType} (h : type.Standard) (literal : Literal) :
    (∀ value, type.parseLiteral literal = some value ↔
        type.Writes literal ∧
          ∃ json, literal.toJson? = some json ∧ type.parseValue json = some value) ∧
      (literal.Open → type.parseLiteral literal = none) := by
  refine ⟨fun value => ⟨h.readsAsVariable, ReadsAsVariable.parseLiteral⟩, fun inside => ?_⟩
  rw [Option.eq_none_iff_forall_ne_some]
  intro other accepted
  obtain ⟨_, json, closed, _⟩ := h.readsAsVariable accepted
  exact Literal.not_open_of_toJson? closed inside

/-- The literal `9007199254740993`, one above `2 ^ 53`. -/
def halfway : Literal := .int 9007199254740993 default

/-- The double `2 ^ 53`. -/
def roundedDown : Double := ⟨false, Nat.pow 2 52, 1, by decide⟩

theorem ofInt?_halfway : Double.ofInt? 9007199254740993 = some roundedDown := by
  decide +kernel

/-- An integer half way between two doubles, where a `Float` is expected: a literal and a
variable round it to the same one. What is not a number is refused. -/
theorem halfway_accepted :
    (LeafType.scalar BuiltinScalar.float).parseLiteral halfway = some (.float roundedDown) ∧
      (∃ json, halfway.toJson? = some json ∧
        (LeafType.scalar BuiltinScalar.float).parseValue json = some (.float roundedDown)) ∧
      (LeafType.scalar BuiltinScalar.float).parseLiteral (.float .nan default) = none := by
  have standard : (LeafType.scalar BuiltinScalar.float).Standard :=
    .builtin (by simp [BuiltinScalar.all])
  have accepted : (LeafType.scalar BuiltinScalar.float).parseLiteral halfway =
      some (.float roundedDown) := by
    show (Double.ofInt? 9007199254740993).map Json.float = _
    rw [ofInt?_halfway]
    rfl
  obtain ⟨_, moved⟩ := ((literal_accepted_iff standard halfway).1 _).mp accepted
  exact ⟨accepted, moved, (literal_accepted_iff standard _).2 (.float _ rfl)⟩

end LeafType

end GraphSchema
