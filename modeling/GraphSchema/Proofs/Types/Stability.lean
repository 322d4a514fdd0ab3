/-
  GraphSchema.Proofs.Types.Stability — a coerced value is coerced no further.

  Answers are coerced liberally and input strictly, by two functions of each built-in scalar.
  They agree on what comes out: values of one form of the scalar's own (`IsOwn`), whichever
  function made them of whatever value. And both leave values of that form as they are, so a
  value that was coerced can be answered again or sent back as input and stays the same.
  - `builtin_coercion_stable`: all this of the five built-in scalars.
  - `tenth_coerced_once`: a number that is no double is rounded the first time and not again.
-/

import GraphSchema.Proofs.Types.IntCoercion

namespace GraphSchema

namespace BuiltinScalar

/-- The form that values have which the built-in scalar of a name has coerced. -/
def IsOwn (name : String) : Json → Prop
  | .int n => name = "Int" ∧ IsInt32 n
  | .float _ => name = "Float"
  | .string _ => name = "String" ∨ name = "ID"
  | .bool _ => name = "Boolean"
  | _ => False

/-- Coerced values are of the scalar's own form, and values of that form stay as they are. -/
structure Settles (scalar : ScalarType) : Prop where
  own_of_serialize : ∀ value result, scalar.serialize value = some result → IsOwn scalar.name result
  own_of_parseValue :
    ∀ value result, scalar.parseValue value = some result → IsOwn scalar.name result
  serialize_own : ∀ result, IsOwn scalar.name result → scalar.serialize result = some result
  parseValue_own : ∀ result, IsOwn scalar.name result → scalar.parseValue result = some result

/-! ## The five scalars -/

theorem int_settles : Settles int where
  own_of_serialize := by
    intro value result h
    obtain ⟨n, hn, _, rfl⟩ := serializeInt_eq_some_iff.mp h
    exact ⟨rfl, hn⟩
  own_of_parseValue := by
    intro value result h
    obtain ⟨n, hn, _, rfl⟩ := intOfNumber_eq_some_iff.mp h
    exact ⟨rfl, hn⟩
  serialize_own := by
    intro result h
    cases result with
    | int n => exact serializeInt_eq_some_iff.mpr ⟨n, h.2, .number (Json.number?_int n), rfl⟩
    | _ => simp [IsOwn, int] at h
  parseValue_own := by
    intro result h
    cases result with
    | int n => exact intOfNumber_eq_some_iff.mpr ⟨n, h.2, Json.number?_int n, rfl⟩
    | _ => simp [IsOwn, int] at h

theorem exists_of_floatOfNumber {value result : Json} (h : floatOfNumber value = some result) :
    ∃ x, result = .float x := by
  cases value with
  | int n =>
    obtain ⟨x, _, rfl⟩ := Option.map_eq_some_iff.mp h
    exact ⟨x, rfl⟩
  | float x => exact ⟨x, (Option.some.inj h).symm⟩
  | _ => cases h

theorem exists_of_serializeFloat {value result : Json} (h : serializeFloat value = some result) :
    ∃ x, result = .float x := by
  cases value with
  | bool b => exact ⟨_, (Option.some.inj h).symm⟩
  | string text =>
    obtain ⟨x, _, rfl⟩ := Option.map_eq_some_iff.mp h
    exact ⟨x, rfl⟩
  | int n =>
    have hnumber : floatOfNumber (.int n) = some result := h
    exact exists_of_floatOfNumber hnumber
  | float x => exact ⟨x, (Option.some.inj h).symm⟩
  | _ => cases h

theorem float_settles : Settles float where
  own_of_serialize := by
    intro value result h
    obtain ⟨x, rfl⟩ := exists_of_serializeFloat h
    rfl
  own_of_parseValue := by
    intro value result h
    obtain ⟨x, rfl⟩ := exists_of_floatOfNumber h
    rfl
  serialize_own := by
    intro result h
    cases result with
    | float x => rfl
    | _ => simp [IsOwn, float] at h
  parseValue_own := by
    intro result h
    cases result with
    | float x => rfl
    | _ => simp [IsOwn, float] at h

theorem string_settles : Settles string where
  own_of_serialize := by
    intro value result h
    cases value with
    | null => cases h
    | array _ => cases h
    | object _ => cases h
    | _ =>
      cases h
      exact Or.inl rfl
  own_of_parseValue := by
    intro value result h
    cases value with
    | string text =>
      cases h
      exact Or.inl rfl
    | _ => cases h
  serialize_own := by
    intro result h
    cases result with
    | string text => rfl
    | _ => simp [IsOwn, string] at h
  parseValue_own := by
    intro result h
    cases result with
    | string text => rfl
    | _ => simp [IsOwn, string] at h

theorem boolean_settles : Settles boolean where
  own_of_serialize := by
    intro value result h
    cases value with
    | null => cases h
    | array _ => cases h
    | object _ => cases h
    | _ =>
      cases h
      rfl
  own_of_parseValue := by
    intro value result h
    cases value with
    | bool b =>
      cases h
      rfl
    | _ => cases h
  serialize_own := by
    intro result h
    cases result with
    | bool b => rfl
    | _ => simp [IsOwn, boolean] at h
  parseValue_own := by
    intro result h
    cases result with
    | bool b => rfl
    | _ => simp [IsOwn, boolean] at h

theorem own_of_coerceId {value result : Json} (h : coerceId value = some result) :
    IsOwn "ID" result := by
  cases value with
  | string text =>
    cases h
    exact Or.inr rfl
  | int n =>
    cases h
    exact Or.inr rfl
  | _ => cases h

theorem coerceId_own {result : Json} (h : IsOwn "ID" result) : coerceId result = some result := by
  cases result with
  | string text => rfl
  | _ => simp [IsOwn] at h

theorem id_settles : Settles id where
  own_of_serialize := fun _ _ => own_of_coerceId
  own_of_parseValue := fun _ _ => own_of_coerceId
  serialize_own := fun _ => coerceId_own
  parseValue_own := fun _ => coerceId_own

theorem settles_of_mem {scalar : ScalarType} (h : scalar ∈ all) : Settles scalar := by
  simp only [all, List.mem_cons, List.not_mem_nil, or_false] at h
  obtain rfl | rfl | rfl | rfl | rfl := h
  · exact int_settles
  · exact float_settles
  · exact string_settles
  · exact boolean_settles
  · exact id_settles

/-! ## Any of them -/

/-- What a built-in scalar makes of a value, for an answer or as input, is of the scalar's own
form, and both ways leave it as it is; and every value of that form comes out so. -/
theorem builtin_coercion_stable {scalar : ScalarType} (h : scalar ∈ all) (result : Json) :
    (∀ value, scalar.serialize value = some result ∨ scalar.parseValue value = some result →
      scalar.serialize result = some result ∧ scalar.parseValue result = some result ∧
        IsOwn scalar.name result) ∧
    (IsOwn scalar.name result →
      scalar.serialize result = some result ∧ scalar.parseValue result = some result) := by
  have hsettles := settles_of_mem h
  have hstable : IsOwn scalar.name result →
      scalar.serialize result = some result ∧ scalar.parseValue result = some result :=
    fun hown => ⟨hsettles.serialize_own result hown, hsettles.parseValue_own result hown⟩
  refine ⟨fun value hcoerced => ?_, hstable⟩
  have hown : IsOwn scalar.name result := by
    rcases hcoerced with hserialize | hparse
    · exact hsettles.own_of_serialize value result hserialize
    · exact hsettles.own_of_parseValue value result hparse
  exact ⟨(hstable hown).1, (hstable hown).2, hown⟩

/-- The double nearest to a tenth. -/
def tenth : Double := ⟨false, 7205759403792794, -56, by decide⟩

theorem serialize_tenth : float.serialize (.string " +.1\n") = some (.float tenth) := by
  have hread : (Binary64.ofChars? (trimBlanks " +.1\n".toList)).bind Binary64.finite? =
      some tenth := by
    decide +kernel
  have hserialize : float.serialize (.string " +.1\n") =
      ((Binary64.ofChars? (trimBlanks " +.1\n".toList)).bind Binary64.finite?).map Json.float :=
    rfl
  rw [hserialize, hread]
  rfl

/-- A number in text between white space, which is none of the doubles. -/
theorem tenth_coerced_once :
    float ∈ all ∧ float.serialize (.string " +.1\n") = some (.float tenth) ∧
      float.serialize (.float tenth) = some (.float tenth) ∧
      float.parseValue (.float tenth) = some (.float tenth) := by
  have hmem : float ∈ all := by simp [all]
  obtain ⟨hserialize, hparse, _⟩ :=
    (builtin_coercion_stable hmem (.float tenth)).1 _ (Or.inl serialize_tenth)
  exact ⟨hmem, serialize_tenth, hserialize, hparse⟩

end BuiltinScalar

end GraphSchema
