/-
  GraphSchema.Proofs.Types.IntCoercion — `Int` takes exactly the integers of 32 bits.

  Integers reach `Int` in four ways: as integers, of which those beyond 64 bits with a sign go
  through a floating number, as floating numbers, as text and as truth values. What a value
  means is said without any of these conversions (`BuiltinScalar.Means`): a number means the
  integer it equals as a rational number, a text the integer of the numeral it holds between
  white space, a truth value one or zero, and nothing else means an integer.
  - `int_coercion_exact`: a value is answered exactly if it means an integer of 32 bits, and
    with that integer; input is read in the same way but from numbers alone; and an integer is
    answered as its text is.
-/

import GraphSchema.Types.BuiltinScalar
import GraphSchema.Proofs.Number.Integral
import GraphSchema.Proofs.Number.Numeral

namespace GraphSchema

/-- The number that a runtime value is, in exact arithmetic. -/
def Json.number? : Json → Option ℚ
  | .int n => some n
  | .float x => some x.value
  | _ => none

theorem Json.number?_int (n : ℤ) : (Json.int n).number? = some (n : ℚ) := rfl

theorem Json.number?_float (x : Double) : (Json.float x).number? = some x.value := rfl

namespace BuiltinScalar

/-- An integer of 32 bits with a sign. -/
def IsInt32 (n : ℤ) : Prop := -2 ^ 31 ≤ n ∧ n ≤ 2 ^ 31 - 1

/-- The integer that a value means where an `Int` is answered. -/
inductive Means : Json → ℤ → Prop
  | number {value : Json} {n : ℤ} : value.number? = some (n : ℚ) → Means value n
  | text {text : String} {numeral : List Char} {n : ℤ} : Surrounded text.toList numeral →
      Numeral numeral n → Means (.string text) n
  | truth (b : Bool) : Means (.bool b) (if b then 1 else 0)

variable {value result : Json} {n : ℤ}

/-! ## Numbers -/

theorem int32?_eq_some_iff : int32? n = some result ↔ IsInt32 n ∧ result = .int n := by
  have hbounds : Int32.minValue.toInt ≤ n ∧ n ≤ Int32.maxValue.toInt ↔ IsInt32 n := by
    have hmin : Int32.minValue.toInt = -2147483648 := rfl
    have hmax : Int32.maxValue.toInt = 2147483647 := rfl
    rw [hmin, hmax, IsInt32]
    omega
  rw [int32?]
  split
  · rename_i h
    simp [hbounds.mp h, eq_comm]
  · rename_i h
    have hnot : ¬ IsInt32 n := fun hn => h (hbounds.mpr hn)
    simp [hnot]

theorem bind_int32?_eq_some_iff {read : Option ℤ} :
    read.bind int32? = some result ↔ ∃ n, IsInt32 n ∧ read = some n ∧ result = .int n := by
  simp only [Option.bind_eq_some_iff, int32?_eq_some_iff]
  constructor
  · intro h
    obtain ⟨n, hread, hn, hresult⟩ := h
    exact ⟨n, hn, hread, hresult⟩
  · intro h
    obtain ⟨n, hn, hread, hresult⟩ := h
    exact ⟨n, hread, hn, hresult⟩

/-- An integer that goes through a floating number is as far from 32 bits afterwards. -/
theorem intOfNumber_int (n : ℤ) : intOfNumber (.int n) = int32? n := by
  rw [intOfNumber]
  split
  · rfl
  · rename_i hlarge
    have hsize : 2 ^ 63 ≤ n.natAbs := by
      have hmin : Int64.minValue.toInt = -9223372036854775808 := rfl
      have hmax : Int64.maxValue.toInt = 9223372036854775807 := rfl
      rw [hmin, hmax] at hlarge
      omega
    have hrefused : ∀ {k : ℤ}, 2 ^ 63 ≤ k.natAbs → int32? k = none := by
      intro k hk
      rw [Option.eq_none_iff_forall_ne_some]
      intro result hresult
      obtain ⟨⟨hlow, hhigh⟩, -⟩ := int32?_eq_some_iff.mp hresult
      omega
    rw [hrefused hsize, Option.eq_none_iff_forall_ne_some]
    intro result hresult
    obtain ⟨x, hx, hintegral⟩ := Option.bind_eq_some_iff.mp hresult
    obtain ⟨k, hk, hint⟩ := Option.bind_eq_some_iff.mp hintegral
    have hrounded := Double.twoPow_le_natAbs_of_ofInt? (m := n) (by omega) hx hk
    have hlog : 63 ≤ n.natAbs.log2 := (Nat.le_log2 (by omega)).mpr hsize
    rw [hrefused ((Nat.pow_le_pow_right (by decide) hlog).trans hrounded)] at hint
    cases hint

theorem intOfNumber_eq_some_iff :
    intOfNumber value = some result ↔
      ∃ n : ℤ, IsInt32 n ∧ value.number? = some (n : ℚ) ∧ result = .int n := by
  cases value with
  | int m =>
    rw [intOfNumber_int, int32?_eq_some_iff]
    simp [Json.number?]
  | float x =>
    rw [intOfNumber, integral32?, bind_int32?_eq_some_iff]
    simp [Json.number?, Double.toInt?_eq_some_iff]
  | _ => simp [intOfNumber, Json.number?]

/-! ## Answers -/

/-- A number means nothing but what it equals. -/
theorem means_iff_of_number? {q : ℚ} (h : value.number? = some q) (n : ℤ) :
    Means value n ↔ value.number? = some (n : ℚ) := by
  constructor
  · intro hmeans
    cases hmeans with
    | number hnumber => exact hnumber
    | text _ _ => cases h
    | truth _ => cases h
  · exact Means.number

theorem serializeInt_eq_some_iff :
    serializeInt value = some result ↔ ∃ n, IsInt32 n ∧ Means value n ∧ result = .int n := by
  cases value with
  | int m =>
    simp only [serializeInt, intOfNumber_eq_some_iff, means_iff_of_number? (Json.number?_int m)]
  | float x =>
    simp only [serializeInt, intOfNumber_eq_some_iff, means_iff_of_number? (Json.number?_float x)]
  | string text =>
    have hmeans : ∀ n, Means (.string text) n ↔ readInt? (trimBlanks text.toList) = some n := by
      intro n
      rw [readInt?_trimBlanks_eq_some_iff]
      constructor
      · intro h
        cases h with
        | number hnumber => cases hnumber
        | text hsurrounded hnumeral => exact ⟨_, hsurrounded, hnumeral⟩
      · intro h
        obtain ⟨numeral, hsurrounded, hnumeral⟩ := h
        exact .text hsurrounded hnumeral
    simp only [serializeInt, bind_int32?_eq_some_iff, hmeans]
  | bool b =>
    have hmeans : ∀ n, Means (.bool b) n ↔ n = if b then 1 else 0 := by
      intro n
      constructor
      · intro h
        cases h with
        | number hnumber => cases hnumber
        | truth _ => rfl
      · intro h
        subst h
        exact .truth b
    rw [serializeInt, int32?_eq_some_iff]
    simp [hmeans]
  | _ =>
    constructor
    · intro h
      cases h
    · intro h
      obtain ⟨n, _, hmeans, _⟩ := h
      cases hmeans with
      | number hnumber => cases hnumber

/-- Exactly the values that mean an integer of 32 bits are answered, and exactly the numbers
that equal one are read, each with this integer; an integer is answered as its text is. -/
theorem int_coercion_exact :
    (∀ value result, int.serialize value = some result ↔
      ∃ n, IsInt32 n ∧ Means value n ∧ result = .int n) ∧
    (∀ value result, int.parseValue value = some result ↔
      ∃ n : ℤ, IsInt32 n ∧ value.number? = some (n : ℚ) ∧ result = .int n) ∧
    ∀ n, int.serialize (.string (intText n)) = int.serialize (.int n) := by
  refine ⟨fun _ _ => serializeInt_eq_some_iff, fun _ _ => intOfNumber_eq_some_iff, fun n => ?_⟩
  have hread : readInt? (trimBlanks (intText n).toList) = some n :=
    readInt?_trimBlanks_eq_some_iff.mpr
      ⟨_, ⟨[], [], by simp⟩, .of_readInt? (readInt?_intText n)⟩
  show (readInt? (trimBlanks (intText n).toList)).bind int32? = intOfNumber (.int n)
  rw [hread, intOfNumber_int]
  rfl

end BuiltinScalar

end GraphSchema
