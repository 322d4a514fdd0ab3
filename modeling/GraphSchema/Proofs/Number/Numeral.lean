/-
  GraphSchema.Proofs.Number.Numeral — texts that stand for an integer.

  A numeral is an optional sign and at least one decimal digit, which count by their places;
  leading zeros count for nothing, and there may be any number of digits. Exactly the numerals
  are read, each as what it stands for (`readInt?_eq_some_iff`). White space may stand around a
  numeral and is taken off first; since a numeral starts and ends with characters that are not
  white space, nothing of it is taken off (`readInt?_trimBlanks_eq_some_iff`).
-/

import GraphSchema.Text.Blank
import GraphSchema.Proofs.Number.Digits
import GraphSchema.Proofs.Text.Reading
import Mathlib.Data.List.TakeWhile
import Mathlib.Data.Nat.Digits.Defs

namespace GraphSchema

/-! ## Digits by their places -/

/-- The number that digits stand for, the last one for units and each before for ten times
the one behind it. -/
def placeValue (digits : List Char) : Nat := Nat.ofDigits 10 (digits.reverse.map digitValue)

theorem placeValue_cons (digit : Char) (digits : List Char) :
    placeValue (digit :: digits) = digitValue digit * 10 ^ digits.length + placeValue digits := by
  rw [placeValue, List.reverse_cons, List.map_append, Nat.ofDigits_append, List.length_map,
    List.length_reverse, Nat.add_comm, Nat.mul_comm]
  simp [placeValue]

theorem natOfDigits_eq_placeValue (digits : List Char) :
    natOfDigits digits = placeValue digits := by
  induction digits with
  | nil => rfl
  | cons digit digits ih =>
    have hfirst : natOfDigits [digit] = digitValue digit := by simp [natOfDigits]
    rw [placeValue_cons, ← ih, ← hfirst, ← Nat.pow_eq, ← natOfDigits_append]
    rfl

/-! ## Numerals -/

/-- At least one decimal digit, which stand for the number. -/
structure DigitNumeral (digits : List Char) (n : Nat) : Prop where
  ne_nil : digits ≠ []
  isDigit : ∀ c ∈ digits, c.isDigit = true
  value : placeValue digits = n

/-- Digits with an optional sign, which stand for the integer. -/
inductive Numeral : List Char → Int → Prop
  | unsigned {digits : List Char} {n : Nat} : DigitNumeral digits n → Numeral digits n
  | plus {digits : List Char} {n : Nat} : DigitNumeral digits n → Numeral ('+' :: digits) n
  | minus {digits : List Char} {n : Nat} : DigitNumeral digits n → Numeral ('-' :: digits) (-n)

theorem readNat?_eq_some_iff {cs : List Char} {n : Nat} :
    readNat? cs = some n ↔ DigitNumeral cs n := by
  rw [readNat?, natOfDigits_eq_placeValue]
  split
  · rename_i h
    constructor
    · intro hvalue
      exact ⟨h.1, List.all_eq_true.mp h.2, Option.some.inj hvalue⟩
    · intro hnumeral
      exact congrArg some hnumeral.value
  · rename_i h
    constructor
    · intro hvalue
      cases hvalue
    · intro hnumeral
      exact absurd ⟨hnumeral.ne_nil, List.all_eq_true.mpr hnumeral.isDigit⟩ h

/-- Where digits were read and a sign was given to what they stand for. -/
theorem exists_digitNumeral {digits : List Char} {signed : Int → Int} {n : Int}
    (h : Option.map signed (do let m ← readNat? digits; pure (m : Int)) = some n) :
    ∃ m : Nat, DigitNumeral digits m ∧ signed m = n := by
  cases hread : readNat? digits with
  | none =>
    rw [hread] at h
    cases h
  | some m =>
    rw [hread] at h
    exact ⟨m, readNat?_eq_some_iff.mp hread, Option.some.inj h⟩

theorem Numeral.of_readInt? {cs : List Char} {n : Int} (h : readInt? cs = some n) :
    Numeral cs n := by
  unfold readInt? at h
  split at h
  · obtain ⟨m, hdigits, rfl⟩ := exists_digitNumeral h
    exact .minus hdigits
  · obtain ⟨m, hdigits, rfl⟩ := exists_digitNumeral h
    exact .plus hdigits
  · obtain ⟨m, hdigits, rfl⟩ := exists_digitNumeral h
    exact .unsigned hdigits

theorem Numeral.readInt?_eq {cs : List Char} {n : Int} (h : Numeral cs n) :
    readInt? cs = some n := by
  cases h with
  | plus hdigits =>
    rw [readInt?, readNat?_eq_some_iff.mpr hdigits]
    rfl
  | minus hdigits =>
    rw [readInt?, readNat?_eq_some_iff.mpr hdigits]
    rfl
  | unsigned hdigits =>
    -- The first digit is no sign, so nothing is taken off.
    unfold readInt?
    split
    · exact absurd (hdigits.isDigit '-' (List.mem_cons_self ..)) (by decide)
    · exact absurd (hdigits.isDigit '+' (List.mem_cons_self ..)) (by decide)
    · rw [readNat?_eq_some_iff.mpr hdigits]
      rfl

theorem readInt?_eq_some_iff {cs : List Char} {n : Int} : readInt? cs = some n ↔ Numeral cs n :=
  ⟨Numeral.of_readInt?, Numeral.readInt?_eq⟩

/-! ## White space around a numeral -/

/-- The text, with white space before and behind it. -/
def Surrounded (cs text : List Char) : Prop :=
  ∃ before after, cs = before ++ (text ++ after) ∧ ∀ c ∈ before ++ after, isBlank c = true

theorem surrounded_trimBlanks (cs : List Char) : Surrounded cs (trimBlanks cs) := by
  let rest := cs.dropWhile isBlank
  refine ⟨cs.takeWhile isBlank, (rest.reverse.takeWhile isBlank).reverse, ?_, ?_⟩
  · have hrest : trimBlanks cs ++ (rest.reverse.takeWhile isBlank).reverse = rest := by
      rw [trimBlanks, ← List.reverse_append, List.takeWhile_append_dropWhile, List.reverse_reverse]
    rw [hrest, List.takeWhile_append_dropWhile]
  · intro c hc
    rcases List.mem_append.mp hc with hc | hc
    · exact List.mem_takeWhile_imp hc
    · exact List.mem_takeWhile_imp (List.mem_reverse.mp hc)

/-- A text that neither starts nor ends with white space is what is left. -/
theorem Surrounded.trimBlanks_eq {cs text : List Char} (h : Surrounded cs text) (hne : text ≠ [])
    (hfirst : StopsAt isBlank text) (hlast : StopsAt isBlank text.reverse) :
    trimBlanks cs = text := by
  obtain ⟨before, after, rfl, hblank⟩ := h
  have hbefore : ∀ c ∈ before, isBlank c = true := fun c hc => hblank c (List.mem_append_left _ hc)
  have hafter : ∀ c ∈ after.reverse, isBlank c = true := fun c hc =>
    hblank c (List.mem_append_right _ (List.mem_reverse.mp hc))
  have hstop : StopsAt isBlank (text ++ after) := by
    obtain ⟨c, rest, rfl⟩ := List.exists_cons_of_ne_nil hne
    exact stopsAt_cons.mpr (stopsAt_cons.mp hfirst)
  rw [trimBlanks, dropWhile_run hbefore hstop, List.reverse_append, dropWhile_run hafter hlast,
    List.reverse_reverse]

theorem isBlank_of_isDigit {c : Char} (h : c.isDigit = true) : isBlank c = false := by
  have hlow : 48 ≤ c.toNat := by simpa using (Char.isDigit_iff_toNat.mp h).1
  have hhigh : c.toNat ≤ 57 := by simpa using (Char.isDigit_iff_toNat.mp h).2
  simp only [isBlank, Bool.or_eq_false_iff, Bool.and_eq_false_iff, decide_eq_false_iff_not,
    beq_eq_false_iff_ne]
  omega

theorem DigitNumeral.stopsAt {digits : List Char} {n : Nat} (h : DigitNumeral digits n) :
    StopsAt isBlank digits ∧ StopsAt isBlank digits.reverse := by
  have hstop : ∀ cs : List Char, (∀ c ∈ cs, c ∈ digits) → StopsAt isBlank cs := by
    intro cs hcs
    cases cs with
    | nil => exact stopsAt_nil _
    | cons c rest =>
      exact stopsAt_cons.mpr (isBlank_of_isDigit (h.isDigit c (hcs c (List.mem_cons_self ..))))
  exact ⟨hstop digits fun _ => id, hstop _ fun _ => List.mem_reverse.mp⟩

/-- A numeral has no white space at either end. -/
theorem Numeral.stopsAt {cs : List Char} {n : Int} (h : Numeral cs n) :
    cs ≠ [] ∧ StopsAt isBlank cs ∧ StopsAt isBlank cs.reverse := by
  have hsigned : ∀ (sign : Char) {digits : List Char} {n : Nat}, DigitNumeral digits n →
      StopsAt isBlank (sign :: digits).reverse := by
    intro sign digits n hdigits
    obtain ⟨last, rest, hlast⟩ :=
      List.exists_cons_of_ne_nil (mt List.reverse_eq_nil_iff.mp hdigits.ne_nil)
    have hstop := hdigits.stopsAt.2
    rw [hlast] at hstop
    rw [List.reverse_cons, hlast]
    exact stopsAt_cons.mpr (stopsAt_cons.mp hstop)
  cases h with
  | unsigned hdigits => exact ⟨hdigits.ne_nil, hdigits.stopsAt⟩
  | plus hdigits =>
    exact ⟨List.cons_ne_nil _ _, stopsAt_cons.mpr (by decide), hsigned '+' hdigits⟩
  | minus hdigits =>
    exact ⟨List.cons_ne_nil _ _, stopsAt_cons.mpr (by decide), hsigned '-' hdigits⟩

/-- Read are the numerals with white space around them. -/
theorem readInt?_trimBlanks_eq_some_iff {cs : List Char} {n : Int} :
    readInt? (trimBlanks cs) = some n ↔ ∃ text, Surrounded cs text ∧ Numeral text n := by
  rw [readInt?_eq_some_iff]
  constructor
  · intro h
    exact ⟨trimBlanks cs, surrounded_trimBlanks cs, h⟩
  · intro h
    obtain ⟨text, hsurrounded, hnumeral⟩ := h
    obtain ⟨hne, hfirst, hlast⟩ := hnumeral.stopsAt
    rw [hsurrounded.trimBlanks_eq hne hfirst hlast]
    exact hnumeral

example : readInt? (trimBlanks "\u00a0 +0042\n".toList) = some 42 := by decide

end GraphSchema
