/-
  GraphSchema.Proofs.Number.Digits — digits stand for the number they were written from.

  What is written reads back: `natOfDigits_natDigits` for the digits of a natural number,
  `readInt?_intText` for an integer with its sign. Zeros in front of digits count for
  nothing, a zero behind them ten times (`natOfDigits_append`).
-/

import GraphSchema.Number.Digits

namespace GraphSchema

theorem natOfDigits_append (cs ds : List Char) :
    natOfDigits (cs ++ ds) = natOfDigits cs * Nat.pow 10 ds.length + natOfDigits ds := by
  -- The digits that come later are read on top of the number read so far.
  have hfrom : ∀ (ds : List Char) (n : Nat),
      ds.foldl (fun n c => 10 * n + digitValue c) n = n * Nat.pow 10 ds.length + natOfDigits ds := by
    intro ds
    induction ds with
    | nil => exact fun n => (Nat.mul_one n).symm
    | cons d ds ih =>
      intro n
      have hpow : Nat.pow 10 (d :: ds).length = 10 * Nat.pow 10 ds.length := Nat.pow_succ'
      rw [natOfDigits, List.foldl_cons, List.foldl_cons, ih, ih (10 * 0 + digitValue d), hpow,
        Nat.mul_zero, Nat.zero_add, Nat.add_mul, Nat.add_assoc, Nat.mul_left_comm n, Nat.mul_assoc]
  rw [natOfDigits, List.foldl_append]
  exact hfrom ds _

theorem natOfDigits_replicate_zero (n : Nat) : natOfDigits (List.replicate n '0') = 0 := by
  induction n with
  | zero => rfl
  | succ n ih =>
    rw [List.replicate_succ', natOfDigits_append, ih]
    rfl

theorem natOfDigits_natDigits (n : Nat) : natOfDigits (natDigits n) = n :=
  Nat.ofDigitChars_toDigits (by decide) (by decide)

theorem isDigit_of_mem_natDigits {n : Nat} {c : Char} (h : c ∈ natDigits n) : c.isDigit = true :=
  Nat.isDigit_of_mem_toDigits (by decide) (by decide) h

theorem natDigits_ne_nil (n : Nat) : natDigits n ≠ [] := Nat.toDigits_ne_nil

theorem readNat?_natDigits (n : Nat) : readNat? (natDigits n) = some n := by
  have hdigits : (natDigits n).all Char.isDigit = true :=
    List.all_eq_true.mpr fun c hc => isDigit_of_mem_natDigits hc
  rw [readNat?, if_pos ⟨natDigits_ne_nil n, hdigits⟩, natOfDigits_natDigits]

/-- Digits have no sign in front. -/
theorem readInt?_natDigits (n : Nat) : readInt? (natDigits n) = some (n : Int) := by
  have hdigit : ∀ c ∈ natDigits n, c.isDigit = true := fun c => isDigit_of_mem_natDigits
  have hread := readNat?_natDigits n
  unfold readInt?
  split
  · rename_i heq
    exact absurd (hdigit '-' (heq ▸ List.mem_cons_self ..)) (by decide)
  · rename_i heq
    exact absurd (hdigit '+' (heq ▸ List.mem_cons_self ..)) (by decide)
  · rw [hread]
    rfl

theorem toList_intText (n : Int) :
    (intText n).toList = if n < 0 then '-' :: natDigits n.natAbs else natDigits n.natAbs := by
  rw [intText]
  split <;> simp [natText]

theorem readInt?_intText (n : Int) : readInt? (intText n).toList = some n := by
  rw [toList_intText]
  split
  · rw [readInt?, readNat?_natDigits]
    show some (-(n.natAbs : Int)) = some n
    rw [Option.some.injEq]
    omega
  · rw [readInt?_natDigits, Option.some.injEq]
    omega

theorem intText_injective {m n : Int} (h : intText m = intText n) : m = n := by
  have hread := readInt?_intText m
  rw [h, readInt?_intText] at hread
  exact (Option.some.inj hread).symm

/-- An integer is written in digits, with a minus at most. -/
theorem mem_intText {n : Int} {c : Char} (h : c ∈ (intText n).toList) : c.isDigit = true ∨ c = '-' := by
  rw [toList_intText] at h
  split at h
  · rcases List.mem_cons.mp h with hminus | hdigit
    · exact Or.inr hminus
    · exact Or.inl (isDigit_of_mem_natDigits hdigit)
  · exact Or.inl (isDigit_of_mem_natDigits h)

end GraphSchema
