/-
  GraphSchema.Proofs.Json.Number — the text of a number tells the number.

  A floating number is read back by the reader of decimal numbers: positional or with an
  exponent, the text stands for a number that rounds to the double it was written for
  (`exists_read_unsigned`), the sign stands in front, also that of a zero. So no two doubles
  have one text (`FloatLayout.text_injective`). An integer is written without point and
  exponent and a floating number never is, so they have no text in common either
  (`intText_ne_text`).
-/

import GraphSchema.Json.Text
import GraphSchema.Number.Binary64
import GraphSchema.Proofs.Number.Shortest
import GraphSchema.Proofs.Text.Reading

namespace GraphSchema

/-! ## Reading a decimal number -/

namespace Decimal

def value (d : Decimal) : ℚ := d.digits * 10 ^ d.exponent

variable {whole fraction rest : List Char} {exponent : Int}

theorem readUnsigned?_point (negative : Bool) (hwhole : ∀ c ∈ whole, c.isDigit = true)
    (hfraction : ∀ c ∈ fraction, c.isDigit = true) (hne : whole ≠ [])
    (hstop : StopsAt Char.isDigit rest) (hexponent : readExponent? rest = some exponent) :
    readUnsigned? negative (whole ++ '.' :: (fraction ++ rest)) =
      some ⟨negative, natOfDigits (whole ++ fraction), exponent - fraction.length⟩ := by
  have hpoint : StopsAt Char.isDigit ('.' :: (fraction ++ rest)) := stopsAt_cons.mpr (by decide)
  unfold readUnsigned?
  rw [takeWhile_run hwhole hpoint, dropWhile_run hwhole hpoint]
  split
  rename_i parts
  obtain ⟨rfl, rfl⟩ := Prod.mk.inj parts
  rw [takeWhile_run hfraction hstop, dropWhile_run hfraction hstop,
    if_neg fun h => hne (List.append_eq_nil_iff.mp h).1, hexponent]
  rfl

theorem readUnsigned?_whole (negative : Bool) (hwhole : ∀ c ∈ whole, c.isDigit = true) (hne : whole ≠ [])
    (hexponent : readExponent? ('e' :: rest) = some exponent) :
    readUnsigned? negative (whole ++ 'e' :: rest) = some ⟨negative, natOfDigits whole, exponent⟩ := by
  have hletter : StopsAt Char.isDigit ('e' :: rest) := stopsAt_cons.mpr (by decide)
  unfold readUnsigned?
  rw [takeWhile_run hwhole hletter, dropWhile_run hwhole hletter]
  split
  rename_i parts
  obtain ⟨rfl, rfl⟩ := Prod.mk.inj parts
  dsimp only
  rw [List.append_nil, if_neg hne, hexponent, Option.map_some, List.length_nil, Int.natCast_zero,
    Int.sub_zero]

end Decimal

namespace FloatLayout

open Decimal

variable {run : DigitRun} {layout : FloatLayout} {x y : Double}

/-! ## Digits read back -/

theorem isDigit_of_mem_zeros {n : ℕ} {c : Char} (h : c ∈ List.replicate n '0') : c.isDigit = true := by
  rw [List.eq_of_mem_replicate h]
  rfl

/-- Zeros in front and behind move the digits against the point and nothing more. -/
theorem natOfDigits_padded (before after : ℕ) (digits : List Char) :
    natOfDigits (List.replicate before '0' ++ digits ++ List.replicate after '0') =
      natOfDigits digits * 10 ^ after := by
  rw [natOfDigits_append, natOfDigits_append, natOfDigits_replicate_zero, natOfDigits_replicate_zero,
    List.length_replicate, Nat.zero_mul, Nat.zero_add, Nat.add_zero, Nat.pow_eq]

/-- The digits, zeros around them and a point at its place. -/
theorem exists_read_point (before after : ℕ) {whole fraction : List Char} (h : run.Legible)
    (hne : whole ≠ [])
    (hchars : whole ++ fraction = List.replicate before '0' ++ run.digits ++ List.replicate after '0')
    (hplace : (after : ℤ) - fraction.length = run.exponent + 1 - run.digits.length) :
    ∃ d, readUnsigned? false (whole ++ '.' :: fraction) = some d ∧ d.value = run.value := by
  have hdigits : ∀ c ∈ whole ++ fraction, c.isDigit = true := by
    intro c hc
    rw [hchars, List.mem_append, List.mem_append] at hc
    rcases hc with (hc | hc) | hc
    · exact isDigit_of_mem_zeros hc
    · exact h.digits c hc
    · exact isDigit_of_mem_zeros hc
  have hread := readUnsigned?_point false (fun c hc => hdigits c (List.mem_append_left _ hc))
    (fun c hc => hdigits c (List.mem_append_right _ hc)) hne (stopsAt_nil _)
    (show readExponent? [] = some 0 from rfl)
  rw [List.append_nil] at hread
  refine ⟨_, hread, ?_⟩
  rw [value, DigitRun.value, hchars, natOfDigits_padded, ← hplace]
  push_cast
  rw [mul_assoc, ← zpow_natCast, ← zpow_add₀ (by norm_num)]
  congr 2
  ring

theorem exists_read_positional (h : run.Legible) :
    ∃ d, readUnsigned? false (positional run) = some d ∧ d.value = run.value := by
  have hdigits := List.length_pos_iff.mpr h.ne_nil
  unfold positional
  split
  · refine exists_read_point ((-run.exponent - 1).toNat + 1) 0 h (List.cons_ne_nil '0' []) ?_ ?_
    · rw [List.replicate_succ, List.replicate_zero, List.append_nil]
      rfl
    · rw [List.length_append, List.length_replicate]
      push_cast
      omega
  · dsimp only
    split
    · -- No digit is left for the places behind the point.
      rename_i hempty
      have hshort := List.drop_eq_nil_iff.mp (List.isEmpty_iff.mp hempty)
      refine exists_read_point 0 (run.exponent.toNat + 1 - run.digits.length + 1) h ?_ ?_ ?_
      · rw [List.take_of_length_le hshort]
        exact fun hnil => h.ne_nil (List.append_eq_nil_iff.mp hnil).1
      · rw [List.take_of_length_le hshort, List.replicate_succ', List.replicate_zero,
          List.nil_append, List.append_assoc]
      · rw [List.length_singleton]
        push_cast
        omega
    · rename_i hmore
      have hlong : run.exponent.toNat + 1 < run.digits.length := by
        rw [List.isEmpty_iff, List.drop_eq_nil_iff] at hmore
        exact Nat.lt_of_not_le hmore
      refine exists_read_point 0 0 h ?_ ?_ ?_
      · intro hnil
        have := congrArg List.length hnil
        rw [List.length_append, List.length_take, List.length_nil] at this
        omega
      · rw [Nat.sub_eq_zero_of_le hlong.le, List.replicate_zero, List.append_nil,
          List.take_append_drop, List.nil_append, List.append_nil]
      · rw [List.length_drop]
        push_cast
        omega

theorem readExponent?_scientific (e : Int) :
    readExponent? ('e' :: (if e < 0 then '-' else '+') :: natDigits e.natAbs) = some e := by
  rw [readExponent?, if_pos (Or.inl rfl)]
  split
  · rw [readInt?, readNat?_natDigits]
    show some (-(e.natAbs : Int)) = some e
    rw [Option.some.injEq]
    omega
  · rw [readInt?, readNat?_natDigits]
    show some (e.natAbs : Int) = some e
    rw [Option.some.injEq]
    omega

theorem exists_read_scientific (h : run.Legible) :
    ∃ d, readUnsigned? false (scientific run) = some d ∧ d.value = run.value := by
  have hexponent := readExponent?_scientific run.exponent
  obtain ⟨hne, hdigits⟩ := h
  unfold scientific
  rw [DigitRun.value]
  generalize run.digits = digits at hne hdigits ⊢
  cases digits with
  | nil => exact absurd rfl hne
  | cons first more =>
    cases more with
    | nil =>
      refine ⟨_, readUnsigned?_whole false hdigits hne hexponent, ?_⟩
      rw [value, List.length_singleton, Nat.cast_one, add_sub_cancel_right]
    | cons second rest =>
      obtain ⟨hfirst, hrest⟩ := List.forall_mem_cons.mp hdigits
      refine ⟨_, readUnsigned?_point false (List.forall_mem_singleton.mpr hfirst) hrest
        (List.cons_ne_nil _ _) (stopsAt_cons.mpr (by decide)) hexponent, ?_⟩
      rw [value]
      congr 2
      rw [List.length_cons (a := first)]
      push_cast
      ring

theorem exists_read_magnitude (layout : FloatLayout) (h : run.Legible) :
    ∃ d, readUnsigned? false (layout.magnitude run) = some d ∧ d.value = run.value := by
  unfold magnitude
  split
  · exact exists_read_positional h
  · exact exists_read_scientific h

/-! ## The text of a double -/

/-- The text without the sign. -/
def unsigned (layout : FloatLayout) (x : Double) : List Char :=
  if x.isZero then ['0', '.', '0'] else layout.magnitude x.shortest

theorem toList_text (layout : FloatLayout) (x : Double) :
    (layout.text x).toList =
      if x.negative then '-' :: layout.unsigned x else layout.unsigned x := by
  rw [text, String.toList_ofList]
  rfl

theorem roundsFrom_zero (h : x.isZero = true) : x.RoundsFrom 0 := by
  have hzero : x.significand = 0 := by simpa [Double.isZero] using h
  have hhigh : (0 : ℚ) < x.highQuarters * x.quarter := by
    refine mul_pos (Nat.cast_pos.mpr ?_) x.quarter_pos
    unfold Double.highQuarters
    omega
  refine ⟨le_of_eq ?_, hhigh.le, fun _ => by rw [hzero], fun heq => absurd heq hhigh.ne⟩
  simp [Double.lowQuarters, hzero]

/-- The text stands for a number that rounds to the double. -/
theorem exists_read_unsigned (layout : FloatLayout) (x : Double) :
    ∃ d, readUnsigned? false (layout.unsigned x) = some d ∧ x.RoundsFrom d.value := by
  unfold unsigned
  split
  · rename_i hzero
    refine ⟨⟨false, 0, -1⟩, rfl, ?_⟩
    rw [value, Nat.cast_zero, zero_mul]
    exact roundsFrom_zero hzero
  · rename_i hnonzero
    obtain ⟨hlegible, hround⟩ := Double.shortest_legible (Bool.not_eq_true _ ▸ hnonzero)
    obtain ⟨d, hread, hvalue⟩ := exists_read_magnitude layout hlegible
    exact ⟨d, hread, hvalue ▸ hround⟩

theorem exists_cons_magnitude (layout : FloatLayout) (h : run.Legible) :
    ∃ c rest, layout.magnitude run = c :: rest ∧ c.isDigit = true := by
  obtain ⟨hne, hdigits⟩ := h
  unfold magnitude positional scientific
  generalize run.digits = digits at hne hdigits ⊢
  cases digits with
  | nil => exact absurd rfl hne
  | cons first rest =>
    have hfirst := hdigits first (List.mem_cons_self ..)
    split
    · split
      · exact ⟨_, _, rfl, rfl⟩
      · exact ⟨_, _, rfl, hfirst⟩
    · cases rest with
      | nil => exact ⟨_, _, rfl, hfirst⟩
      | cons second rest => exact ⟨_, _, rfl, hfirst⟩

theorem exists_cons_unsigned (layout : FloatLayout) (x : Double) :
    ∃ c rest, layout.unsigned x = c :: rest ∧ c.isDigit = true := by
  unfold unsigned
  split
  · exact ⟨_, _, rfl, rfl⟩
  · rename_i hnonzero
    exact exists_cons_magnitude layout
      (Double.shortest_legible (Bool.not_eq_true _ ▸ hnonzero)).1

/-- No two doubles have one text, nor have the two zeros. -/
theorem text_injective {layout : FloatLayout} {x y : Double} (h : layout.text x = layout.text y) :
    x = y := by
  -- Only a sign is no digit, so the texts agree without it.
  have hparts : x.negative = y.negative ∧ layout.unsigned x = layout.unsigned y := by
    have hminus : ∀ z w : Double, '-' :: layout.unsigned z ≠ layout.unsigned w := by
      intro z w heq
      obtain ⟨c, rest, hcons, hdigit⟩ := layout.exists_cons_unsigned w
      rw [hcons, List.cons.injEq] at heq
      rw [← heq.1] at hdigit
      exact absurd hdigit (by decide)
    have hlist := congrArg String.toList h
    rw [toList_text, toList_text] at hlist
    split at hlist
    · rename_i hx
      split at hlist
      · rename_i hy
        exact ⟨hx.trans hy.symm, (List.cons.inj hlist).2⟩
      · exact absurd hlist (hminus x y)
    · rename_i hx
      split at hlist
      · exact absurd hlist.symm (hminus y x)
      · rename_i hy
        rw [Bool.not_eq_true] at hx hy
        exact ⟨hx.trans hy.symm, hlist⟩
  obtain ⟨d, hread, hx⟩ := layout.exists_read_unsigned x
  obtain ⟨e, hread', hy⟩ := layout.exists_read_unsigned y
  rw [hparts.2, hread', Option.some.injEq] at hread
  obtain ⟨hsignificand, hexponent⟩ := Double.eq_of_roundsFrom hx (hread ▸ hy)
  obtain ⟨negative, significand, exponent, canonical⟩ := x
  obtain ⟨negative', significand', exponent', canonical'⟩ := y
  rw [Double.mk.injEq]
  exact ⟨hparts.1, hsignificand, hexponent⟩

end FloatLayout

/-! ## The characters of a number -/

/-- A character that the text of a number may have. -/
def isNumeric (c : Char) : Bool := c.isDigit || c == '-' || c == '+' || c == '.' || c == 'e'

theorem isNumeric_of_isDigit {c : Char} (h : c.isDigit = true) : isNumeric c = true := by
  simp [isNumeric, h]

theorem isNumeric_of_mem_intText {n : Int} {c : Char} (h : c ∈ (intText n).toList) :
    isNumeric c = true := by
  rcases mem_intText h with hdigit | rfl
  · exact isNumeric_of_isDigit hdigit
  · decide

namespace FloatLayout

variable {run : DigitRun} {layout : FloatLayout}

theorem all_isNumeric_magnitude (layout : FloatLayout) (h : run.Legible) :
    (layout.magnitude run).all isNumeric = true := by
  have hdigits : ∀ ds : List Char, (∀ c ∈ ds, c ∈ run.digits) → ds.all isNumeric = true :=
    fun ds hds => List.all_eq_true.mpr fun c hc => isNumeric_of_isDigit (h.digits c (hds c hc))
  have hzeros : ∀ n, (List.replicate n '0').all isNumeric = true :=
    fun n => List.all_eq_true.mpr fun c hc => isNumeric_of_isDigit (isDigit_of_mem_zeros hc)
  have hexponent : (natDigits run.exponent.natAbs).all isNumeric = true :=
    List.all_eq_true.mpr fun c hc => isNumeric_of_isDigit (isDigit_of_mem_natDigits hc)
  unfold magnitude positional scientific
  split
  · split
    · rw [List.all_cons, List.all_cons, List.all_append, hzeros, hdigits _ fun _ => id]
      rfl
    · dsimp only
      rw [List.all_append, List.all_append, List.all_cons, hzeros,
        hdigits _ fun _ => List.mem_of_mem_take]
      split
      · rfl
      · rw [hdigits _ fun _ => List.mem_of_mem_drop]
        rfl
  · have hsign : isNumeric (if run.exponent < 0 then '-' else '+') = true := by
      split <;> rfl
    have hmantissa := hdigits run.digits fun _ => id
    rw [List.all_append, List.all_cons, List.all_cons, hsign, hexponent]
    cases hshape : run.digits with
    | nil => rfl
    | cons first rest =>
      cases rest with
      | nil => simpa [hshape, isNumeric] using hmantissa
      | cons second rest => simpa [hshape, isNumeric] using hmantissa

theorem isNumeric_of_mem_text {x : Double} {c : Char} (h : c ∈ (layout.text x).toList) :
    isNumeric c = true := by
  have hunsigned : (layout.unsigned x).all isNumeric = true := by
    unfold unsigned
    split
    · rfl
    · rename_i hnonzero
      exact all_isNumeric_magnitude layout (Double.shortest_legible (Bool.not_eq_true _ ▸ hnonzero)).1
  rw [toList_text] at h
  split at h
  · rcases List.mem_cons.mp h with rfl | hc
    · rfl
    · exact List.all_eq_true.mp hunsigned c hc
  · exact List.all_eq_true.mp hunsigned c h

/-- A point or an exponent is what an integer is written without. -/
theorem exists_mark (layout : FloatLayout) (x : Double) :
    ∃ c ∈ (layout.text x).toList, c = '.' ∨ c = 'e' := by
  have hunsigned : ∃ c ∈ layout.unsigned x, c = '.' ∨ c = 'e' := by
    unfold unsigned magnitude positional scientific
    split
    · exact ⟨'.', by simp, Or.inl rfl⟩
    split
    · split
      · exact ⟨'.', by simp, Or.inl rfl⟩
      · exact ⟨'.', by simp, Or.inl rfl⟩
    · exact ⟨'e', by simp, Or.inr rfl⟩
  obtain ⟨c, hc, hmark⟩ := hunsigned
  refine ⟨c, ?_, hmark⟩
  rw [toList_text]
  split
  · exact List.mem_cons_of_mem _ hc
  · exact hc

theorem intText_ne_text {n : Int} {x : Double} : intText n ≠ layout.text x := by
  intro heq
  obtain ⟨c, hc, hmark⟩ := layout.exists_mark x
  rw [← heq] at hc
  rcases mem_intText hc with hdigit | rfl
  · rcases hmark with rfl | rfl
    · exact absurd hdigit (by decide)
    · exact absurd hdigit (by decide)
  · exact absurd hmark (by decide)

end FloatLayout

end GraphSchema
