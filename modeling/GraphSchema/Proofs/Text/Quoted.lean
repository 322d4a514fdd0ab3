/-
  GraphSchema.Proofs.Text.Quoted — where a text in quotes ends.

  Between the quotes a character stands as it is or is escaped, and nothing that is written
  for one starts with a quote. A reader that takes one character off (`next?`) finds every
  character that was written and stops at the closing quote, so a text in quotes is told
  before whatever follows it, also when it holds quotes and backslashes itself
  (`tells_quoted`).
-/

import GraphSchema.Proofs.Text.Reading
import GraphSchema.Text.Quoted

namespace GraphSchema

namespace Quoted

def hexValue (c : Char) : Nat := if c.isDigit then c.toNat - 48 else c.toNat - 87

/-- What a letter stands for after a backslash; a quote and a backslash for themselves. -/
def unescape (c : Char) : Char :=
  if c = 'b' then Char.ofNat 0x8
  else if c = 'f' then Char.ofNat 0xc
  else if c = 'n' then '\n'
  else if c = 'r' then '\r'
  else if c = 't' then '\t'
  else c

/-- The next character and what is left, unless the closing quote comes. -/
def next? : List Char → Option (Char × List Char)
  | '"' :: _ => none
  | '\\' :: 'u' :: '0' :: '0' :: high :: low :: rest =>
    some (Char.ofNat (16 * hexValue high + hexValue low), rest)
  | '\\' :: letter :: rest => some (unescape letter, rest)
  | c :: rest => some (c, rest)
  | [] => none

theorem hexValue_hexDigit : ∀ n < 16, hexValue (hexDigit n) = n := by decide

theorem next?_escape (c : Char) (rest : List Char) : next? (escape c ++ rest) = some (c, rest) := by
  unfold escape
  split
  · rename_i h
    subst h
    rfl
  split
  · rename_i h
    subst h
    rfl
  split
  · rename_i h
    exact (Char.toNat_inj.mp h : c = Char.ofNat 0x8) ▸ rfl
  split
  · rename_i h
    exact (Char.toNat_inj.mp h : c = Char.ofNat 0xc) ▸ rfl
  split
  · rename_i h
    exact h ▸ rfl
  split
  · rename_i h
    exact h ▸ rfl
  split
  · rename_i h
    exact h ▸ rfl
  split
  · rename_i h
    have number : 16 * (c.toNat / 16) + c.toNat % 16 = c.toNat := Nat.div_add_mod ..
    simp [next?, hexValue_hexDigit _ (show c.toNat / 16 < 16 by omega),
      hexValue_hexDigit _ (show c.toNat % 16 < 16 by omega), number]
  · rename_i backslash _ _ _ _ _ _
    simp [next?, backslash]

end Quoted

theorem toList_quoted (text : String) :
    (quoted text).toList = '"' :: (text.toList.flatMap Quoted.escape ++ ['"']) := by
  simp [quoted, Quoted.encode]

/-- A text in quotes ends at its closing quote, whatever comes then. -/
theorem tells_quoted : Tells (fun _ => True) quoted id fun _ => True := by
  -- The two texts are read in step, a character of each at a time.
  have hread : ∀ (cs ds : List Char) {x y : List Char},
      cs.flatMap Quoted.escape ++ '"' :: x = ds.flatMap Quoted.escape ++ '"' :: y →
        cs = ds ∧ x = y := by
    intro cs
    induction cs with
    | nil =>
      intro ds x y h
      cases ds with
      | nil => exact ⟨rfl, (List.cons.inj h).2⟩
      | cons d ds =>
        rw [List.flatMap_cons, List.append_assoc] at h
        exact absurd ((congrArg Quoted.next? h).trans (Quoted.next?_escape d _)) (by simp [Quoted.next?])
    | cons c cs ih =>
      intro ds x y h
      rw [List.flatMap_cons, List.append_assoc] at h
      have hnext := congrArg Quoted.next? h
      rw [Quoted.next?_escape] at hnext
      cases ds with
      | nil => simp [Quoted.next?] at hnext
      | cons d ds =>
        rw [List.flatMap_cons, List.append_assoc, Quoted.next?_escape, Option.some.injEq,
          Prod.mk.injEq] at hnext
        obtain ⟨rfl, hrest⟩ := hnext
        obtain ⟨rfl, hxy⟩ := ih ds hrest
        exact ⟨rfl, hxy⟩
  intro a b x y _ _ _ _ h
  simp only [toList_quoted, List.cons_append, List.append_assoc, List.nil_append, List.cons.injEq,
    true_and] at h
  obtain ⟨htext, hxy⟩ := hread a.toList b.toList h
  exact ⟨String.toList_inj.mp htext, hxy⟩

end GraphSchema
