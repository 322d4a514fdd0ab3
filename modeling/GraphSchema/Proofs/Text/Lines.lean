/-
  GraphSchema.Proofs.Text.Lines — a text taken apart at its line ends.

  A carriage return and its line feed are one step of an induction over a text (`byLineEnds`),
  so that each of the steps is at a whole line end or at none.
-/

import GraphSchema.Text.Lines

namespace GraphSchema

/-- A text character by character, the line feed of a pair together with its carriage
return. -/
@[elab_as_elim]
theorem byLineEnds {motive : List Char → Prop} (nil : motive [])
    (pair : ∀ rest, motive rest → motive ('\r' :: '\n' :: rest))
    (single : ∀ c rest, ¬(c = '\r' ∧ rest.head? = some '\n') → motive rest → motive (c :: rest))
    (text : List Char) : motive text := by
  induction hlength : text.length using Nat.strongRecOn generalizing text with
  | ind n ih =>
    cases text with
    | nil => exact nil
    | cons c rest =>
      rw [List.length_cons] at hlength
      by_cases hpair : c = '\r' ∧ rest.head? = some '\n'
      · obtain ⟨rfl, hhead⟩ := hpair
        obtain ⟨more, rfl⟩ := List.head?_eq_some_iff.mp hhead
        rw [List.length_cons] at hlength
        exact pair more (ih more.length (by omega) more rfl)
      · exact single c rest hpair (ih rest.length (by omega) rest rfl)

/-! ## Lines -/

theorem linesOf_single {c : Char} {rest : List Char} (h : ¬(c = '\r' ∧ rest.head? = some '\n')) :
    linesOf (c :: rest) =
      if c = '\n' then [] :: linesOf rest
      else (c :: (linesOf rest).head?.getD []) :: (linesOf rest).tail := by
  rw [linesOf.eq_3 c rest fun _ hreturn hrest => h ⟨hreturn, hrest ▸ rfl⟩]
  cases linesOf rest <;> rfl

/-- A line ends before its line feed. -/
theorem feed_notMem_of_mem_linesOf {text line : List Char} (h : line ∈ linesOf text) :
    '\n' ∉ line := by
  induction text using byLineEnds generalizing line with
  | nil => exact absurd h List.not_mem_nil
  | pair rest ih =>
    rw [linesOf.eq_2] at h
    rcases List.mem_cons.mp h with rfl | h
    · exact List.not_mem_nil
    · exact ih h
  | single c rest hwhole ih =>
    rw [linesOf_single hwhole] at h
    split at h
    · rcases List.mem_cons.mp h with rfl | h
      · exact List.not_mem_nil
      · exact ih h
    · rename_i hfeed
      rcases List.mem_cons.mp h with rfl | h
      · rw [List.mem_cons, not_or]
        refine ⟨Ne.symm hfeed, ?_⟩
        cases hlines : linesOf rest with
        | nil => exact List.not_mem_nil
        | cons first more =>
          have hfirst : first ∈ linesOf rest := by simp [hlines]
          exact ih hfirst
      · exact ih (List.mem_of_mem_tail h)

end GraphSchema
