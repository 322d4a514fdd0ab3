/-
  GraphSchema.Proofs.Request.Terminators — where the lines of a document end.

  A line ends at a carriage return and the line feed after it, or at one of the two without
  the other (`Terminator`). A terminator is known by the byte it starts at and the byte after
  it, where the next line starts. In UTF-8 both characters are bytes that occur in no other
  character, so reading bytes finds the terminators of the text and no others:
  - `lineAt_follows`: the line that is reached is counted by the terminators that start before
    the offset, and starts after the last of them.
-/

import Mathlib.Data.String.Basic
import Mathlib.Data.Set.Card
import GraphSchema.Proofs.Text.Lines
import GraphSchema.Request.Location

namespace GraphSchema

open String (utf8Len utf8EncodeChar)

/-- What ends a line, between its first byte and the byte after it. -/
inductive Terminator (source : List Char) (first stop : Nat) : Prop
  | pair (before after : List Char) (split : source = before ++ '\r' :: '\n' :: after)
      (start : first = utf8Len before) (finish : stop = first + 2)
  | lineFeed (before after : List Char) (split : source = before ++ '\n' :: after)
      (single : before.getLast? ≠ some '\r') (start : first = utf8Len before)
      (finish : stop = first + 1)
  | carriageReturn (before after : List Char) (split : source = before ++ '\r' :: after)
      (single : after.head? ≠ some '\n') (start : first = utf8Len before)
      (finish : stop = first + 1)

/-- The terminators that start before the byte. -/
def begun (source : List Char) (offset : Nat) : Set (Nat × Nat) :=
  {t | Terminator source t.1 t.2 ∧ t.1 < offset}

variable {source done rest : List Char} {c d : Char} {first stop place offset : Nat}

/-! ## Terminators and places -/

theorem Terminator.lt (h : Terminator source first stop) : first < stop := by
  cases h <;> omega

theorem Terminator.exists_split (h : Terminator source first stop) :
    ∃ before c after, source = before ++ c :: after ∧ first = utf8Len before := by
  cases h with
  | pair before after split start _ => exact ⟨before, _, _, split, start⟩
  | lineFeed before after split _ start _ => exact ⟨before, _, _, split, start⟩
  | carriageReturn before after split _ start _ => exact ⟨before, _, _, split, start⟩

theorem utf8Len_concat (cs : List Char) (c : Char) :
    utf8Len (cs ++ [c]) = utf8Len cs + c.utf8Size := by
  rw [String.utf8Len_append, String.utf8Len_cons, String.utf8Len_nil, Nat.zero_add]

theorem utf8Size_terminator (h : c = '\n' ∨ c = '\r') : c.utf8Size = 1 := by
  rcases h with rfl | rfl <;> rfl

/-- A character that starts within the bytes of another is that one. -/
theorem eq_of_starts_within {before after : List Char} (h : before ++ c :: after = done ++ d :: rest)
    (hfrom : utf8Len done ≤ utf8Len before) (hto : utf8Len before < utf8Len done + d.utf8Size) :
    before = done := by
  rcases List.append_eq_append_iff.mp h with ⟨more, rfl, -⟩ | ⟨more, rfl, hmore⟩
  · cases more with
    | nil => exact (List.append_nil before).symm
    | cons x more =>
      rw [String.utf8Len_append, String.utf8Len_cons] at hfrom
      have := x.utf8Size_pos
      omega
  · cases more with
    | nil => exact List.append_nil done
    | cons x more =>
      obtain ⟨rfl, -⟩ := List.cons.inj hmore
      rw [String.utf8Len_append, String.utf8Len_cons] at hto
      omega

theorem terminator_here_iff (hsource : source = done ++ d :: rest) :
    Terminator source (utf8Len done) stop ↔
      (d = '\r' ∧ rest.head? = some '\n' ∧ stop = utf8Len done + 2) ∨
      (d = '\n' ∧ done.getLast? ≠ some '\r' ∧ stop = utf8Len done + 1) ∨
      (d = '\r' ∧ rest.head? ≠ some '\n' ∧ stop = utf8Len done + 1) := by
  have hsame : ∀ {before after : List Char} {c : Char}, source = before ++ c :: after →
      utf8Len done = utf8Len before → before = done ∧ d = c ∧ rest = after := by
    intro before after c hsplit hlen
    have hd := d.utf8Size_pos
    obtain rfl := eq_of_starts_within (hsplit.symm.trans hsource) (by omega) (by omega)
    exact ⟨rfl, List.cons.inj (List.append_cancel_left (hsource.symm.trans hsplit))⟩
  constructor
  · intro h
    cases h with
    | pair before after split start finish =>
      obtain ⟨-, rfl, rfl⟩ := hsame split start
      exact Or.inl ⟨rfl, rfl, finish⟩
    | lineFeed before after split single start finish =>
      obtain ⟨rfl, rfl, -⟩ := hsame split start
      exact Or.inr (Or.inl ⟨rfl, single, finish⟩)
    | carriageReturn before after split single start finish =>
      obtain ⟨-, rfl, rfl⟩ := hsame split start
      exact Or.inr (Or.inr ⟨rfl, single, finish⟩)
  · intro h
    rcases h with ⟨rfl, hhead, hstop⟩ | ⟨rfl, hlast, hstop⟩ | ⟨rfl, hhead, hstop⟩
    · obtain ⟨after, rfl⟩ := List.head?_eq_some_iff.mp hhead
      exact .pair done after hsource rfl hstop
    · exact .lineFeed done rest hsource hlast rfl hstop
    · exact .carriageReturn done rest hsource hhead rfl hstop

theorem Terminator.stop_unique {other : Nat} (h : Terminator source first stop)
    (hother : Terminator source first other) : stop = other := by
  obtain ⟨before, c, after, hsplit, rfl⟩ := h.exists_split
  rw [terminator_here_iff hsplit] at h hother
  rcases h with ⟨rfl, hhead, rfl⟩ | ⟨rfl, -, rfl⟩ | ⟨rfl, hhead, rfl⟩
  · simpa [hhead, eq_comm] using hother
  · obtain ⟨-, hstop⟩ : before.getLast? ≠ some '\r' ∧ other = utf8Len before + 1 := by
      simpa using hother
    exact hstop.symm
  · simpa [hhead, eq_comm] using hother

/-! ## Terminators begun -/

theorem begun_mono {a b : Nat} (h : a ≤ b) : begun source a ⊆ begun source b :=
  fun _ ht => ⟨ht.1, ht.2.trans_le h⟩

theorem begun_zero : begun source 0 = ∅ :=
  Set.eq_empty_of_forall_notMem fun _ ht => Nat.not_lt_zero _ ht.2

theorem begun_min_length : begun source (min (utf8Len source) offset) = begun source offset := by
  refine (begun_mono (min_le_right _ _)).antisymm fun t ht => ⟨ht.1, lt_min ?_ ht.2⟩
  obtain ⟨before, c, after, hsplit, hfirst⟩ := ht.1.exists_split
  rw [hsplit, String.utf8Len_append, String.utf8Len_cons, hfirst]
  have := c.utf8Size_pos
  omega

/-- Every terminator takes a byte. -/
theorem ncard_begun_le : (begun source offset).ncard ≤ offset := by
  have hinj : Set.InjOn Prod.fst (begun source offset) := by
    intro s hs t ht heq
    have hs' := hs.1
    rw [heq] at hs'
    exact Prod.ext heq (hs'.stop_unique ht.1)
  calc (begun source offset).ncard
      ≤ ((Finset.range offset : Finset Nat) : Set Nat).ncard :=
        Set.ncard_le_ncard_of_injOn Prod.fst (fun t ht => Finset.mem_coe.mpr (Finset.mem_range.mpr ht.2))
          hinj (Finset.finite_toSet _)
    _ = offset := by rw [Set.ncard_coe_finset, Finset.card_range]

/-- Within a character only the terminator that starts with it is begun. -/
theorem begun_within (hsource : source = done ++ d :: rest) (hfrom : utf8Len done < offset)
    (hto : offset ≤ utf8Len done + d.utf8Size) :
    begun source offset =
      {t | t.1 = utf8Len done ∧ Terminator source (utf8Len done) t.2} ∪ begun source (utf8Len done) := by
  ext t
  constructor
  · intro ht
    by_cases hbefore : t.1 < utf8Len done
    · exact Or.inr ⟨ht.1, hbefore⟩
    · obtain ⟨before, c, after, hsplit, hfirst⟩ := ht.1.exists_split
      have hlt := ht.2
      obtain rfl := eq_of_starts_within (hsplit.symm.trans hsource) (by omega) (by omega)
      exact Or.inl ⟨hfirst, hfirst ▸ ht.1⟩
  · intro ht
    rcases ht with ht | ht
    · exact ⟨ht.1 ▸ ht.2, ht.1 ▸ hfrom⟩
    · exact begun_mono hfrom.le ht

/-- One terminator starts with the character. -/
theorem begun_insert (hsource : source = done ++ d :: rest) (hfrom : utf8Len done < offset)
    (hto : offset ≤ utf8Len done + d.utf8Size) (h : Terminator source (utf8Len done) stop) :
    begun source offset = insert (utf8Len done, stop) (begun source (utf8Len done)) := by
  rw [begun_within hsource hfrom hto, Set.insert_eq]
  congr 1
  ext t
  constructor
  · exact fun ht => Prod.ext ht.1 (ht.2.stop_unique h)
  · intro ht
    obtain rfl := Set.mem_singleton_iff.mp ht
    exact ⟨rfl, h⟩

theorem begun_same (hsource : source = done ++ d :: rest) (hfrom : utf8Len done < offset)
    (hto : offset ≤ utf8Len done + d.utf8Size) (h : ∀ stop, ¬Terminator source (utf8Len done) stop) :
    begun source offset = begun source (utf8Len done) := by
  rw [begun_within hsource hfrom hto, Set.union_eq_right]
  exact fun t ht => absurd ht.2 (h t.2)

theorem begun_plain (hsource : source = done ++ d :: rest) (hplain : d ≠ '\n' ∧ d ≠ '\r')
    (hfrom : utf8Len done < offset) (hto : offset ≤ utf8Len done + d.utf8Size) :
    begun source offset = begun source (utf8Len done) := by
  refine begun_same hsource hfrom hto fun stop hterm => ?_
  rcases (terminator_here_iff hsource).mp hterm with h | h | h
  · exact hplain.2 h.1
  · exact hplain.1 h.1
  · exact hplain.2 h.1

theorem begun_single (hsource : source = done ++ d :: rest)
    (hsingle : d = '\n' ∧ done.getLast? ≠ some '\r' ∨ d = '\r' ∧ rest.head? ≠ some '\n') :
    begun source (utf8Len done + 1) =
      insert (utf8Len done, utf8Len done + 1) (begun source (utf8Len done)) := by
  have hsize := utf8Size_terminator (hsingle.imp And.left And.left)
  refine begun_insert hsource (Nat.lt_succ_self _) (by omega) ((terminator_here_iff hsource).mpr ?_)
  rcases hsingle with ⟨hfeed, hlast⟩ | ⟨hreturn, hhead⟩
  · exact Or.inr (Or.inl ⟨hfeed, hlast, rfl⟩)
  · exact Or.inr (Or.inr ⟨hreturn, hhead, rfl⟩)

theorem begun_pair (hsource : source = done ++ '\r' :: '\n' :: rest) (hfrom : utf8Len done < offset)
    (hto : offset ≤ utf8Len done + 2) :
    begun source offset =
      insert (utf8Len done, utf8Len done + 2) (begun source (utf8Len done)) := by
  have hterm : Terminator source (utf8Len done) (utf8Len done + 2) := .pair done rest hsource rfl rfl
  have hreturn := begun_insert hsource (Nat.lt_succ_self _) (le_refl _) hterm
  by_cases hone : offset = utf8Len done + 1
  · rw [hone]
    exact hreturn
  · -- The line feed starts no terminator of its own.
    have hfeed : source = (done ++ ['\r']) ++ '\n' :: rest := hsource.trans (List.append_cons ..)
    have hlength : utf8Len (done ++ ['\r']) = utf8Len done + 1 := utf8Len_concat done '\r'
    have hsize : Char.utf8Size '\n' = 1 := rfl
    rw [begun_same hfeed (by omega) (by omega) fun stop hstop => ?_, hlength]
    · exact hreturn
    · rw [terminator_here_iff hfeed] at hstop
      simp at hstop

/-! ## Bytes of characters -/

namespace SourceLocation

theorem toList_toUTF8 (source : String) :
    source.toUTF8.data.toList = source.toList.flatMap utf8EncodeChar := by
  obtain ⟨cs, rfl⟩ : ∃ cs, source = String.ofList cs := ⟨source.toList, String.ofList_toList.symm⟩
  rw [String.toUTF8_eq_toByteArray, String.toByteArray_ofList, String.toList_ofList, List.utf8Encode,
    List.toList_data_toByteArray]

theorem isTerminator_of_mem_utf8EncodeChar {byte : UInt8} (hplain : c ≠ '\n' ∧ c ≠ '\r')
    (h : byte ∈ utf8EncodeChar c) : isTerminator byte = false := by
  have hne : c.val.toNat ≠ 10 ∧ c.val.toNat ≠ 13 :=
    ⟨fun h => hplain.1 (Char.toNat_inj.mp h), fun h => hplain.2 (Char.toNat_inj.mp h)⟩
  have hbyte : byte.toNat ≠ 10 ∧ byte.toNat ≠ 13 := by
    -- A single byte is the character's number, the bytes of a longer character are from 128 on.
    simp only [utf8EncodeChar] at h
    split at h
    · simp only [List.mem_singleton] at h
      subst h
      rw [UInt8.toNat_ofNat']
      omega
    split at h
    · simp only [List.mem_cons, List.not_mem_nil, or_false] at h
      rcases h with rfl | rfl <;> rw [UInt8.toNat_ofNat'] <;> omega
    split at h
    · simp only [List.mem_cons, List.not_mem_nil, or_false] at h
      rcases h with rfl | rfl | rfl <;> rw [UInt8.toNat_ofNat'] <;> omega
    · simp only [List.mem_cons, List.not_mem_nil, or_false] at h
      rcases h with rfl | rfl | rfl | rfl <;> rw [UInt8.toNat_ofNat'] <;> omega
  rw [isTerminator, Bool.or_eq_false_iff, beq_eq_false_iff_ne, beq_eq_false_iff_ne]
  exact ⟨fun h => hbyte.1 (congrArg UInt8.toNat h), fun h => hbyte.2 (congrArg UInt8.toNat h)⟩

/-- The bytes of a text start with a line feed only if the text does. -/
theorem flatMap_utf8EncodeChar_ne {cs : List Char} (h : cs.head? ≠ some '\n') (bytes : List UInt8) :
    cs.flatMap utf8EncodeChar ≠ 0x0a :: bytes := by
  intro heq
  cases cs with
  | nil => cases heq
  | cons c cs =>
    rw [List.head?_cons, ne_eq, Option.some.injEq] at h
    by_cases hreturn : c = '\r'
    · rw [hreturn] at heq
      exact absurd (List.cons.inj heq).1 (by decide)
    · rw [List.flatMap_cons] at heq
      obtain ⟨b, bs, hbs⟩ := List.exists_cons_of_ne_nil (String.utf8EncodeChar_ne_nil (c := c))
      rw [hbs, List.cons_append] at heq
      have hplain := isTerminator_of_mem_utf8EncodeChar ⟨h, hreturn⟩ (hbs ▸ List.mem_cons_self ..)
      rw [(List.cons.inj heq).1] at hplain
      exact absurd hplain (by decide)

/-! ## Reading bytes -/

variable {line : Line}

theorem lineAt_of_le (h : offset ≤ place) (bytes : List UInt8) :
    lineAt offset line place bytes = line := by
  unfold lineAt
  split
  · rfl
  · exact if_neg (Nat.not_lt.mpr h)
  · exact if_neg (Nat.not_lt.mpr h)

theorem lineAt_plain {bytes : List UInt8} (hplain : ∀ byte ∈ bytes, isTerminator byte = false)
    (more : List UInt8) :
    lineAt offset line place (bytes ++ more) = lineAt offset line (place + bytes.length) more := by
  induction bytes generalizing place with
  | nil => rfl
  | cons byte bytes ih =>
    obtain ⟨hbyte, hbytes⟩ := List.forall_mem_cons.mp hplain
    by_cases hlt : place < offset
    · rw [List.cons_append, lineAt.eq_3 _ _ _ _ _ fun _ h _ => by simp [h, isTerminator] at hbyte,
        if_pos hlt, hbyte, if_neg Bool.false_ne_true, ih hbytes, List.length_cons, Nat.add_assoc,
        Nat.add_comm 1]
    · rw [lineAt_of_le (by omega), lineAt_of_le (by omega)]

theorem lineAt_single (hterm : c = '\n' ∨ c = '\r' ∧ rest.head? ≠ some '\n')
    (hlt : place < offset) :
    lineAt offset line place ((c :: rest).flatMap utf8EncodeChar) =
      lineAt offset (line.next (place + 1)) (place + 1) (rest.flatMap utf8EncodeChar) := by
  rcases hterm with rfl | ⟨rfl, hhead⟩
  · show lineAt offset line place (0x0a :: rest.flatMap utf8EncodeChar) = _
    rw [lineAt.eq_3 _ _ _ _ _ fun _ h _ => absurd h (by decide), if_pos hlt,
      show isTerminator 0x0a = true from rfl, if_pos rfl]
  · show lineAt offset line place (0x0d :: rest.flatMap utf8EncodeChar) = _
    rw [lineAt.eq_3 _ _ _ _ _ fun _ _ h => flatMap_utf8EncodeChar_ne hhead _ h, if_pos hlt,
      show isTerminator 0x0d = true from rfl, if_pos rfl]

theorem lineAt_pair (hlt : place < offset) :
    lineAt offset line place (('\r' :: '\n' :: rest).flatMap utf8EncodeChar) =
      lineAt offset (line.next (place + 2)) (place + 2) (rest.flatMap utf8EncodeChar) := by
  show lineAt offset line place (0x0d :: 0x0a :: rest.flatMap utf8EncodeChar) = _
  rw [lineAt.eq_2, if_pos hlt]

/-- The line is counted by the terminators and starts after the last of them. -/
structure Line.Follows (line : Line) (terminators : Set (Nat × Nat)) : Prop where
  finite : terminators.Finite
  number : line.number = UInt32.ofNat (terminators.ncard + 1)
  start : IsGreatest (insert 0 (Prod.snd '' terminators)) line.start

theorem Line.Follows.next {terminators : Set (Nat × Nat)} (h : line.Follows terminators)
    (hlt : line.start < stop) : (line.next stop).Follows (insert (first, stop) terminators) := by
  have hfresh : (first, stop) ∉ terminators := fun hmem =>
    absurd (h.start.2 (Set.mem_insert_of_mem 0 (Set.mem_image_of_mem Prod.snd hmem)))
      (Nat.not_le.mpr hlt)
  refine ⟨h.finite.insert _, ?_, ?_⟩
  · rw [Set.ncard_insert_of_notMem hfresh h.finite, UInt32.ofNat_add _ 1, ← h.number]
    rfl
  · rw [Set.image_insert_eq]
    refine ⟨Set.mem_insert_of_mem 0 (Set.mem_insert stop _), fun n hn => ?_⟩
    rcases hn with rfl | rfl | hn
    · exact Nat.zero_le _
    · exact le_refl _
    · exact (h.start.2 (Set.mem_insert_of_mem 0 hn)).trans hlt.le

/-- What holds between two characters of which the second is not the line feed of a pair. -/
structure Line.Reads (line : Line) (source done todo : List Char) (offset : Nat) : Prop where
  split : source = done ++ todo
  whole : ¬(done.getLast? = some '\r' ∧ todo.head? = some '\n')
  start_le : line.start ≤ utf8Len done
  follows : line.Follows (begun source (min (utf8Len done) offset))

namespace Line.Reads

theorem plain (h : line.Reads source done (d :: rest) offset) (hplain : d ≠ '\n' ∧ d ≠ '\r')
    (hlt : utf8Len done < offset) : line.Reads source (done ++ [d]) rest offset := by
  have hlength := utf8Len_concat done d
  have hsize := d.utf8Size_pos
  refine ⟨h.split.trans (List.append_cons ..), ?_, by have := h.start_le; omega, ?_⟩
  · rw [List.getLast?_concat, Option.some.injEq]
    exact fun hpair => hplain.2 hpair.1
  · have hfollows := h.follows
    rw [Nat.min_eq_left hlt.le] at hfollows
    rw [hlength, begun_plain h.split hplain (by omega) (min_le_left _ _)]
    exact hfollows

theorem single (h : line.Reads source done (d :: rest) offset)
    (hterm : d = '\n' ∨ d = '\r' ∧ rest.head? ≠ some '\n') (hlt : utf8Len done < offset) :
    (line.next (utf8Len done + 1)).Reads source (done ++ [d]) rest offset := by
  have hlength : utf8Len (done ++ [d]) = utf8Len done + 1 := by
    rw [utf8Len_concat, utf8Size_terminator (hterm.imp_right And.left)]
  have hsingle : d = '\n' ∧ done.getLast? ≠ some '\r' ∨ d = '\r' ∧ rest.head? ≠ some '\n' := by
    rcases hterm with rfl | hreturn
    · exact Or.inl ⟨rfl, fun hlast => h.whole ⟨hlast, rfl⟩⟩
    · exact Or.inr hreturn
  refine ⟨h.split.trans (List.append_cons ..), ?_, hlength.ge, ?_⟩
  · rw [List.getLast?_concat, Option.some.injEq]
    rintro ⟨rfl, hhead⟩
    rcases hterm with hfeed | hreturn
    · exact absurd hfeed (by decide)
    · exact hreturn.2 hhead
  · have hfollows := h.follows
    rw [Nat.min_eq_left hlt.le] at hfollows
    rw [hlength, Nat.min_eq_left hlt, begun_single h.split hsingle]
    exact hfollows.next (Nat.lt_succ_of_le h.start_le)

theorem pair (h : line.Reads source done ('\r' :: '\n' :: rest) offset)
    (hlt : utf8Len done < offset) :
    (line.next (utf8Len done + 2)).Reads source (done ++ ['\r', '\n']) rest offset := by
  have hlength : utf8Len (done ++ ['\r', '\n']) = utf8Len done + 2 := String.utf8Len_append ..
  refine ⟨by rw [h.split, List.append_assoc]; rfl, ?_, hlength.ge, ?_⟩
  · rw [List.getLast?_append]
    simp
  · have hfollows := h.follows
    rw [Nat.min_eq_left hlt.le] at hfollows
    rw [hlength, begun_pair h.split (by omega) (min_le_left _ _)]
    exact hfollows.next (by have := h.start_le; omega)

end Line.Reads

theorem Line.Reads.lineAt_of_le (h : line.Reads source done rest offset)
    (hle : offset ≤ utf8Len done) (bytes : List UInt8) :
    (lineAt offset line (utf8Len done) bytes).Follows (begun source offset) := by
  have hfollows := h.follows
  rw [Nat.min_eq_right hle] at hfollows
  rwa [SourceLocation.lineAt_of_le hle]

/-- The line that is reached is counted by the terminators that start before the offset. -/
theorem Line.Reads.lineAt_follows {todo : List Char} (h : line.Reads source done todo offset) :
    (lineAt offset line (utf8Len done) (todo.flatMap utf8EncodeChar)).Follows
      (begun source offset) := by
  induction todo using byLineEnds generalizing done line with
  | nil =>
    have hfollows := h.follows
    rw [show done = source from (h.split.trans (List.append_nil done)).symm] at hfollows ⊢
    rwa [begun_min_length] at hfollows
  | pair rest ih =>
    rcases Nat.lt_or_ge (utf8Len done) offset with hlt | hle
    · have hread := ih (h.pair hlt)
      rw [lineAt_pair hlt]
      rwa [String.utf8Len_append] at hread
    · exact h.lineAt_of_le hle _
  | single c rest hwhole ih =>
    rcases Nat.lt_or_ge (utf8Len done) offset with hlt | hle
    · by_cases hplain : c ≠ '\n' ∧ c ≠ '\r'
      · have hread := ih (h.plain hplain hlt)
        rw [List.flatMap_cons, lineAt_plain fun byte => isTerminator_of_mem_utf8EncodeChar hplain,
          String.length_utf8EncodeChar]
        rwa [utf8Len_concat] at hread
      · have hterm : c = '\n' ∨ c = '\r' ∧ rest.head? ≠ some '\n' := by
          by_cases hfeed : c = '\n'
          · exact Or.inl hfeed
          · have hreturn : c = '\r' := not_not.mp fun hne => hplain ⟨hfeed, hne⟩
            exact Or.inr ⟨hreturn, fun hhead => hwhole ⟨hreturn, hhead⟩⟩
        have hread := ih (h.single hterm hlt)
        rw [lineAt_single hterm hlt]
        rwa [utf8Len_concat, utf8Size_terminator (hterm.imp_right And.left)] at hread
    · exact h.lineAt_of_le hle _

/-- From the first byte of a document on. -/
theorem lineAt_follows (source : String) (offset : Nat) :
    (lineAt offset ⟨1, 0⟩ 0 source.toUTF8.data.toList).Follows (begun source.toList offset) := by
  have hread : Line.Reads ⟨1, 0⟩ source.toList [] source.toList offset := by
    refine ⟨rfl, fun h => Option.some_ne_none _ h.1.symm, le_refl 0, ?_⟩
    rw [String.utf8Len_nil, Nat.zero_min, begun_zero]
    refine ⟨Set.finite_empty, by rw [Set.ncard_empty]; rfl, Set.mem_insert 0 _, fun n hn => ?_⟩
    rw [Set.image_empty] at hn
    exact (Set.mem_insert_iff.mp hn).elim le_of_eq fun h => absurd h (Set.notMem_empty n)
  rw [toList_toUTF8]
  exact hread.lineAt_follows

end SourceLocation

end GraphSchema
