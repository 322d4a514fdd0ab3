/-
  GraphSchema.Proofs.Request.Location — which line and column a byte offset has.

  - `ofOffset_exact`: at a character, and not between the two of a pair, the line is counted by
    the terminators that end there or before, and the column by the characters after the last
    of them.
  - `ofOffset_le_iff`: a later offset has no earlier location, but for one case: an offset
    inside a character, which counts bytes, can be counted past the characters of its line
    that follow (`CountedPast`). `accents_counted_past` is such a pair of offsets.
  Both need lines that can be counted in words: the text of line feeds in `feeds_wrap` has one
  line too many.
-/

import GraphSchema.Proofs.Request.Terminators

namespace GraphSchema

open String (utf8Len)

/-- The terminators that end at the byte or before it. -/
def ended (source : List Char) (offset : Nat) : Set (Nat × Nat) :=
  {t | Terminator source t.1 t.2 ∧ t.2 ≤ offset}

/-- A character starts at the byte, or the text ends there. -/
def Boundary (source : List Char) (offset : Nat) : Prop :=
  ∃ before after, source = before ++ after ∧ utf8Len before = offset

variable {source : List Char} {first stop offset : Nat}

/-! ## Places -/

theorem boundary_behind {before after : List Char} {c : Char} (hsplit : source = before ++ c :: after) :
    Boundary source (utf8Len before + c.utf8Size) :=
  ⟨before ++ [c], after, hsplit.trans (List.append_cons ..), utf8Len_concat before c⟩

theorem Terminator.boundary (h : Terminator source first stop) : Boundary source stop := by
  cases h with
  | pair before after split start finish =>
    have hfeed := boundary_behind (split.trans (List.append_cons ..))
    rw [utf8Len_concat] at hfeed
    rw [finish, start]
    exact hfeed
  | lineFeed before after split _ start finish =>
    rw [finish, start]
    exact boundary_behind split
  | carriageReturn before after split _ start finish =>
    rw [finish, start]
    exact boundary_behind split

theorem append_inj_of_utf8Len {before after before' after' : List Char}
    (h : before ++ after = before' ++ after') (hlen : utf8Len before = utf8Len before') :
    before = before' ∧ after = after' := by
  have hnil : ∀ {cs : List Char} {n : Nat}, n + utf8Len cs = n → cs = [] := fun h =>
    String.utf8Len_eq_zero.mp (by omega)
  rcases List.append_eq_append_iff.mp h with ⟨more, rfl, rfl⟩ | ⟨more, rfl, rfl⟩
  · rw [String.utf8Len_append] at hlen
    obtain rfl := hnil hlen.symm
    simp
  · rw [String.utf8Len_append] at hlen
    obtain rfl := hnil hlen
    simp

/-- Two boundaries in order part the text in three. -/
theorem Boundary.exists_between {a b : Nat} (ha : Boundary source a) (hb : Boundary source b)
    (hab : a ≤ b) : ∃ before between after, source = before ++ between ++ after ∧
      utf8Len before = a ∧ b = utf8Len before + utf8Len between := by
  obtain ⟨before, rest, hbefore, rfl⟩ := ha
  obtain ⟨front, after, hfront, rfl⟩ := hb
  rcases List.append_eq_append_iff.mp (hbefore.symm.trans hfront) with ⟨more, rfl, -⟩ | ⟨more, rfl, -⟩
  · exact ⟨before, more, after, hfront, rfl, String.utf8Len_append ..⟩
  · rw [String.utf8Len_append] at hab
    have hmore : more = [] := String.utf8Len_eq_zero.mp (by omega)
    rw [hmore, List.append_nil] at hbefore ⊢
    exact ⟨front, [], after, by rw [List.append_nil]; exact hfront, rfl, rfl⟩

theorem length_le_utf8Len (cs : List Char) : cs.length ≤ utf8Len cs := by
  induction cs with
  | nil => exact le_refl 0
  | cons c cs ih =>
    rw [List.length_cons, String.utf8Len_cons]
    have := c.utf8Size_pos
    omega

/-! ## Terminators begun and ended -/

/-- The two differ between a carriage return and its line feed only. -/
theorem begun_eq_ended (hwhole : ∀ before after, source = before ++ '\r' :: '\n' :: after →
    offset ≠ utf8Len before + 1) : begun source offset = ended source offset := by
  ext t
  constructor
  · intro h
    obtain ⟨hterm, hlt⟩ := h
    refine ⟨hterm, ?_⟩
    cases hterm with
    | pair before after split start finish =>
      have := hwhole before after split
      omega
    | lineFeed _ _ _ _ _ finish => omega
    | carriageReturn _ _ _ _ _ finish => omega
  · exact fun h => ⟨h.1, h.1.lt.trans_le h.2⟩

theorem begun_eq_ended_of_split {before after : List Char} (hsplit : source = before ++ after)
    (hwhole : ¬(before.getLast? = some '\r' ∧ after.head? = some '\n')) :
    begun source (utf8Len before) = ended source (utf8Len before) := by
  refine begun_eq_ended fun front rest hpair hbetween => hwhole ?_
  have hsame : before ++ after = (front ++ ['\r']) ++ '\n' :: rest :=
    hsplit.symm.trans (hpair.trans (List.append_cons ..))
  obtain ⟨rfl, rfl⟩ := append_inj_of_utf8Len hsame (hbetween.trans (utf8Len_concat front '\r').symm)
  exact ⟨List.getLast?_concat, rfl⟩

theorem begun_eq_ended_of_inside (h : ¬Boundary source offset) :
    begun source offset = ended source offset := by
  refine begun_eq_ended fun before after hsplit hoffset => h ?_
  rw [hoffset]
  exact boundary_behind hsplit

namespace SourceLocation

/-! ## Columns -/

variable {text : String} {line : Line}

theorem isValid_iff_boundary :
    (⟨offset⟩ : String.Pos.Raw).isValid text = true ↔ Boundary text.toList offset := by
  rw [String.Pos.Raw.isValid_eq_true_iff, String.Pos.Raw.isValid_iff_exists_append]
  constructor
  · intro h
    obtain ⟨before, after, rfl, hoffset⟩ := h
    refine ⟨before.toList, after.toList, String.toList_append, ?_⟩
    rw [String.utf8Len_toList]
    exact (congrArg String.Pos.Raw.byteIdx hoffset).symm
  · intro h
    obtain ⟨before, after, hsplit, rfl⟩ := h
    refine ⟨String.ofList before, String.ofList after, ?_, ?_⟩
    · rw [← String.ofList_append, ← hsplit, String.ofList_toList]
    · rw [String.Pos.Raw.ext_iff, String.byteIdx_rawEndPos, String.utf8ByteSize_ofList]

theorem charsBetween?_split {before between after : List Char}
    (hsplit : text.toList = before ++ between ++ after) :
    charsBetween? text (utf8Len before) (utf8Len before + utf8Len between) = some between.length := by
  have hfirst : Boundary text.toList (utf8Len before) :=
    ⟨before, between ++ after, by rw [hsplit, List.append_assoc], rfl⟩
  have hlast : Boundary text.toList (utf8Len before + utf8Len between) :=
    ⟨before ++ between, after, hsplit, String.utf8Len_append ..⟩
  rw [charsBetween?, if_pos ⟨Nat.le_add_right _ _, isValid_iff_boundary.mpr hfirst,
    isValid_iff_boundary.mpr hlast⟩, ← String.ofList_toList (s := text), hsplit,
    String.extract_of_valid, String.length_ofList]

/-- Characters count where a character starts. -/
theorem Line.column_split {before between after : List Char}
    (hsplit : text.toList = before ++ between ++ after) (hstart : line.start = utf8Len before) :
    line.column text (utf8Len before + utf8Len between) = between.length := by
  rw [Line.column, hstart, charsBetween?_split hsplit, Option.getD_some]

/-- Bytes count elsewhere. -/
theorem Line.column_inside (h : ¬Boundary text.toList offset) :
    line.column text offset = offset - line.start := by
  rw [Line.column, charsBetween?, if_neg fun hvalid => h (isValid_iff_boundary.mp hvalid.2.2),
    Option.getD_none]

theorem Line.column_of_lt (h : offset < line.start) : line.column text offset = 0 := by
  rw [Line.column, charsBetween?, if_neg fun hle => absurd hle.1 (Nat.not_le.mpr h),
    Option.getD_none, Nat.sub_eq_zero_of_le h.le]

theorem Line.column_le (hstart : Boundary text.toList line.start) :
    line.column text offset ≤ offset - line.start := by
  rcases Nat.lt_or_ge offset line.start with hlt | hle
  · rw [column_of_lt hlt]
    exact Nat.zero_le _
  by_cases hoffset : Boundary text.toList offset
  · obtain ⟨before, between, after, hsplit, hbefore, rfl⟩ := hstart.exists_between hoffset hle
    rw [column_split hsplit hbefore.symm, ← hbefore, Nat.add_sub_cancel_left]
    exact length_le_utf8Len between
  · exact (column_inside hoffset).le

/-! ## Words -/

theorem toNat_clamp (n : Nat) : (clamp n).toNat = min n (UInt32.size - 1) := by
  rw [clamp, UInt32.toNat_ofNat']
  exact Nat.mod_eq_of_lt (Nat.lt_of_le_of_lt (Nat.min_le_right _ _) (by decide))

theorem Line.Follows.toNat_number {terminators : Set (Nat × Nat)} (h : line.Follows terminators)
    (hfew : terminators.ncard < UInt32.size - 1) : line.number.toNat = terminators.ncard + 1 := by
  rw [h.number, UInt32.toNat_ofNat']
  exact Nat.mod_eq_of_lt (by have : UInt32.size = 4294967296 := rfl; omega)

/-! ## The line of an offset -/

theorem Line.Follows.boundary (h : line.Follows (begun source offset)) :
    Boundary source line.start := by
  rcases h.start.1 with hzero | ⟨t, ht, hstop⟩
  · rw [hzero]
    exact ⟨[], source, rfl, rfl⟩
  · rw [← hstop]
    exact ht.1.boundary

theorem Line.Follows.start_le (h : line.Follows (begun source offset))
    (hended : begun source offset = ended source offset) : line.start ≤ offset := by
  rcases h.start.1 with hzero | ⟨t, ht, hstop⟩
  · rw [hzero]
    exact Nat.zero_le _
  · rw [← hstop]
    exact (hended ▸ ht).2

theorem exists_follows (text : String) (offset : UInt32) :
    ∃ line : Line, line.Follows (begun text.toList (min offset.toNat text.utf8ByteSize)) ∧
      ofOffset text offset =
        ⟨line.number, clamp (line.column text (min offset.toNat text.utf8ByteSize) + 1)⟩ :=
  ⟨_, lineAt_follows text _, rfl⟩

theorem Line.Follows.unique {other : Line} {terminators : Set (Nat × Nat)}
    (h : line.Follows terminators) (hother : other.Follows terminators) : line = other := by
  cases line
  cases other
  exact congr (congrArg Line.mk (h.number.trans hother.number.symm)) (h.start.unique hother.start)

/-! ## Exactness -/

/-- A location at a character counts the terminators that end at the offset or before, and the
characters from the end of the last of them on. -/
theorem ofOffset_exact {offset : UInt32} {before after : List Char}
    (hsize : text.utf8ByteSize < UInt32.size - 1) (hsplit : text.toList = before ++ after)
    (hoffset : utf8Len before = min offset.toNat text.utf8ByteSize)
    (hwhole : ¬(before.getLast? = some '\r' ∧ after.head? = some '\n')) :
    (ofOffset text offset).line.toNat = 1 + (ended text.toList (utf8Len before)).ncard ∧
      ∃ earlier line, before = earlier ++ line ∧
        IsGreatest (insert 0 (Prod.snd '' ended text.toList (utf8Len before))) (utf8Len earlier) ∧
        (ofOffset text offset).column.toNat = 1 + line.length := by
  obtain ⟨reached, hfollows, hlocation⟩ := exists_follows text offset
  rw [← hoffset] at hfollows hlocation
  have hended := begun_eq_ended_of_split hsplit hwhole
  have hsmall : utf8Len before < UInt32.size - 1 :=
    (hoffset.trans_le (Nat.min_le_right _ _)).trans_lt hsize
  rw [hlocation]
  constructor
  · rw [hfollows.toNat_number (ncard_begun_le.trans_lt hsmall), hended, Nat.add_comm]
  · obtain ⟨earlier, line, later, hparts, hearlier, hlength⟩ :=
      hfollows.boundary.exists_between ⟨before, after, hsplit, rfl⟩ (hfollows.start_le hended)
    obtain ⟨rfl, rfl⟩ := append_inj_of_utf8Len (hsplit.symm.trans hparts)
      (hlength.trans (String.utf8Len_append ..).symm)
    refine ⟨earlier, line, rfl, ?_, ?_⟩
    · rw [hearlier, ← hended]
      exact hfollows.start
    · have hcount := length_le_utf8Len line
      rw [hlength, Line.column_split hparts hearlier.symm, toNat_clamp]
      omega

theorem letters_located :
    "é\r\n日\r語x".utf8ByteSize < UInt32.size - 1 ∧
      "é\r\n日\r語x".toList = ['é', '\r', '\n', '日', '\r', '語'] ++ ['x'] ∧
      ofOffset "é\r\n日\r語x" 11 = ⟨3, 2⟩ ∧
      (ofOffset "é\r\n日\r語x" 11).line.toNat = 1 + (ended "é\r\n日\r語x".toList 11).ncard ∧
      ∃ earlier line, ['é', '\r', '\n', '日', '\r', '語'] = earlier ++ line ∧
        IsGreatest (insert 0 (Prod.snd '' ended "é\r\n日\r語x".toList 11)) (utf8Len earlier) ∧
        (ofOffset "é\r\n日\r語x" 11).column.toNat = 1 + line.length :=
  ⟨by decide, by decide, by decide,
    @ofOffset_exact "é\r\n日\r語x" 11 ['é', '\r', '\n', '日', '\r', '語'] ['x'] (by decide) (by decide)
      (by decide) (by decide)⟩

/-! ## Order -/

/-- On an earlier line, or on the same and no further to the right. -/
instance : LE SourceLocation where
  le a b := a.line < b.line ∨ a.line = b.line ∧ a.column ≤ b.column

theorem le_iff {a b : SourceLocation} :
    a ≤ b ↔ a.line < b.line ∨ a.line = b.line ∧ a.column ≤ b.column :=
  Iff.rfl

instance (a b : SourceLocation) : Decidable (a ≤ b) := decidable_of_iff' _ le_iff

/-- An offset inside a character is counted past one at a later character of its line: more
bytes stand before the first than characters before the second. -/
structure CountedPast (source : List Char) (a b : Nat) : Prop where
  inside : ¬Boundary source a
  unbroken : ∀ first stop, Terminator source first stop → first < a ∨ b ≤ first
  outrun : ∃ earlier line later, source = earlier ++ line ++ later ∧
    IsGreatest (insert 0 (Prod.snd '' ended source a)) (utf8Len earlier) ∧
    b = utf8Len earlier + utf8Len line ∧ line.length < a - utf8Len earlier

theorem begun_eq_iff {a b : Nat} (hab : a ≤ b) :
    begun source a = begun source b ↔
      ∀ first stop, Terminator source first stop → first < a ∨ b ≤ first := by
  constructor
  · intro h first stop hterm
    rcases Nat.lt_or_ge first b with hlt | hle
    · have hmem : (first, stop) ∈ begun source a := h ▸ ⟨hterm, hlt⟩
      exact Or.inl hmem.2
    · exact Or.inr hle
  · intro h
    refine (begun_mono hab).antisymm fun t ht => ⟨ht.1, ?_⟩
    exact (h t.1 t.2 ht.1).resolve_right (Nat.not_le.mpr ht.2)

/-- From one character to another no column gets less, nor to a byte inside one. -/
theorem Line.column_mono {a b : Nat} (hstart : Boundary text.toList line.start)
    (ha : Boundary text.toList a) (hab : a ≤ b) : line.column text a ≤ line.column text b := by
  rcases Nat.lt_or_ge a line.start with hlt | hle
  · rw [column_of_lt hlt]
    exact Nat.zero_le _
  by_cases hb : Boundary text.toList b
  · obtain ⟨earlier, near, rest, hnear, hearlier, rfl⟩ := hstart.exists_between ha hle
    obtain ⟨front, far, later, hfar, hfront, rfl⟩ := ha.exists_between hb hab
    have hsame : earlier ++ near ++ rest = front ++ (far ++ later) := by
      rw [← hnear, hfar, List.append_assoc]
    obtain ⟨rfl, -⟩ := append_inj_of_utf8Len hsame ((String.utf8Len_append ..).trans hfront.symm)
    rw [List.append_assoc earlier] at hfar
    rw [column_split hnear hearlier.symm, String.utf8Len_append, Nat.add_assoc,
      ← String.utf8Len_append, column_split hfar hearlier.symm, List.length_append]
    exact Nat.le_add_right _ _
  · rw [column_inside hb]
    exact (column_le hstart).trans (Nat.sub_le_sub_right hab _)

theorem column_le_column_iff {a b : Nat} (hfollows : line.Follows (begun text.toList a))
    (hsame : begun text.toList a = begun text.toList b) (hab : a < b) :
    line.column text a ≤ line.column text b ↔ ¬CountedPast text.toList a b := by
  by_cases ha : Boundary text.toList a
  · exact iff_of_true (Line.column_mono hfollows.boundary ha hab.le) fun h => h.inside ha
  have hended := begun_eq_ended_of_inside ha
  have hle := hfollows.start_le hended
  rw [Line.column_inside ha]
  by_cases hb : Boundary text.toList b
  · obtain ⟨earlier, between, later, hparts, hearlier, hlength⟩ :=
      hfollows.boundary.exists_between hb (by omega)
    have hcolumn : line.column text b = between.length := by
      rw [hlength, Line.column_split hparts hearlier.symm]
    rw [hcolumn, ← not_lt, not_iff_not]
    constructor
    · intro hlt
      exact ⟨ha, (begun_eq_iff hab.le).mp hsame, earlier, between, later, hparts,
        hearlier ▸ hended ▸ hfollows.start, hlength, hearlier ▸ hlt⟩
    · intro h
      obtain ⟨front, inner, rest, hsplit, hgreatest, hend, hlt⟩ := h.outrun
      have hstart : line.start = utf8Len front := (hended ▸ hfollows.start).unique hgreatest
      rw [hend, Line.column_split hsplit hstart] at hcolumn
      omega
  · refine iff_of_true ?_ fun h => ?_
    · rw [Line.column_inside hb]
      omega
    · obtain ⟨earlier, between, later, hparts, -, hend, -⟩ := h.outrun
      exact hb ⟨earlier ++ between, later, hparts, (String.utf8Len_append ..).trans hend.symm⟩

theorem clamp_le_clamp_iff {m n : Nat} (hm : m < UInt32.size) : clamp m ≤ clamp n ↔ m ≤ n := by
  rw [UInt32.le_iff_toNat_le, toNat_clamp, toNat_clamp]
  have : UInt32.size = 4294967296 := rfl
  omega

/-- Of two offsets between which a terminator starts the first is on an earlier line. -/
theorem number_lt_number {a b : Nat} {other : Line} (hab : a ≤ b)
    (hfirst : line.Follows (begun source a)) (hsecond : other.Follows (begun source b))
    (hfew : (begun source b).ncard < UInt32.size - 1) (hne : begun source a ≠ begun source b) :
    line.number < other.number := by
  have hlt : (begun source a).ncard < (begun source b).ncard :=
    Set.ncard_lt_ncard ((begun_mono hab).ssubset_of_ne hne) hsecond.finite
  rw [UInt32.lt_iff_toNat_lt, hfirst.toNat_number (hlt.trans hfew), hsecond.toNat_number hfew]
  exact Nat.succ_lt_succ hlt

theorem not_countedPast_self (a : Nat) : ¬CountedPast source a a := by
  intro h
  obtain ⟨earlier, line, later, hparts, -, hend, -⟩ := h.outrun
  exact h.inside ⟨earlier ++ line, later, hparts, (String.utf8Len_append ..).trans hend.symm⟩

/-- A later offset has no earlier location, unless it is counted past. -/
theorem ofOffset_le_iff {a b : UInt32} (hab : a ≤ b)
    (hfew : (begun text.toList b.toNat).ncard < UInt32.size - 1) :
    ofOffset text a ≤ ofOffset text b ↔
      ¬CountedPast text.toList (min a.toNat text.utf8ByteSize) (min b.toNat text.utf8ByteSize) := by
  have hle : min a.toNat text.utf8ByteSize ≤ min b.toNat text.utf8ByteSize :=
    min_le_min_right _ (UInt32.le_iff_toNat_le.mp hab)
  have hword : min b.toNat text.utf8ByteSize < UInt32.size :=
    (Nat.min_le_left _ _).trans_lt b.toNat_lt
  rw [← begun_min_length, String.utf8Len_toList, min_comm] at hfew
  obtain ⟨first, hfirst, hlocation⟩ := exists_follows text a
  obtain ⟨second, hsecond, hlocation'⟩ := exists_follows text b
  rw [hlocation, hlocation', le_iff]
  clear hlocation hlocation'
  generalize min a.toNat text.utf8ByteSize = m at *
  generalize min b.toNat text.utf8ByteSize = n at *
  by_cases hsame : begun text.toList m = begun text.toList n
  · obtain rfl := hfirst.unique (hsame ▸ hsecond)
    rw [or_iff_right (UInt32.lt_irrefl _), and_iff_right rfl]
    rcases hle.eq_or_lt with rfl | hlt
    · exact iff_of_true (UInt32.le_refl _) (not_countedPast_self m)
    · have hcolumn : first.column text m ≤ m := (Line.column_le hfirst.boundary).trans (Nat.sub_le _ _)
      rw [clamp_le_clamp_iff (by omega), Nat.add_le_add_iff_right,
        column_le_column_iff hfirst hsame hlt]
  · exact iff_of_true (Or.inl (number_lt_number hle hfirst hsecond hfew hsame)) fun h =>
      hsame ((begun_eq_iff hle).mpr h.unbroken)

/-- Inside the second of two accented letters three bytes are counted, behind it two letters. -/
theorem accents_counted_back :
    (3 : UInt32) ≤ 4 ∧ ofOffset "éé" 3 = ⟨1, 4⟩ ∧ ofOffset "éé" 4 = ⟨1, 3⟩ ∧
      ¬ofOffset "éé" 3 ≤ ofOffset "éé" 4 := by
  decide

theorem accents_counted_past :
    (begun "éé".toList 4).ncard < UInt32.size - 1 ∧ CountedPast "éé".toList 3 4 ∧
      ofOffset "éé" 1 ≤ ofOffset "éé" 4 ∧ ¬CountedPast "éé".toList 1 4 := by
  have hfew : (begun "éé".toList 4).ncard < UInt32.size - 1 := ncard_begun_le.trans_lt (by decide)
  refine ⟨hfew, not_not.mp fun h => ?_, by decide, ?_⟩
  · exact absurd ((@ofOffset_le_iff "éé" 3 4 (by decide) hfew).mpr h) (by decide)
  · exact (@ofOffset_le_iff "éé" 1 4 (by decide) hfew).mp (by decide)

/-! ## Line numbers that wrap -/

theorem number_lineAt_feeds {n place : Nat} (h : place + n ≤ offset) :
    (lineAt offset line place (List.replicate n 0x0a)).number = line.number + UInt32.ofNat n := by
  induction n generalizing line place with
  | zero => exact (UInt32.add_zero line.number).symm
  | succ n ih =>
    rw [List.replicate_succ, lineAt.eq_3 _ _ _ _ _ fun _ h _ => absurd h (by decide),
      if_pos (by omega), show isTerminator 0x0a = true from rfl, if_pos rfl, ih (by omega),
      UInt32.ofNat_add, UInt32.add_comm (UInt32.ofNat n), ← UInt32.add_assoc]
    rfl

theorem utf8Len_replicate (n : Nat) (c : Char) :
    utf8Len (List.replicate n c) = n * c.utf8Size := by
  induction n with
  | zero => exact (Nat.zero_mul _).symm
  | succ n ih => rw [List.replicate_succ, String.utf8Len_cons, ih, Nat.succ_mul]

/-- Behind `n` line feeds the line is `n + 1`, as far as words count. -/
theorem line_ofOffset_feeds {n : Nat} (h : n < UInt32.size) :
    (ofOffset (String.ofList (List.replicate n '\n')) (UInt32.ofNat n)).line =
      UInt32.ofNat (n + 1) := by
  have hlength : utf8Len (List.replicate n '\n') = n := (utf8Len_replicate n '\n').trans n.mul_one
  have hbytes : (List.replicate n '\n').flatMap String.utf8EncodeChar = List.replicate n 0x0a :=
    List.flatMap_replicate.trans List.flatten_replicate_singleton
  rw [ofOffset, String.utf8ByteSize_ofList, hlength, UInt32.toNat_ofNat_of_lt' h, Nat.min_self,
    toList_toUTF8, String.toList_ofList, hbytes]
  exact (number_lineAt_feeds (by omega)).trans (by rw [Nat.add_comm, UInt32.ofNat_add]; rfl)

/-- One line too many. -/
theorem feeds_wrap : (ofOffset (String.ofList (List.replicate (UInt32.size - 1) '\n'))
    (UInt32.ofNat (UInt32.size - 1))).line = 0 :=
  line_ofOffset_feeds (by decide)

end SourceLocation

end GraphSchema
