/-
  GraphSchema.Proofs.Text.Reading — when printed text can be read in one way only.

  What a value prints tells the value if the text may go on and there is still one way to
  read it: two values that print the same, each before a text that may follow, look alike
  and are followed by the same text (`Tells`). So texts are told part by part, each part
  before what may come after it.
  - A run of characters of one class ends where a character of another comes
    (`tells_run`).
  - Values printed one after another, each behind a mark, end where something comes that
    is not the mark (`Tells.repeated`); so do values printed with a separator between them
    (`Tells.joined`), and a list that prints nothing when it is empty (`Tells.orEmpty`).
-/

import GraphSchema.Text.Lines

namespace GraphSchema

variable {α β : Type}

/-- What a valid value prints, before a text that may follow, tells how the value looks and
where that text begins. -/
def Tells (valid : α → Prop) (print : α → String) (shape : α → β) (follow : List Char → Prop) :
    Prop :=
  ∀ ⦃a b : α⦄ ⦃x y : List Char⦄, valid a → valid b → follow x → follow y →
    (print a).toList ++ x = (print b).toList ++ y → shape a = shape b ∧ x = y

section

variable {valid : α → Prop} {print : α → String} {shape : α → β} {follow : List Char → Prop}

theorem Tells.mono {narrower : List Char → Prop} (h : Tells valid print shape follow)
    (hfollow : ∀ x, narrower x → follow x) : Tells valid print shape narrower :=
  fun _ _ x y ha hb hx hy htext => h ha hb (hfollow x hx) (hfollow y hy) htext

end

/-! ## Runs -/

/-- The text does not go on with a character of the class. -/
def StopsAt (run : Char → Bool) (rest : List Char) : Prop := rest.head?.all fun c => !run c

@[simp] theorem stopsAt_nil (run : Char → Bool) : StopsAt run [] := rfl

@[simp] theorem stopsAt_cons {run : Char → Bool} {c : Char} {rest : List Char} :
    StopsAt run (c :: rest) ↔ run c = false := by
  simp [StopsAt]

theorem stopsAt_of_prefix {run : Char → Bool} {c : Char} {cs x : List Char} (h : c :: cs <+: x)
    (hc : run c = false) : StopsAt run x := by
  obtain ⟨rest, rfl⟩ := h
  exact stopsAt_cons.mpr hc

theorem takeWhile_run {run : Char → Bool} {cs rest : List Char} (hrun : ∀ c ∈ cs, run c = true)
    (hstop : StopsAt run rest) : (cs ++ rest).takeWhile run = cs := by
  rw [List.takeWhile_append_of_pos hrun]
  cases rest with
  | nil => simp
  | cons c rest => simp [stopsAt_cons.mp hstop]

theorem dropWhile_run {run : Char → Bool} {cs rest : List Char} (hrun : ∀ c ∈ cs, run c = true)
    (hstop : StopsAt run rest) : (cs ++ rest).dropWhile run = rest := by
  have hsplit := List.takeWhile_append_dropWhile (p := run) (l := cs ++ rest)
  rw [takeWhile_run hrun hstop] at hsplit
  exact List.append_cancel_left hsplit

/-- A run of characters of one class is read up to the first character of another. -/
theorem tells_run (run : Char → Bool) :
    Tells (fun text : String => ∀ c ∈ text.toList, run c = true) id id (StopsAt run) := by
  intro a b x y ha hb hx hy htext
  have hsame : a.toList = b.toList := by
    rw [← takeWhile_run ha hx, ← takeWhile_run hb hy]
    exact congrArg (List.takeWhile run) htext
  refine ⟨String.toList_inj.mp hsame, ?_⟩
  rw [id, id, hsame] at htext
  exact List.append_cancel_left htext

/-! ## One after another -/

section

variable {valid : α → Prop} {print : α → String} {shape : α → β} {follow : List Char → Prop}
  {mark : String}

/-- Each value behind a mark. -/
def marked (mark : String) (print : α → String) (as : List α) : String :=
  String.join (as.map fun a => mark ++ print a)

theorem toList_marked_cons (mark : String) (print : α → String) (a : α) (as : List α) :
    (marked mark print (a :: as)).toList =
      mark.toList ++ ((print a).toList ++ (marked mark print as).toList) := by
  simp [marked, String.toList_join]

/-- After a value comes either the mark of the next or what follows them all. -/
theorem follow_marked {x : List Char} (hx : follow x) (as : List α) :
    follow ((marked mark print as).toList ++ x) ∨
      mark.toList <+: (marked mark print as).toList ++ x := by
  cases as with
  | nil => exact Or.inl hx
  | cons a rest =>
    rw [toList_marked_cons, List.append_assoc]
    exact Or.inr (List.prefix_append _ _)

/-- Values behind marks are told one by one, if each is told before a mark and what follows
them all does not look like one. -/
theorem Tells.repeated
    (h : Tells valid print shape fun x => follow x ∨ mark.toList <+: x)
    (hend : ∀ x, follow x → ¬ mark.toList <+: x) :
    Tells (fun as => ∀ a ∈ as, valid a) (marked mark print) (List.map shape) follow := by
  intro as
  induction as with
  | nil =>
    intro bs x y _ _ hx _ htext
    cases bs with
    | nil => exact ⟨rfl, htext⟩
    | cons b rest =>
      refine absurd ?_ (hend x hx)
      rw [show x = (marked mark print (b :: rest)).toList ++ y from htext, toList_marked_cons,
        List.append_assoc]
      exact List.prefix_append _ _
  | cons a rest ih =>
    intro bs x y has hbs hx hy htext
    cases bs with
    | nil =>
      refine absurd ?_ (hend y hy)
      rw [show y = (marked mark print (a :: rest)).toList ++ x from htext.symm, toList_marked_cons,
        List.append_assoc]
      exact List.prefix_append _ _
    | cons b others =>
      rw [List.forall_mem_cons] at has hbs
      simp only [toList_marked_cons, List.append_assoc, List.append_cancel_left_eq] at htext
      obtain ⟨hfirst, htext⟩ :=
        h has.1 hbs.1 (follow_marked hx rest) (follow_marked hy others) htext
      obtain ⟨hrest, hxy⟩ := ih has.2 hbs.2 hx hy htext
      exact ⟨List.cons_eq_cons.mpr ⟨hfirst, hrest⟩, hxy⟩

theorem joinWith_cons (separator text : String) (texts : List String) :
    joinWith separator (text :: texts) = text ++ marked separator id texts := by
  induction texts generalizing text with
  | nil => exact (String.append_empty).symm
  | cons next rest ih =>
    have hunfold : joinWith separator (text :: next :: rest) =
        text ++ separator ++ joinWith separator (next :: rest) := rfl
    apply String.toList_inj.mp
    simp only [hunfold, ih, String.toList_append, toList_marked_cons, id, List.append_assoc]

/-- A printer that writes a separator before every value but the first joins them. -/
theorem eq_joinWith {separator : String} {joined : List α → String} (hnil : joined [] = "")
    (hone : ∀ a, joined [a] = print a)
    (hmore : ∀ a b rest, joined (a :: b :: rest) = print a ++ separator ++ joined (b :: rest))
    (as : List α) : joined as = joinWith separator (as.map print) := by
  induction as with
  | nil => exact hnil
  | cons a rest ih =>
    cases rest with
    | nil => exact hone a
    | cons b others =>
      rw [hmore, ih]
      rfl

theorem marked_map (mark : String) (print : α → String) (as : List α) :
    marked mark id (as.map print) = marked mark print as := by
  rw [marked, marked, List.map_map]
  rfl

theorem joinWith_map_cons (separator : String) (print : α → String) (a : α) (as : List α) :
    joinWith separator ((a :: as).map print) = print a ++ marked separator print as := by
  rw [List.map_cons, joinWith_cons, marked_map]

/-- Values with a separator between them are told one by one. -/
theorem Tells.joined
    (h : Tells valid print shape fun x => follow x ∨ mark.toList <+: x)
    (hend : ∀ x, follow x → ¬ mark.toList <+: x) :
    Tells (fun as => as ≠ [] ∧ ∀ a ∈ as, valid a) (fun as => joinWith mark (as.map print))
      (List.map shape) follow := by
  intro as bs x y has hbs hx hy htext
  obtain ⟨a, rest, rfl⟩ := List.exists_cons_of_ne_nil has.1
  obtain ⟨b, others, rfl⟩ := List.exists_cons_of_ne_nil hbs.1
  obtain ⟨ha, hrest⟩ := List.forall_mem_cons.mp has.2
  obtain ⟨hb, hothers⟩ := List.forall_mem_cons.mp hbs.2
  simp only [joinWith_map_cons, String.toList_append, List.append_assoc] at htext
  obtain ⟨hfirst, htext⟩ := h ha hb (follow_marked hx rest) (follow_marked hy others) htext
  obtain ⟨hlater, hxy⟩ := h.repeated hend hrest hothers hx hy htext
  exact ⟨List.cons_eq_cons.mpr ⟨hfirst, hlater⟩, hxy⟩

/-- A list of which nothing is printed when it is empty is told also then, if else what is
printed does not look like what follows. -/
theorem Tells.orNothing {print : List α → String}
    (h : Tells (fun as => as ≠ [] ∧ ∀ a ∈ as, valid a) print (List.map shape) follow)
    (hempty : print [] = "")
    (hnot : ∀ a as x, valid a → ¬ follow ((print (a :: as)).toList ++ x)) :
    Tells (fun as => ∀ a ∈ as, valid a) print (List.map shape) follow := by
  intro as bs x y has hbs hx hy htext
  cases as with
  | nil =>
    cases bs with
    | nil => exact ⟨rfl, List.append_cancel_left htext⟩
    | cons b others =>
      rw [hempty, String.toList_empty, List.nil_append] at htext
      exact absurd (htext ▸ hx) (hnot b others y (hbs b (List.mem_cons_self ..)))
  | cons a rest =>
    cases bs with
    | nil =>
      rw [hempty, String.toList_empty, List.nil_append] at htext
      exact absurd (htext ▸ hy) (hnot a rest x (has a (List.mem_cons_self ..)))
    | cons b others =>
      exact h ⟨List.cons_ne_nil a rest, has⟩ ⟨List.cons_ne_nil b others, hbs⟩ hx hy htext

/-- So it is if else it starts with a mark that what follows does not look like. -/
theorem Tells.orEmpty {print : List α → String} (mark : String)
    (h : Tells (fun as => as ≠ [] ∧ ∀ a ∈ as, valid a) print (List.map shape) follow)
    (hempty : print [] = "") (hmark : ∀ a as, mark.toList <+: (print (a :: as)).toList)
    (hend : ∀ x, follow x → ¬ mark.toList <+: x) :
    Tells (fun as => ∀ a ∈ as, valid a) print (List.map shape) follow :=
  h.orNothing hempty fun a as _ _ hfollow =>
    hend _ hfollow ((hmark a as).trans (List.prefix_append _ _))

end

end GraphSchema
