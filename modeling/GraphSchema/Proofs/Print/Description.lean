/-
  GraphSchema.Proofs.Print.Description — a description of several lines stays in its block.

  A block stands between two lines of three quotes. It ends at the first three quotes that no
  backslash escapes, so the quotes of a description must be escaped wherever three of them
  stand in a row, and the backslashes and quotes around them must not be read as part of such
  a token.
  - `description_block`: the only quotes that end the block are those of its last line, and
    its lines, without indent and escapes, are the lines of the description.
-/

import GraphSchema.Print.Sdl
import GraphSchema.Proofs.Text.Lines

namespace GraphSchema

namespace Sdl

/-- What stands behind the first three quotes that no backslash escapes. -/
def behindQuotes? : List Char → Option (List Char)
  | '\\' :: '"' :: '"' :: '"' :: rest => behindQuotes? rest
  | '"' :: '"' :: '"' :: rest => some rest
  | _ :: rest => behindQuotes? rest
  | [] => none

/-- Three quotes with a backslash in front lose it. -/
def unescapeTripleQuotes : List Char → List Char
  | '\\' :: '"' :: '"' :: '"' :: rest => '"' :: '"' :: '"' :: unescapeTripleQuotes rest
  | c :: rest => c :: unescapeTripleQuotes rest
  | [] => []

/-- The line a block starts and ends with. -/
def fence (indent : List Char) : List Char := indent ++ ['"', '"', '"']

/-- A line of a block without its end. -/
def writtenLine (indent line : List Char) : List Char :=
  if line.isEmpty then [] else indent ++ escapeTripleQuotes line

variable {line more rest : List Char} {c : Char}

/-! ## Escaped quotes -/

/-- A quote at the start of an escaped line is one of the line and not the first of three. -/
theorem exists_of_escape_eq (hmore : more.head? ≠ some '"')
    (h : escapeTripleQuotes line ++ more = '"' :: rest) :
    ∃ later, line = '"' :: later ∧ rest = escapeTripleQuotes later ++ more ∧
      ∀ last, later ≠ '"' :: '"' :: last := by
  induction line using escapeTripleQuotes.induct with
  | case1 last _ => exact absurd (List.cons.inj h).1 (by decide)
  | case2 c later hsingle _ =>
    rw [escapeTripleQuotes.eq_2 _ _ hsingle] at h
    obtain ⟨rfl, hrest⟩ := List.cons.inj h
    exact ⟨later, rfl, hrest.symm, fun last heq => hsingle last rfl heq⟩
  | case3 => exact absurd (congrArg List.head? h) hmore

theorem escape_ne_tripleQuote (hmore : more.head? ≠ some '"') :
    escapeTripleQuotes line ++ more ≠ '"' :: '"' :: '"' :: rest := by
  intro h
  obtain ⟨second, rfl, hsecond, hthree⟩ := exists_of_escape_eq hmore h
  obtain ⟨third, rfl, hthird, -⟩ := exists_of_escape_eq hmore hsecond.symm
  obtain ⟨last, rfl, -, -⟩ := exists_of_escape_eq hmore hthird.symm
  exact hthree last rfl

/-- No token of the line is read over its end, and none closes the block. -/
theorem behindQuotes?_escape (hmore : more.head? ≠ some '"') :
    behindQuotes? (escapeTripleQuotes line ++ more) = behindQuotes? more := by
  induction line using escapeTripleQuotes.induct with
  | case1 last ih => exact ih
  | case2 c later hsingle ih =>
    rw [escapeTripleQuotes.eq_2 _ _ hsingle, List.cons_append, behindQuotes?.eq_3, ih]
    · exact fun last _ h => escape_ne_tripleQuote hmore h
    · intro last hquote h
      obtain ⟨second, rfl, hsecond, -⟩ := exists_of_escape_eq hmore h
      obtain ⟨third, rfl, -, -⟩ := exists_of_escape_eq hmore hsecond.symm
      exact hsingle third hquote rfl
  | case3 => rfl

theorem unescape_escape (line : List Char) :
    unescapeTripleQuotes (escapeTripleQuotes line) = line := by
  induction line using escapeTripleQuotes.induct with
  | case1 last ih => exact congrArg ('"' :: '"' :: '"' :: ·) ih
  | case2 c later hsingle ih =>
    rw [escapeTripleQuotes.eq_2 _ _ hsingle, unescapeTripleQuotes.eq_2, ih]
    intro last _ h
    refine @escape_ne_tripleQuote later [] last (by decide) ?_
    rw [List.append_nil, h]
  | case3 => rfl

theorem mem_of_mem_escape (hne : c ≠ '\\') (h : c ∈ escapeTripleQuotes line) : c ∈ line := by
  induction line using escapeTripleQuotes.induct with
  | case1 last ih =>
    rw [escapeTripleQuotes.eq_1, List.mem_cons] at h
    rcases h.resolve_left hne with _ | ⟨_, _ | ⟨_, _ | ⟨_, h⟩⟩⟩
    · simp
    · simp
    · simp
    · simp [ih h]
  | case2 first later hsingle ih =>
    rw [escapeTripleQuotes.eq_2 _ _ hsingle, List.mem_cons] at h
    exact List.mem_cons.mpr (h.imp_right ih)
  | case3 => exact h

/-! ## Written lines -/

variable {indent : List Char} {lines : List (List Char)}

theorem behindQuotes?_spaces (hspaces : ∀ c ∈ indent, c = ' ') (rest : List Char) :
    behindQuotes? (indent ++ rest) = behindQuotes? rest := by
  induction indent with
  | nil => rfl
  | cons c indent ih =>
    obtain ⟨rfl, hindent⟩ := List.forall_mem_cons.mp hspaces
    exact ih hindent

theorem behindQuotes?_writtenLine (hspaces : ∀ c ∈ indent, c = ' ') (rest : List Char) :
    behindQuotes? (writtenLine indent line ++ '\n' :: rest) = behindQuotes? rest := by
  rw [writtenLine]
  split
  · rfl
  · rw [List.append_assoc, behindQuotes?_spaces hspaces, behindQuotes?_escape (by simp)]
    rfl

theorem behindQuotes?_writtenLines (hspaces : ∀ c ∈ indent, c = ' ') (rest : List Char) :
    behindQuotes? ((lines.map (writtenLine indent)).flatMap (· ++ ['\n']) ++ rest) =
      behindQuotes? rest := by
  induction lines with
  | nil => rfl
  | cons line lines ih =>
    rw [List.map_cons, List.flatMap_cons, List.append_assoc, List.append_assoc]
    exact (behindQuotes?_writtenLine hspaces _).trans ih

theorem unescape_drop_writtenLine :
    unescapeTripleQuotes ((writtenLine indent line).drop indent.length) = line := by
  rw [writtenLine]
  split
  · rename_i hempty
    rw [List.isEmpty_iff.mp hempty, List.drop_nil]
    rfl
  · rw [List.drop_left, unescape_escape]

theorem feed_notMem_writtenLine (hspaces : ∀ c ∈ indent, c = ' ') (hline : '\n' ∉ line) :
    '\n' ∉ writtenLine indent line := by
  rw [writtenLine]
  split
  · exact List.not_mem_nil
  · rw [List.mem_append, not_or]
    exact ⟨fun h => absurd (hspaces _ h) (by decide),
      fun h => hline (mem_of_mem_escape (by decide) h)⟩

/-! ## Blocks -/

theorem toList_blockLine : (blockLine (String.ofList indent) line).toList =
    writtenLine indent line ++ ['\n'] := by
  rw [blockLine, writtenLine]
  split
  · rfl
  · simp

/-- A block is its lines, each with its end. -/
theorem toList_block (indent text : List Char) : (block (String.ofList indent) text).toList =
    fence indent ++ '\n' :: (((linesOf text).map (writtenLine indent)).flatMap (· ++ ['\n']) ++
      (fence indent ++ ['\n'])) := by
  have hlines : (String.join ((linesOf text).map (blockLine (String.ofList indent)))).toList =
      ((linesOf text).map (writtenLine indent)).flatMap (· ++ ['\n']) := by
    rw [String.toList_join, List.flatMap_map, List.flatMap_map]
    exact congrArg (List.flatMap · (linesOf text)) (funext fun line => toList_blockLine)
  simp [block, hlines, fence, tripleQuote]

theorem splitOn_lines (hfeed : ∀ line ∈ lines, '\n' ∉ line) (rest : List Char) :
    (lines.flatMap (· ++ ['\n']) ++ rest).splitOn '\n' = lines ++ rest.splitOn '\n' := by
  induction lines with
  | nil => rfl
  | cons line lines ih =>
    obtain ⟨hline, hlines⟩ := List.forall_mem_cons.mp hfeed
    rw [List.flatMap_cons, List.append_assoc, List.append_assoc, List.singleton_append,
      List.splitOn_append_cons_self_of_not_mem hline, ih hlines, List.cons_append]

/-- Whatever a description of several lines holds, its block is closed by the quotes of its
last line and holds its lines. -/
theorem description_block {text : String} (hfeed : '\n' ∈ text.toList) (width : Nat) :
    let indent := List.replicate width ' '
    let printed := (description (String.ofList indent) (some text)).toList
    ∃ written, printed.splitOn '\n' = fence indent :: (written ++ [fence indent, []]) ∧
      behindQuotes? (printed.drop (fence indent).length) = some ['\n'] ∧
      (∀ line ∈ written, line ≠ [] → indent <+: line) ∧
      written.map (fun line => unescapeTripleQuotes (line.drop width)) = linesOf text.toList := by
  intro indent printed
  have hspaces : ∀ c ∈ indent, c = ' ' := fun c hc => List.eq_of_mem_replicate hc
  have hfence : '\n' ∉ fence indent := by
    rw [fence, List.mem_append, not_or]
    exact ⟨fun h => absurd (hspaces _ h) (by decide), by decide⟩
  have hprinted : printed = _ := (congrArg String.toList (if_pos (by simpa using hfeed))).trans
    (toList_block indent text.toList)
  refine ⟨(linesOf text.toList).map (writtenLine indent), ?_, ?_, ?_, ?_⟩
  · have hwritten : ∀ line ∈ (linesOf text.toList).map (writtenLine indent), '\n' ∉ line := by
      rw [List.forall_mem_map]
      exact fun line hline =>
        feed_notMem_writtenLine hspaces (feed_notMem_of_mem_linesOf hline)
    rw [hprinted, List.splitOn_append_cons_self_of_not_mem hfence, splitOn_lines hwritten,
      List.splitOn_append_cons_self_of_not_mem hfence]
    rfl
  · rw [hprinted, List.drop_left]
    show behindQuotes? (_ ++ (fence indent ++ ['\n'])) = _
    rw [behindQuotes?_writtenLines hspaces, fence, List.append_assoc, behindQuotes?_spaces hspaces]
    rfl
  · rw [List.forall_mem_map]
    intro line _ hne
    rw [writtenLine] at hne ⊢
    split at hne
    · exact absurd rfl hne
    · rw [if_neg ‹_›]
      exact List.prefix_append _ _
  · have hwidth : width = indent.length := List.length_replicate.symm
    rw [hwidth, List.map_map]
    refine (List.map_congr_left fun line _ => ?_).trans (List.map_id _)
    exact unescape_drop_writtenLine

/-- Four quotes, an empty line, and quotes behind a backslash. -/
theorem remark_block :
    '\n' ∈ "say \"\"\"\"\r\n\n\\\"\"\" end".toList ∧
      description "  " (some "say \"\"\"\"\r\n\n\\\"\"\" end") =
        "  \"\"\"\n  say \\\"\"\"\"\n\n  \\\\\"\"\" end\n  \"\"\"\n" ∧
      let printed := (description (String.ofList (List.replicate 2 ' '))
        (some "say \"\"\"\"\r\n\n\\\"\"\" end")).toList
      ∃ written, printed.splitOn '\n' =
          fence (List.replicate 2 ' ') :: (written ++ [fence (List.replicate 2 ' '), []]) ∧
        behindQuotes? (printed.drop (fence (List.replicate 2 ' ')).length) = some ['\n'] ∧
        (∀ line ∈ written, line ≠ [] → List.replicate 2 ' ' <+: line) ∧
        written.map (fun line => unescapeTripleQuotes (line.drop 2)) =
          linesOf "say \"\"\"\"\r\n\n\\\"\"\" end".toList :=
  ⟨by decide, by decide +kernel, description_block (by decide) 2⟩

end Sdl

end GraphSchema
