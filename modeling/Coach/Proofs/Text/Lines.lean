import Coach.Proofs.Text.Blank
import Coach.Proofs.Text.Parts

/-!
# Pieces and lines

Splitting at a character and joining with it are inverse to each other, and a text can be split part by
part when the cut is at the end of a line.

## Main definitions

* `LineEnd`: a text before which a line ends
* `linesBehind`: the lines that follow that line

## Main statements

* `joinWith_splitOn`, `splitOn_joinWith`: splitting and joining
* `splitOn_append_lineEnd`: the lines up to a line's end, and those behind
* `joinWith_at`: a text around one of its lines
-/

namespace Coach.Text

section SplitOn

variable {c : Char}

theorem splitOn_ne_nil (c : Char) (text : List Char) : splitOn c text ≠ [] := by
  induction text with
  | nil => simp [splitOn]
  | cons x rest ih =>
    rw [splitOn]
    split
    · simp
    · cases h : splitOn c rest with
      | nil => exact absurd h ih
      | cons piece pieces => simp

theorem splitOn_cons_self (c : Char) (rest : List Char) : splitOn c (c :: rest) = [] :: splitOn c rest := by
  rw [splitOn, if_pos rfl]

/-- A text without the separator belongs to the first piece of what follows it. -/
theorem splitOn_append_of_notMem {text rest part : List Char} {parts : List (List Char)} (h : c ∉ text)
    (hrest : splitOn c rest = part :: parts) :
    splitOn c (text ++ rest) = (text ++ part) :: parts := by
  induction text with
  | nil => exact hrest
  | cons x text ih =>
    rw [List.mem_cons, not_or] at h
    rw [List.cons_append, splitOn, if_neg (Ne.symm h.1), ih h.2]
    rfl

theorem splitOn_of_notMem {text : List Char} (h : c ∉ text) : splitOn c text = [text] := by
  have happend := splitOn_append_of_notMem h (rfl : splitOn c [] = [[]])
  rwa [List.append_nil] at happend

/-- A piece with the pieces that follow it, for a text that is not split at its beginning. -/
theorem splitOn_cons_of_ne {x : Char} (h : x ≠ c) {rest part : List Char} {parts : List (List Char)}
    (hrest : splitOn c rest = part :: parts) : splitOn c (x :: rest) = (x :: part) :: parts := by
  rw [splitOn, if_neg h, hrest]

/-- At a separator a text is split part by part. -/
theorem splitOn_append_separator (text rest : List Char) :
    splitOn c (text ++ c :: rest) = splitOn c text ++ splitOn c rest := by
  induction text with
  | nil => exact splitOn_cons_self c rest
  | cons x text ih =>
    by_cases hx : x = c
    · subst hx
      rw [List.cons_append, splitOn_cons_self, splitOn_cons_self, ih]
      rfl
    · obtain ⟨part, parts, hparts⟩ := List.exists_cons_of_ne_nil (splitOn_ne_nil c text)
      rw [hparts] at ih
      rw [List.cons_append, splitOn_cons_of_ne hx ih, splitOn_cons_of_ne hx hparts]
      rfl

/-- No piece contains the separator. -/
theorem notMem_of_mem_splitOn {text piece : List Char} (h : piece ∈ splitOn c text) : c ∉ piece := by
  induction text generalizing piece with
  | nil =>
    rw [List.mem_singleton.mp h]
    exact List.not_mem_nil
  | cons x text ih =>
    by_cases hx : x = c
    · subst hx
      rw [splitOn_cons_self] at h
      rcases List.mem_cons.mp h with rfl | h
      · exact List.not_mem_nil
      · exact ih h
    · obtain ⟨part, parts, hparts⟩ := List.exists_cons_of_ne_nil (splitOn_ne_nil c text)
      rw [splitOn_cons_of_ne hx hparts] at h
      rw [hparts] at ih
      rcases List.mem_cons.mp h with rfl | h
      · rw [List.mem_cons, not_or]
        exact ⟨Ne.symm hx, ih List.mem_cons_self⟩
      · exact ih (List.mem_cons_of_mem _ h)

theorem joinWith_cons {piece : List Char} {pieces : List (List Char)} (h : pieces ≠ []) :
    joinWith [c] (piece :: pieces) = piece ++ c :: joinWith [c] pieces := by
  obtain ⟨next, pieces, rfl⟩ := List.exists_cons_of_ne_nil h
  rw [joinWith, List.append_assoc]
  rfl

/-- Pieces in front of others are joined with a separator behind each. -/
theorem joinWith_append (pieces : List (List Char)) {others : List (List Char)} (h : others ≠ []) :
    joinWith [c] (pieces ++ others) = pieces.flatMap (· ++ [c]) ++ joinWith [c] others := by
  induction pieces with
  | nil => rfl
  | cons piece pieces ih =>
    rw [List.cons_append, joinWith_cons (by simp [h]), ih, List.flatMap_cons]
    simp only [List.append_assoc, List.cons_append, List.nil_append]

/-- The pieces of a text are joined to it. -/
theorem joinWith_splitOn (c : Char) (text : List Char) : joinWith [c] (splitOn c text) = text := by
  induction text with
  | nil => rfl
  | cons x text ih =>
    by_cases hx : x = c
    · subst hx
      rw [splitOn_cons_self, joinWith_cons (splitOn_ne_nil _ _), ih]
      rfl
    · obtain ⟨part, parts, hparts⟩ := List.exists_cons_of_ne_nil (splitOn_ne_nil c text)
      rw [hparts] at ih
      rw [splitOn_cons_of_ne hx hparts, ← ih]
      cases parts with
      | nil => rfl
      | cons next parts => rfl

/-- What is joined is split again. -/
theorem splitOn_joinWith {pieces : List (List Char)} (hne : pieces ≠ [])
    (h : ∀ piece ∈ pieces, c ∉ piece) : splitOn c (joinWith [c] pieces) = pieces := by
  induction pieces with
  | nil => exact absurd rfl hne
  | cons piece pieces ih =>
    have hpiece := h piece List.mem_cons_self
    cases pieces with
    | nil => exact splitOn_of_notMem hpiece
    | cons next pieces =>
      rw [joinWith_cons (List.cons_ne_nil _ _), splitOn_append_separator, splitOn_of_notMem hpiece,
        ih (List.cons_ne_nil _ _) fun other hother => h other (List.mem_cons_of_mem _ hother)]
      rfl

/-- The pieces of texts that are joined are those of each. -/
theorem splitOn_joinWith_flatMap {texts : List (List Char)} (h : texts ≠ []) :
    splitOn c (joinWith [c] texts) = texts.flatMap (splitOn c) := by
  induction texts with
  | nil => exact absurd rfl h
  | cons text texts ih =>
    cases texts with
    | nil => simp [joinWith]
    | cons next texts =>
      rw [joinWith_cons (List.cons_ne_nil _ _), splitOn_append_separator, ih (List.cons_ne_nil _ _)]
      rfl

theorem length_splitOn (c : Char) (text : List Char) : (splitOn c text).length = text.count c + 1 := by
  induction text with
  | nil => rfl
  | cons x text ih =>
    by_cases hx : x = c
    · subst hx
      rw [splitOn_cons_self, List.length_cons, ih, List.count_cons_self]
    · obtain ⟨part, parts, hparts⟩ := List.exists_cons_of_ne_nil (splitOn_ne_nil c text)
      rw [splitOn_cons_of_ne hx hparts, List.count_cons_of_ne hx, ← ih, hparts]
      rfl

end SplitOn

/-! ### Where a line ends -/

/-- A line ends before the text. -/
def LineEnd (after : List Char) : Prop := ∀ c, after.head? = some c → c = '\n'

/-- The lines behind the end of a line. -/
def linesBehind : List Char → List (List Char)
  | [] => []
  | _ :: rest => splitOn '\n' rest

theorem lineEnd_nil : LineEnd [] := nofun

theorem lineEnd_newline (rest : List Char) : LineEnd ('\n' :: rest) := fun _ h => (Option.some.inj h).symm

theorem LineEnd.cases {after : List Char} (h : LineEnd after) :
    after = [] ∨ ∃ rest, after = '\n' :: rest := by
  cases after with
  | nil => exact Or.inl rfl
  | cons c rest => exact Or.inr ⟨rest, by rw [h c rfl]⟩

theorem lineEnd_dropWhile (text : List Char) : LineEnd (text.dropWhile (· != '\n')) := fun c hc =>
  bne_eq_false_iff_eq.mp (of_mem_head_dropWhile c hc)

/-- A text up to the end of its first line. -/
theorem exists_lineEnd (text : List Char) :
    ∃ line after, text = line ++ after ∧ '\n' ∉ line ∧ LineEnd after :=
  ⟨text.takeWhile (· != '\n'), _, List.takeWhile_append_dropWhile.symm,
    fun hmem => absurd (of_mem_takeWhile '\n' hmem) (by decide),
    lineEnd_dropWhile text⟩

/-- The lines up to a line's end, and those behind it. -/
theorem splitOn_append_lineEnd (text : List Char) {after : List Char} (h : LineEnd after) :
    splitOn '\n' (text ++ after) = splitOn '\n' text ++ linesBehind after := by
  rcases h.cases with rfl | ⟨rest, rfl⟩
  · rw [List.append_nil, linesBehind, List.append_nil]
  · exact splitOn_append_separator text rest

/-- What follows the last line of a text without a newline belongs to that line. -/
theorem splitOn_concat {text line more : List Char} {above : List (List Char)}
    (h : splitOn '\n' text = above ++ [line]) (hmore : '\n' ∉ more) :
    splitOn '\n' (text ++ more) = above ++ [line ++ more] := by
  have hpieces : ∀ piece ∈ above ++ [line ++ more], '\n' ∉ piece := by
    have hsplit : ∀ piece ∈ above ++ [line], '\n' ∉ piece := fun piece hpiece =>
      notMem_of_mem_splitOn (h ▸ hpiece)
    intro piece hpiece
    rcases List.mem_append.mp hpiece with hpiece | hpiece
    · exact hsplit piece (List.mem_append_left _ hpiece)
    · rw [List.mem_singleton.mp hpiece, List.mem_append, not_or]
      exact ⟨hsplit line (by simp), hmore⟩
  have htext : text ++ more = joinWith ['\n'] (above ++ [line ++ more]) := by
    rw [joinWith_append _ (List.cons_ne_nil _ _), ← joinWith_splitOn '\n' text, h,
      joinWith_append _ (List.cons_ne_nil _ _), List.append_assoc]
    rfl
  rw [htext, splitOn_joinWith (by simp) hpieces]

/-- White space behind a text lengthens its lines by white space at most. -/
theorem exists_line_of_append_blanks {text blanks line : List Char} (hblanks : ∀ c ∈ blanks, isSpace c = true)
    (h : line ∈ splitOn '\n' text) :
    ∃ longer ∈ splitOn '\n' (text ++ blanks), strip longer = strip line := by
  obtain ⟨run, after, rfl, hrun, hafter⟩ := exists_lineEnd blanks
  obtain ⟨above, last, hsplit⟩ : ∃ above last, splitOn '\n' text = above ++ [last] :=
    ⟨_, _, (List.dropLast_concat_getLast (splitOn_ne_nil '\n' text)).symm⟩
  rw [← List.append_assoc, splitOn_append_lineEnd _ hafter, splitOn_concat hsplit hrun]
  rw [hsplit] at h
  rcases List.mem_append.mp h with habove | hlast
  · exact ⟨line, by simp [habove], rfl⟩
  · rw [List.mem_singleton.mp hlast]
    exact ⟨last ++ run, by simp, strip_append_blanks (fun c hc => hblanks c (List.mem_append_left _ hc)) last⟩

/-- A text around one of its lines. -/
theorem joinWith_at (above below : List (List Char)) :
    ∃ after, LineEnd after ∧ ∀ line, joinWith ['\n'] (above ++ line :: below) =
      above.flatMap (· ++ ['\n']) ++ (line ++ after) := by
  cases below with
  | nil =>
    refine ⟨[], lineEnd_nil, fun line => ?_⟩
    rw [joinWith_append _ (List.cons_ne_nil _ _), List.append_nil]
    rfl
  | cons next below =>
    refine ⟨_, lineEnd_newline (joinWith ['\n'] (next :: below)), fun line => ?_⟩
    rw [joinWith_append _ (List.cons_ne_nil _ _), joinWith_cons (List.cons_ne_nil _ _)]

end Coach.Text
