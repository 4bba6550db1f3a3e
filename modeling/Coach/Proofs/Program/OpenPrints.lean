import Coach.Program.Shape
import Coach.Proofs.Source.LineEnds
import Coach.Proofs.Text.Language

/-!
# Print statements without a semicolon

The check of a program's shape reports the first line that is a print statement without its semicolon.
Whether a line is one is told by its masked text, which must end with a parenthesis but for white space.
This module says what becomes of such a report when a semicolon is put at the end of its line, or at the
end of the line before.

## Main definitions

* `IsOpenPrint`: a line that is a print statement without its semicolon
* `FirstOpenPrint`: the line of a text that is the first such line

## Main statements

* `isOpenPrint_iff`: an opening, its arguments, a parenthesis and white space
* `not_firstOpenPrint_of_keepsSemicolon`, `FirstOpenPrint.semicolon_masked`: a semicolon at the end of
  the line that is reported, as code and within a comment
* `FirstOpenPrint.semicolon_above`: a semicolon at the end of the line before
-/

namespace Coach.Program

open Coach.Source Coach.Text

/-- A print statement without its semicolon. -/
def openPrint : Dialect → Pattern
  | .java => openJavaPrint
  | .c => openCPrint

/-- What a print statement begins with, up to its opening parenthesis. -/
def printOpening : Dialect → List Pattern
  | .java => [.space, .text "System", .space, .char '.', .space, .text "out", .space, .char '.', .space,
      .text "print", .optional (.alt (.text "ln") (.text "f")), .space, .char '(']
  | .c => [.space, .alt (.text "printf") (.text "puts"), .space, .char '(']

/-- The first character of a print statement. -/
def printInitial : Dialect → Char
  | .java => 'S'
  | .c => 'p'

/-- The line is a print statement without its semicolon. -/
def IsOpenPrint (dialect : Dialect) (line : List Char) : Prop :=
  ((openPrint dialect).match? line).isSome = true

instance (dialect : Dialect) : DecidablePred (IsOpenPrint dialect) := fun line =>
  inferInstanceAs (Decidable (((openPrint dialect).match? line).isSome = true))

/-! ### One line -/

section Line

variable {dialect : Dialect} {line : List Char}

theorem isSpace_printInitial (dialect : Dialect) : isSpace (printInitial dialect) = false := by
  cases dialect <;> decide

theorem plain_printOpening (dialect : Dialect) : (Pattern.all (printOpening dialect)).Plain := by
  cases dialect with
  | java => simp [printOpening, Pattern.all, Pattern.Plain, Pattern.space, Pattern.char,
      Pattern.optional, Pattern.plain_text]
  | c => simp [printOpening, Pattern.all, Pattern.Plain, Pattern.space, Pattern.char,
      Pattern.plain_text]

theorem openPrint_eq (dialect : Dialect) : openPrint dialect =
    .all (printOpening dialect ++ [.lineRest, .char ')', .space, .atLastLineEnd]) := by
  cases dialect <;> rfl

theorem steady_openPrint (dialect : Dialect) : (openPrint dialect).Steady := by
  have hrest : Pattern.lineRest.Steady := Pattern.steady_star_one _
  cases dialect with
  | java => simp [openPrint, openJavaPrint, Pattern.all, Pattern.Steady, Pattern.steady_space,
      Pattern.char, Pattern.optional, Pattern.steady_text, hrest, Pattern.atLastLineEnd]
  | c => simp [openPrint, openCPrint, Pattern.all, Pattern.Steady, Pattern.steady_space, Pattern.char,
      Pattern.steady_text, hrest, Pattern.atLastLineEnd]

/-- An opening, arguments, a parenthesis and white space. -/
theorem isOpenPrint_iff (hline : '\n' ∉ line) :
    IsOpenPrint dialect line ↔ ∃ opening arguments blanks,
      line = opening ++ (arguments ++ ')' :: blanks) ∧ (Pattern.all (printOpening dialect)).Takes opening ∧
        ∀ c ∈ blanks, isSpace c = true := by
  have hmatch : IsOpenPrint dialect line ↔
      ∃ c', (openPrint dialect).Matches (.behind [] line []) c' := by
    rw [IsOpenPrint, Pattern.match?]
    exact Pattern.isSome_matchAt? (steady_openPrint dialect) _
  simp only [hmatch, openPrint_eq, Pattern.matches_all_append (List.cons_ne_nil _ _)]
  constructor
  · rintro ⟨_, _, hopening, _, harguments, _, hclose, _, hspace, hend, rfl⟩
    obtain ⟨opening, rest, _, rfl, htaken, rfl⟩ :=
      Pattern.exists_takes_of_matches (plain_printOpening dialect) hopening
    obtain ⟨arguments, rest, rfl, -, rfl⟩ := Pattern.matches_star_one.mp harguments
    obtain ⟨rest, rfl, rfl⟩ := Pattern.matches_char.mp hclose
    obtain ⟨blanks, rest, rfl, hblanks, rfl⟩ := Pattern.matches_space.mp hspace
    have hrest : rest = [] := by
      simp only [Cursor.behind, Bool.or_eq_true, List.isEmpty_iff, beq_iff_eq] at hend
      rcases hend with hrest | hrest
      · exact hrest
      · subst hrest
        exact absurd (by simp) hline
    subst hrest
    exact ⟨opening, arguments, blanks, by simp, htaken, hblanks⟩
  · rintro ⟨opening, arguments, blanks, rfl, hopening, hblanks⟩
    have harguments : ∀ c ∈ arguments, (c != '\n') = true := by
      intro c hc
      refine bne_iff_ne.mpr ?_
      rintro rfl
      exact hline (by simp [hc])
    obtain ⟨_, hmatches⟩ := Pattern.matches_of_takes (plain_printOpening dialect) hopening
    refine ⟨_, _, hmatches, _,
      Pattern.matches_star_one.mpr ⟨arguments, _, rfl, harguments, rfl⟩, _,
      Pattern.matches_char.mpr ⟨blanks, rfl, rfl⟩, _,
      Pattern.matches_space.mpr ⟨blanks, [], (List.append_nil blanks).symm, hblanks, rfl⟩, rfl, rfl⟩

/-- An opening begins with its first word, but for white space. -/
theorem exists_initial_of_takes {opening : List Char}
    (h : (Pattern.all (printOpening dialect)).Takes opening) : ∃ blanks more, opening = blanks ++ printInitial dialect :: more ∧
      ∀ c ∈ blanks, isSpace c = true := by
  cases dialect with
  | java =>
    obtain ⟨blanks, _, rfl, hblanks, _, rest, rfl, hword, -⟩ := h
    obtain rfl := Pattern.takes_text.mp hword
    exact ⟨blanks, "ystem".toList ++ rest, rfl, Pattern.takes_space.mp hblanks⟩
  | c =>
    obtain ⟨blanks, _, rfl, hblanks, _, rest, rfl, hword | hword, -⟩ := h
    · obtain rfl := Pattern.takes_text.mp hword
      exact ⟨blanks, "rintf".toList ++ rest, rfl, Pattern.takes_space.mp hblanks⟩
    · obtain rfl := Pattern.takes_text.mp hword
      exact ⟨blanks, "uts".toList ++ rest, rfl, Pattern.takes_space.mp hblanks⟩

namespace IsOpenPrint

theorem ends (hline : '\n' ∉ line) (h : IsOpenPrint dialect line) :
    ∃ before blanks, line = before ++ ')' :: blanks ∧ ∀ c ∈ blanks, isSpace c = true := by
  obtain ⟨opening, arguments, blanks, rfl, -, hblanks⟩ := (isOpenPrint_iff hline).mp h
  exact ⟨opening ++ arguments, blanks, by simp, hblanks⟩

theorem begins (hline : '\n' ∉ line) (h : IsOpenPrint dialect line) :
    ∃ blanks more, line = blanks ++ printInitial dialect :: more ∧ ∀ c ∈ blanks, isSpace c = true := by
  obtain ⟨_, arguments, blanks', rfl, hopening, -⟩ := (isOpenPrint_iff hline).mp h
  obtain ⟨blanks, more, rfl, hblanks⟩ := exists_initial_of_takes hopening
  exact ⟨blanks, _, by rw [List.append_assoc]; rfl, hblanks⟩

/-- White space at the end of a line decides nothing. -/
theorem append_blanks {blanks blanks' : List Char} (hline : '\n' ∉ line ++ blanks)
    (hblanks : ∀ c ∈ blanks, isSpace c = true) (hline' : '\n' ∉ blanks')
    (hblanks' : ∀ c ∈ blanks', isSpace c = true) (h : IsOpenPrint dialect (line ++ blanks)) :
    IsOpenPrint dialect (line ++ blanks') := by
  obtain ⟨opening, arguments, tail, heq, hopening, htail⟩ := (isOpenPrint_iff hline).mp h
  obtain ⟨more, rfl, rfl⟩ := exists_of_append_blanks (by decide) hblanks
    (heq.trans (List.append_assoc opening arguments _).symm)
  have hline'' : '\n' ∉ opening ++ arguments ++ ')' :: more ++ blanks' := by
    rw [List.mem_append, not_or] at hline ⊢
    exact ⟨hline.1, hline'⟩
  refine (isOpenPrint_iff hline'').mpr ⟨opening, arguments, more ++ blanks', by simp, hopening, ?_⟩
  intro c hc
  rcases List.mem_append.mp hc with hc | hc
  · exact htail c (List.mem_append_left _ hc)
  · exact hblanks' c hc

/-- A print statement is one of a single language. -/
theorem dialect_eq {other : Dialect} (hline : '\n' ∉ line) (h : IsOpenPrint dialect line)
    (hother : IsOpenPrint other line) : dialect = other := by
  obtain ⟨blanks, more, heq, hblanks⟩ := h.begins hline
  obtain ⟨blanks', more', heq', hblanks'⟩ := hother.begins hline
  have hsame := (blanks_append_inj (isSpace_printInitial _) (isSpace_printInitial _) hblanks hblanks'
    (heq.symm.trans heq')).2.1
  cases dialect <;> cases other <;> first | rfl | exact absurd hsame (by decide)

end IsOpenPrint

theorem not_isOpenPrint_semicolon (hline : '\n' ∉ line) : ¬ IsOpenPrint dialect (line ++ [';']) := by
  intro h
  obtain ⟨before, blanks, heq, hblanks⟩ := h.ends (by simpa using hline)
  have hsame := append_blanks_inj (by decide) (by decide) (List.forall_mem_nil _) hblanks heq
  exact absurd hsame.2.1 (by decide)

/-- A line that ends with a quote ends with no parenthesis. -/
theorem not_isOpenPrint_of_endsInQuote {above : List (List Char)} {text : List Char}
    (h : splitOn '\n' text = above ++ [line]) (hends : EndsInQuote text) :
    ¬ IsOpenPrint dialect line := by
  intro hopen
  have hline : '\n' ∉ line := notMem_of_mem_splitOn (h ▸ List.mem_append_right above (by simp))
  obtain ⟨before, blanks, rfl, hblanks⟩ := hopen.ends hline
  obtain ⟨before', quote, blanks', htext, hquote, hblanks'⟩ := hends
  have hjoin : text = above.flatMap (· ++ ['\n']) ++ before ++ ')' :: blanks := by
    rw [← joinWith_splitOn '\n' text, h, joinWith_append _ (List.cons_ne_nil _ _), List.append_assoc]
    rfl
  have hspace : isSpace quote = false :=
    not_isSpace_of_class (by decide) hquote
  have hsame := append_blanks_inj (by decide) hspace hblanks hblanks' (hjoin.symm.trans htext)
  rw [← hsame.2.1] at hquote
  cases hquote

/-- A line that begins within a literal begins with no word. -/
theorem not_isOpenPrint_of_beginsInLiteral {below : List (List Char)} {text : List Char}
    (h : splitOn '\n' text = line :: below) (hbegins : BeginsInLiteral text) :
    ¬ IsOpenPrint dialect line := by
  intro hopen
  have hline : '\n' ∉ line := notMem_of_mem_splitOn (h ▸ List.mem_cons_self)
  obtain ⟨blanks, more, rfl, hblanks⟩ := hopen.begins hline
  obtain ⟨blanks', after, htext, hblanks', hafter⟩ := hbegins
  obtain ⟨rest, -, hjoin⟩ := joinWith_at [] below
  have hword : text = blanks ++ printInitial dialect :: (more ++ rest) := by
    rw [← joinWith_splitOn '\n' text, h, ← List.nil_append (_ :: below), hjoin]
    simp
  have hinitial : ¬ isSpace (printInitial dialect) = true := by
    rw [isSpace_printInitial]
    decide
  have hrun : text.takeWhile isSpace = blanks := by
    rw [hword, List.takeWhile_append_of_pos hblanks, List.takeWhile_cons_of_neg hinitial, List.append_nil]
  have hfirst : (text.dropWhile isSpace).head? = some (printInitial dialect) := by
    rw [hword, List.dropWhile_append_of_pos hblanks, List.dropWhile_cons_of_neg hinitial, List.head?_cons]
  rw [htext, List.takeWhile_append_of_pos hblanks'] at hrun
  rw [htext, List.dropWhile_append_of_pos hblanks'] at hfirst
  cases after with
  | nil => cases hfirst
  | cons c after =>
    rcases hafter c rfl with rfl | hquote
    · rw [List.takeWhile_cons_of_pos (by decide)] at hrun
      exact hline (by simp [← hrun])
    · rw [List.dropWhile_cons_of_neg (by rw [not_isSpace_of_class (by decide) hquote]; decide)] at hfirst
      obtain rfl := Option.some.inj hfirst
      cases dialect <;> cases hquote

end Line

/-! ### The first such line -/

/-- The first line that matches, around which the others stand. -/
theorem firstLine?_eq_some_iff {p : Pattern} {first number : Nat} {lines : List (List Char)} :
    firstLine? p first lines = some number ↔ ∃ above line below, lines = above ++ line :: below ∧
      number = first + above.length ∧ (∀ other ∈ above, (p.match? other).isSome = false) ∧
        (p.match? line).isSome = true := by
  induction lines generalizing first with
  | nil => simp [firstLine?]
  | cons line lines ih =>
    rw [firstLine?]
    split
    · next hline =>
      constructor
      · intro h
        exact ⟨[], line, lines, rfl, (Option.some.inj h).symm, nofun, hline⟩
      · rintro ⟨above, line', below, heq, rfl, habove, -⟩
        cases above with
        | nil => rfl
        | cons other above =>
          obtain ⟨rfl, -⟩ := List.cons.inj heq
          rw [habove line List.mem_cons_self] at hline
          cases hline
    · next hline =>
      rw [ih]
      constructor
      · rintro ⟨above, line', below, rfl, rfl, habove, hline'⟩
        refine ⟨line :: above, line', below, rfl, by simp; omega, fun other hother => ?_, hline'⟩
        rcases List.mem_cons.mp hother with rfl | hother
        · exact Bool.eq_false_iff.mpr hline
        · exact habove other hother
      · rintro ⟨above, line', below, heq, rfl, habove, hline'⟩
        cases above with
        | nil =>
          obtain ⟨rfl, -⟩ := List.cons.inj heq
          exact absurd hline' hline
        | cons other above =>
          obtain ⟨rfl, rfl⟩ := List.cons.inj heq
          exact ⟨above, line', below, rfl, by simp; omega,
            fun other hother => habove other (List.mem_cons_of_mem _ hother), hline'⟩

/-- The line of the masked text is the first print statement without its semicolon. -/
def FirstOpenPrint (dialect : Dialect) (code : List Char) (line : Nat) : Prop :=
  firstLine? (openPrint dialect) 1 (splitOn '\n' (mask code)) = some line

/-- The text has the headers of a language, and is taken for one in it. -/
def HasHeadersOf (dialect : Dialect) (code : List Char) : Prop :=
  dialectOf code = dialect ∧ checkHeaders dialect (mask code) = none

instance (dialect : Dialect) : DecidablePred (HasHeadersOf dialect) := fun code =>
  inferInstanceAs (Decidable (dialectOf code = dialect ∧ checkHeaders dialect (mask code) = none))

/-- A missing semicolon is reported where the headers are in place. -/
theorem checkShape_eq_missingSemicolon_iff {code : List Char} {dialect : Dialect} {line : Nat} :
    checkShape code (dialectOf code) = some (.missingSemicolon dialect line) ↔
      HasHeadersOf dialect code ∧ FirstOpenPrint dialect code line := by
  have hheaders : ∀ d, checkHeaders d (mask code) ≠ some (.missingSemicolon dialect line) := by
    intro d
    unfold checkHeaders
    split <;> (repeat' split) <;> nofun
  have hbraces : ∀ d, checkBraces d code (mask code) ≠ some (.missingSemicolon dialect line) := by
    intro d
    unfold checkBraces
    split <;> nofun
  have hprints : ∀ d, checkSemicolons d (mask code) =
      (firstLine? (openPrint d) 1 (splitOn '\n' (mask code))).map (.missingSemicolon d) := fun d => rfl
  unfold checkShape HasHeadersOf FirstOpenPrint
  dsimp only
  constructor
  · intro h
    split at h
    · next e he =>
      obtain rfl := Option.some.inj h
      exact absurd he (hheaders _)
    · next hnone =>
      split at h
      · next e he =>
        obtain rfl := Option.some.inj h
        rw [hprints] at he
        obtain ⟨number, hnumber, heq⟩ := Option.map_eq_some_iff.mp he
        obtain ⟨rfl, rfl⟩ := ShapeError.missingSemicolon.inj heq
        exact ⟨⟨rfl, hnone⟩, hnumber⟩
      · exact absurd h (hbraces _)
  · rintro ⟨⟨rfl, hnone⟩, hfirst⟩
    rw [hnone]
    dsimp only
    rw [hprints, hfirst]
    rfl

section Lines

variable {dialect : Dialect} {code masked line : List Char} {above : List (List Char)}

/-- A text that is masked line by line up to some line. -/
theorem firstOpenPrint_iff {below : List (List Char)}
    (h : splitOn '\n' (mask code) = above ++ line :: below) :
    FirstOpenPrint dialect code (above.length + 1) ↔
      (∀ other ∈ above, ¬ IsOpenPrint dialect other) ∧ IsOpenPrint dialect line := by
  rw [FirstOpenPrint, firstLine?_eq_some_iff]
  constructor
  · rintro ⟨above', line', below', heq, hlength, habove, hline⟩
    rw [h] at heq
    obtain ⟨rfl, hcons⟩ := List.append_inj heq (by omega)
    obtain ⟨rfl, -⟩ := List.cons.inj hcons
    exact ⟨fun other hother => Bool.eq_false_iff.mp (habove other hother), hline⟩
  · rintro ⟨habove, hline⟩
    exact ⟨above, line, below, h, by omega, fun other hother => Bool.eq_false_iff.mpr (habove other hother),
      hline⟩

/-- The first open print statement is one of a single language. -/
theorem FirstOpenPrint.dialect_eq {other : Dialect} {number : Nat}
    (h : FirstOpenPrint dialect code number) (hother : FirstOpenPrint other code number) :
    dialect = other := by
  obtain ⟨above, line, below, hlines, hlength, -, hline⟩ := firstLine?_eq_some_iff.mp h
  obtain ⟨above', line', below', hlines', hlength', -, hline'⟩ := firstLine?_eq_some_iff.mp hother
  obtain ⟨-, hcons⟩ := List.append_inj (hlines.symm.trans hlines') (by omega)
  obtain ⟨rfl, -⟩ := List.cons.inj hcons
  have hmem : line ∈ splitOn '\n' (mask code) := by simp [hlines]
  have hnoline : '\n' ∉ line := notMem_of_mem_splitOn hmem
  exact IsOpenPrint.dialect_eq hnoline hline hline'

/-- A text that is masked up to a line's end. -/
theorem firstOpenPrint_at {shown after : List Char} (hmask : mask code = masked ++ (shown ++ after))
    (hshown : '\n' ∉ shown) (hafter : LineEnd after) (hlines : splitOn '\n' masked = above ++ [line]) :
    FirstOpenPrint dialect code (above.length + 1) ↔
      (∀ other ∈ above, ¬ IsOpenPrint dialect other) ∧ IsOpenPrint dialect (line ++ shown) := by
  have hsplit : splitOn '\n' (mask code) = above ++ (line ++ shown) :: linesBehind after := by
    rw [hmask, ← List.append_assoc, splitOn_append_lineEnd _ hafter, splitOn_concat hlines hshown,
      List.append_assoc]
    rfl
  exact firstOpenPrint_iff hsplit

/-- A text that is masked up to a line's end, and its next line. -/
theorem firstOpenPrint_below {shown rest first : List Char} {below : List (List Char)}
    (hmask : mask code = masked ++ (shown ++ '\n' :: rest)) (hshown : '\n' ∉ shown)
    (hlines : splitOn '\n' masked = above ++ [line]) (hrest : splitOn '\n' rest = first :: below) :
    FirstOpenPrint dialect code (above.length + 2) ↔
      (∀ other ∈ above, ¬ IsOpenPrint dialect other) ∧ ¬ IsOpenPrint dialect (line ++ shown) ∧
        IsOpenPrint dialect first := by
  have hsplit : splitOn '\n' (mask code) = above ++ [line ++ shown] ++ first :: below := by
    rw [hmask, ← List.append_assoc, splitOn_append_separator, splitOn_concat hlines hshown, hrest]
  have hiff : FirstOpenPrint dialect code _ ↔ _ := firstOpenPrint_iff hsplit
  simp only [List.length_append, List.length_singleton, List.forall_mem_append,
    List.forall_mem_singleton] at hiff
  rw [hiff, and_assoc]

/-- Where the next line is reported, there is one. -/
theorem FirstOpenPrint.exists_next {shown after : List Char} (hmask : mask code = masked ++ (shown ++ after))
    (hshown : '\n' ∉ shown) (hafter : LineEnd after) (hlines : splitOn '\n' masked = above ++ [line])
    (h : FirstOpenPrint dialect code (above.length + 2)) :
    ∃ rest first below, after = '\n' :: rest ∧ splitOn '\n' rest = first :: below := by
  rcases hafter.cases with rfl | ⟨rest, rfl⟩
  · obtain ⟨above', line', below', heq, hlength, -⟩ := firstLine?_eq_some_iff.mp h
    rw [hmask, List.append_nil, splitOn_concat hlines hshown] at heq
    have hlengths := congrArg List.length heq
    simp only [List.length_append, List.length_cons, List.length_nil] at hlengths
    omega
  · obtain ⟨first, below, hfirst⟩ := List.exists_cons_of_ne_nil (splitOn_ne_nil '\n' rest)
    exact ⟨rest, first, below, rfl, hfirst⟩

end Lines

/-! ### A semicolon at the end of a line -/

/-- The lines of a text up to its last one, which stands apart. -/
theorem exists_lastLine (text : List Char) : ∃ above line, splitOn '\n' text = above ++ [line] ∧
    above.length = text.count '\n' ∧ '\n' ∉ line := by
  have hlast := List.dropLast_concat_getLast (splitOn_ne_nil '\n' text)
  refine ⟨_, _, hlast.symm, ?_, notMem_of_mem_splitOn (List.getLast_mem (splitOn_ne_nil '\n' text))⟩
  rw [List.length_dropLast, length_splitOn, Nat.add_sub_cancel]

/-- A line that ends in a literal is not reported. -/
theorem not_firstOpenPrint_of_endsInQuote {dialect : Dialect} {code masked rest : List Char}
    (hmask : mask code = masked ++ rest) (hrest : LineEnd rest) (hends : EndsInQuote masked) :
    ¬ FirstOpenPrint dialect code (masked.count '\n' + 1) := by
  obtain ⟨above, line, hlines, hlength, -⟩ := exists_lastLine masked
  have hmask' : mask code = masked ++ ([] ++ rest) := hmask
  rw [← hlength, firstOpenPrint_at hmask' List.not_mem_nil hrest hlines, List.append_nil]
  exact fun h => not_isOpenPrint_of_endsInQuote hlines hends h.2

section Semicolon

variable {dialect : Dialect} {text blanks after : List Char}

/-- Where a literal goes on in the next line, neither line is reported. -/
theorem not_firstOpenPrint_of_goesOn (m : GoesOn text after) :
    ¬ FirstOpenPrint dialect (text ++ after) (text.count '\n' + 1) ∧
      ¬ FirstOpenPrint dialect (text ++ after) (text.count '\n' + 2) := by
  rw [← m.lines]
  refine ⟨not_firstOpenPrint_of_endsInQuote m.mask_eq (lineEnd_newline _) m.ends, fun h => ?_⟩
  obtain ⟨above, line, hlines, hlength, -⟩ := exists_lastLine m.masked
  obtain ⟨first, below, hfirst⟩ := List.exists_cons_of_ne_nil (splitOn_ne_nil '\n' m.next)
  have hmask : mask (text ++ after) = m.masked ++ ([] ++ '\n' :: m.next) := m.mask_eq
  rw [← hlength, firstOpenPrint_below hmask List.not_mem_nil hlines hfirst] at h
  exact not_isOpenPrint_of_beginsInLiteral hfirst m.begins h.2.2

/-- A semicolon that is kept ends the report at its line. -/
theorem not_firstOpenPrint_of_keepsSemicolon (m : TailMask text blanks after)
    (hkeeps : KeepsSemicolon text) :
    ¬ FirstOpenPrint dialect (text ++ ([';'] ++ after)) (text.count '\n' + 1) := by
  obtain ⟨above, line, hlines, hlength, hline⟩ := exists_lastLine m.masked
  rw [← m.lines, ← hlength, firstOpenPrint_at m.behind m.noLine' m.lineEnd hlines, m.keeps.mp hkeeps]
  exact fun h => not_isOpenPrint_semicolon hline h.2

namespace FirstOpenPrint

/-- A line that is reported ends with a parenthesis, and with white space that stays so unless a semicolon
is kept in its place. -/
theorem ends (h : FirstOpenPrint dialect (text ++ (blanks ++ after)) (text.count '\n' + 1))
    (m : TailMask text blanks after) (hkeeps : ¬ KeepsSemicolon text) :
    (∃ before more, m.masked = before ++ ')' :: more ∧ ∀ c ∈ more, isSpace c = true) ∧
      (∀ c ∈ m.shown, isSpace c = true) ∧ ∀ c ∈ m.shown', isSpace c = true := by
  obtain ⟨masked, shown, shown', rest, hbefore, -, hcount, hnoline, -, hend, hchange, hiff⟩ := m
  dsimp only
  obtain ⟨above, line, hlines, hlength, hline⟩ := exists_lastLine masked
  rw [← hcount, ← hlength, firstOpenPrint_at hbefore hnoline hend hlines] at h
  cases hchange with
  | code _ => exact absurd (hiff.mpr rfl) hkeeps
  | comment hshown hshown' =>
    obtain ⟨before, more, heq, hmore⟩ := h.2.ends (by simp [hline, hnoline])
    obtain ⟨more', rfl, rfl⟩ := exists_of_append_blanks (by decide) hshown heq
    refine ⟨⟨above.flatMap (· ++ ['\n']) ++ before, more', ?_, fun c hc => ?_⟩, hshown, hshown'⟩
    · rw [← joinWith_splitOn '\n' masked, hlines, joinWith_append _ (List.cons_ne_nil _ _),
        List.append_assoc]
      rfl
    · exact hmore c (List.mem_append_left _ hc)
  | literal hquote hshown _ =>
    exact absurd h.2 (not_isOpenPrint_of_endsInQuote (splitOn_concat hlines hnoline)
      (hquote.append hshown))

/-- A semicolon that is masked leaves the report where it was. -/
theorem semicolon_masked
    (h : FirstOpenPrint dialect (text ++ (blanks ++ after)) (text.count '\n' + 1))
    (m : TailMask text blanks after) (hkeeps : ¬ KeepsSemicolon text) :
    FirstOpenPrint dialect (text ++ ([';'] ++ after)) (text.count '\n' + 1) := by
  obtain ⟨-, hshown, hshown'⟩ := h.ends m hkeeps
  obtain ⟨above, line, hlines, hlength, hline⟩ := exists_lastLine m.masked
  rw [← m.lines, ← hlength] at h ⊢
  rw [firstOpenPrint_at m.before m.noLine m.lineEnd hlines] at h
  rw [firstOpenPrint_at m.behind m.noLine' m.lineEnd hlines]
  exact ⟨h.1, h.2.append_blanks (by simp [hline, m.noLine]) hshown m.noLine' hshown'⟩

/-- Behind a line stands the one that is reported, which begins like a print statement. -/
theorem begins (h : FirstOpenPrint dialect (text ++ (blanks ++ after)) (text.count '\n' + 2))
    (m : TailMask text blanks after) : ∃ opening more, m.rest = '\n' :: (opening ++ more) ∧
      (Pattern.all (printOpening dialect)).Takes opening := by
  obtain ⟨above, line, hlines, hlength, -⟩ := exists_lastLine m.masked
  rw [← m.lines, ← hlength] at h
  obtain ⟨rest, first, below, hrest, hfirst⟩ := h.exists_next m.before m.noLine m.lineEnd hlines
  have hmask := m.before
  rw [hrest] at hmask
  have hopen := ((firstOpenPrint_below hmask m.noLine hlines hfirst).mp h).2.2
  have hnoline : '\n' ∉ first := notMem_of_mem_splitOn (hfirst ▸ List.mem_cons_self)
  obtain ⟨opening, arguments, blanks', rfl, hopening, -⟩ := (isOpenPrint_iff hnoline).mp hopen
  obtain ⟨after', -, hjoin⟩ := joinWith_at [] below
  refine ⟨opening, arguments ++ ')' :: blanks' ++ after', ?_, hopening⟩
  rw [hrest, ← joinWith_splitOn '\n' rest, hfirst, ← List.nil_append (_ :: below), hjoin]
  simp

/-- A semicolon at the end of a line leaves what is reported on the next line where it was. -/
theorem semicolon_above
    (h : FirstOpenPrint dialect (text ++ (blanks ++ after)) (text.count '\n' + 2))
    (m : TailMask text blanks after) :
    FirstOpenPrint dialect (text ++ ([';'] ++ after)) (text.count '\n' + 2) := by
  obtain ⟨masked, shown, shown', rest, hbefore, hbehind, hcount, hnoline, hnoline', hend, hchange, -⟩ := m
  obtain ⟨above, line, hlines, hlength, hline⟩ := exists_lastLine masked
  rw [← hcount, ← hlength] at h ⊢
  obtain ⟨rest, first, below, rfl, hfirst⟩ := h.exists_next hbefore hnoline hend hlines
  rw [firstOpenPrint_below hbefore hnoline hlines hfirst] at h
  rw [firstOpenPrint_below hbehind hnoline' hlines hfirst]
  refine ⟨h.1, fun hopen => ?_, h.2.2⟩
  cases hchange with
  | code _ => exact not_isOpenPrint_semicolon hline hopen
  | comment hshown hshown' =>
    exact h.2.1 (hopen.append_blanks (by simp [hline, hnoline']) hshown' hnoline hshown)
  | literal hquote _ hshown' =>
    exact not_isOpenPrint_of_endsInQuote (splitOn_concat hlines hnoline') (hquote.append hshown') hopen

end FirstOpenPrint

end Semicolon

end Coach.Program
