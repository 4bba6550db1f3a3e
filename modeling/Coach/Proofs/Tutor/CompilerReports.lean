import Coach.Proofs.Execution.ErrorLines
import Coach.Proofs.Tutor.MissingSemicolons

/-!
# Two readers of the reports of a compiler

A compiler reports an error at a line of a file, `File:N: error: message`, and some name the column too,
`File:N:M: error: message`.  The output is read twice: for the findings of a run, and by the tutor, for a
semicolon that is missing.  Both look for a number in front of the word `error`.  The tutor allows a column
between the two and reads the line.  The findings allow none, so where there is a column it is the column
that they take for the line.

## Main definitions

* `Numeral`: digits that can be read as a number
* `CompilerReport`: a line of output that reports an error
* `CompilerReport.Plain`: a file name that is not itself such a report, in whole or in part

## Main statements

* `search?_errorLine`: the findings read the number in front of the message
* `search?_missingSemicolon`: the tutor reads the line
* `lines_of_reports`: the lines of the findings, and when both readers agree
-/

namespace Coach.Tutor

open Coach.Execution Coach.Text

/-- Digits that can be read as a number. -/
structure Numeral where
  digits : List Char
  ne_nil : digits ≠ []
  decimal : ∀ c ∈ digits, isDecimal c = true
  short : digits.length ≤ digitLimit

namespace Numeral

/-- The number that the digits stand for. -/
def value (n : Numeral) : Nat := ofDigits (n.digits.map digitValue)

/-- The numeral of a number. -/
def ofNat (n : Nat) (h : (natDigits n).length ≤ digitLimit) : Numeral where
  digits := natDigits n
  ne_nil := natDigits_ne_nil n
  decimal _ hc := isDecimal_of_mem_natDigits hc
  short := h

theorem readInt_digits (n : Numeral) : readInt n.digits = .ok (n.value : Int) := by
  rw [readInt_of_decimal n.ne_nil n.decimal, if_neg (Nat.not_lt.mpr n.short)]
  rfl

end Numeral

/-- A line of output that reports an error. -/
structure CompilerReport where
  file : List Char
  line : Numeral
  column : Option Numeral
  message : List Char

/-- The message says, in the words of the one compiler or the other, that a semicolon is missing. -/
def LacksSemicolon (message : List Char) : Prop :=
  ∃ blanks gap more, (∀ c ∈ blanks, isSpace c = true) ∧ (∀ c ∈ gap, isSpace c = true) ∧
    (message = blanks ++ ("';'".toList ++ (gap ++ ("expected".toList ++ more))) ∨
      message = blanks ++ ("expected".toList ++ (gap ++ ("';'".toList ++ more))))

namespace CompilerReport

/-- The number that stands in front of the message. -/
def last (r : CompilerReport) : Numeral := r.column.getD r.line

/-- What stands before that number and its colon. -/
def front (r : CompilerReport) : List Char :=
  r.file ++ r.column.elim [] fun _ => ':' :: r.line.digits

/-- What stands behind that number and its colon. -/
def tail (r : CompilerReport) : List Char := [' '] ++ ("error:".toList ++ ' ' :: r.message)

/-- The text of a report. -/
def text (r : CompilerReport) : List Char :=
  r.file ++ ':' :: (r.line.digits ++ ':' :: r.column.elim r.tail (·.digits ++ ':' :: r.tail))

/-- The file name leaves no doubt where it ends: it holds no report, and what it ends with is no line
number of its own. -/
structure Plain (r : CompilerReport) : Prop where
  errorLine : errorLine.occursIn (r.file ++ [':']) = false
  unnumbered : r.column = none →
    (Pattern.all [.char ':', .digits, .atEnd]).occursIn r.file = false

theorem text_eq (r : CompilerReport) : r.text = r.front ++ ':' :: (r.last.digits ++ ':' :: r.tail) := by
  cases hcolumn : r.column <;> simp [text, front, last, hcolumn]

end CompilerReport

/-! ### A number in front of the word -/

/-- A text begins with a number between colons and the word behind it. -/
def Marked (digits rest : List Char) : Prop :=
  digits ≠ [] ∧ (∀ c ∈ digits, isDecimal c = true) ∧ ∃ blanks more,
    (∀ c ∈ blanks, isSpace c = true) ∧
      rest = ':' :: (digits ++ ':' :: (blanks ++ ("error:".toList ++ more)))

theorem colon_notMem_of_decimal {digits : List Char} (h : ∀ c ∈ digits, isDecimal c = true) :
    ':' ∉ digits := fun hmem => absurd (h ':' hmem) (by decide)

theorem steady_errorLine : errorLine.Steady := by
  have hdigits : Pattern.digits.Steady := ⟨trivial, Pattern.steady_star_one _⟩
  have hrest : Pattern.lineRest.Steady := Pattern.steady_star_one _
  simp [errorLine, Pattern.all, Pattern.Steady, Pattern.steady_space, Pattern.char,
    Pattern.steady_text, hdigits, hrest]

section Marks

variable {before digits rest : List Char} {c' : Cursor}

/-- The findings read such a number. -/
theorem marked_of_matches_errorLine (h : errorLine.Matches (.behind before rest []) c') :
    ∃ digits, Marked digits rest ∧ c'.group? 1 = some digits := by
  simp only [errorLine, Pattern.all, Pattern.matches_seq] at h
  obtain ⟨_, hcolon, _, ⟨_, hdigits, rfl⟩, _, hcolon', _, hspace, _, herror, _, hspace', _, hrest,
    rfl⟩ := h
  obtain ⟨rest, rfl, rfl⟩ := Pattern.matches_char.mp hcolon
  obtain ⟨run, rest, hne, rfl, hrun, rfl⟩ := Pattern.matches_plus_one.mp hdigits
  obtain ⟨rest, rfl, rfl⟩ := Pattern.matches_char.mp hcolon'
  obtain ⟨blanks, rest, rfl, hblanks, rfl⟩ := Pattern.matches_space.mp hspace
  obtain ⟨rest, rfl, rfl⟩ := Pattern.matches_text.mp herror
  obtain ⟨_, _, -, -, rfl⟩ := Pattern.matches_space.mp hspace'
  obtain ⟨_, _, -, -, rfl⟩ := Pattern.matches_star_one.mp hrest
  exact ⟨run, ⟨hne, hrun, blanks, rest, hblanks, rfl⟩,
    (Cursor.group?_behind_of_ne (by decide) _ _).trans (Cursor.group?_behind_self _ _)⟩

/-- Wherever there is such a number, the findings have a match. -/
theorem exists_matches_errorLine (before : List Char) (h : Marked digits rest) :
    ∃ c', errorLine.Matches (.behind before rest []) c' := by
  obtain ⟨hne, hdigits, blanks, more, hblanks, rfl⟩ := h
  exact ⟨_, _, Pattern.matches_char.mpr ⟨_, rfl, rfl⟩, _,
    ⟨_, Pattern.matches_plus_one.mpr ⟨_, _, hne, rfl, hdigits, rfl⟩, rfl⟩, _,
    Pattern.matches_char.mpr ⟨_, rfl, rfl⟩, _,
    Pattern.matches_space.mpr ⟨_, _, rfl, hblanks, rfl⟩, _,
    Pattern.matches_text.mpr ⟨_, rfl, rfl⟩, _,
    Pattern.matches_space.mpr ⟨[], more, rfl, nofun, rfl⟩,
    _, Pattern.matches_star_one.mpr ⟨[], more, rfl, nofun, rfl⟩, rfl⟩

/-- The wordings bind no group but the second. -/
theorem group?_of_matches_expectedSemicolon {groups : List Binding}
    (h : expectedSemicolon.Matches (.behind before rest groups) c') :
    c'.group? 1 = (Cursor.behind before rest groups).group? 1 := by
  rcases h with ⟨_, ⟨_, hquoted, _, hspace, hword⟩, rfl⟩ | ⟨_, hword, _, hspace, hquoted⟩
  · obtain ⟨rest, rfl, rfl⟩ := Pattern.matches_text.mp hquoted
    obtain ⟨_, rest, rfl, -, rfl⟩ := Pattern.matches_space.mp hspace
    obtain ⟨rest, rfl, rfl⟩ := Pattern.matches_text.mp hword
    exact Cursor.group?_behind_of_ne (by decide) _ _
  · obtain ⟨rest, rfl, rfl⟩ := Pattern.matches_text.mp hword
    obtain ⟨_, rest, rfl, -, rfl⟩ := Pattern.matches_space.mp hspace
    obtain ⟨rest, rfl, rfl⟩ := Pattern.matches_text.mp hquoted
    rfl

/-- The tutor reads such a number, or one that stands in front of it. -/
theorem marked_of_matches_missingSemicolon (h : missingSemicolon.Matches (.behind before rest []) c') :
    ∃ digits, digits ≠ [] ∧ (∀ c ∈ digits, isDecimal c = true) ∧ c'.group? 1 = some digits ∧
      (Marked digits rest ∨ ∃ column rest', rest = ':' :: (digits ++ rest') ∧ Marked column rest') := by
  obtain ⟨_, hcolon, _, ⟨_, hdigits, rfl⟩, _, hcolon', _, hcolumn, _, hspace, _, herror, _, hspace',
    hends⟩ := h
  obtain ⟨rest, rfl, rfl⟩ := Pattern.matches_char.mp hcolon
  obtain ⟨run, rest, hne, rfl, hrun, rfl⟩ := Pattern.matches_plus_one.mp hdigits
  obtain ⟨rest, rfl, rfl⟩ := Pattern.matches_char.mp hcolon'
  refine ⟨run, hne, hrun, ?_⟩
  rcases hcolumn with ⟨_, hcolumn, hcolon''⟩ | rfl
  · obtain ⟨column, rest, hne', rfl, hdecimal, rfl⟩ := Pattern.matches_plus_one.mp hcolumn
    obtain ⟨rest, rfl, rfl⟩ := Pattern.matches_char.mp hcolon''
    obtain ⟨blanks, rest, rfl, hblanks, rfl⟩ := Pattern.matches_space.mp hspace
    obtain ⟨rest, rfl, rfl⟩ := Pattern.matches_text.mp herror
    obtain ⟨_, rest, rfl, -, rfl⟩ := Pattern.matches_space.mp hspace'
    exact ⟨(group?_of_matches_expectedSemicolon hends).trans (Cursor.group?_behind_self _ _),
      Or.inr ⟨column, _, rfl, hne', hdecimal, blanks, _, hblanks, rfl⟩⟩
  · obtain ⟨blanks, rest, rfl, hblanks, rfl⟩ := Pattern.matches_space.mp hspace
    obtain ⟨rest, rfl, rfl⟩ := Pattern.matches_text.mp herror
    obtain ⟨_, rest, rfl, -, rfl⟩ := Pattern.matches_space.mp hspace'
    exact ⟨(group?_of_matches_expectedSemicolon hends).trans (Cursor.group?_behind_self _ _),
      Or.inl ⟨hne, hrun, blanks, _, hblanks, rfl⟩⟩

/-- The word is no part of a number. -/
theorem not_marked_of_decimal {number after : List Char} {c : Char} (hc : isDecimal c = true)
    (hnumber : ∀ c ∈ number, isDecimal c = true) :
    ¬ Marked digits (':' :: (number ++ ':' :: c :: after)) := by
  rintro ⟨-, hdigits, blanks, more, hblanks, heq⟩
  obtain ⟨-, heq⟩ := List.cons.inj heq
  obtain ⟨-, heq⟩ := eq_of_append_cons (colon_notMem_of_decimal hnumber)
    (colon_notMem_of_decimal hdigits) heq
  cases blanks with
  | nil =>
    obtain ⟨rfl, -⟩ := List.cons.inj heq
    exact absurd hc (by decide)
  | cons b blanks =>
    obtain ⟨rfl, -⟩ := List.cons.inj heq
    have hb := hblanks c List.mem_cons_self
    rw [not_isSpace_of_isDecimal hc] at hb
    cases hb

/-- What begins in front of a colon and a digit ends there. -/
theorem marked_of_append {gap after : List Char} {c : Char} (hc : isDecimal c = true)
    (h : Marked digits (':' :: (gap ++ ':' :: c :: after))) : Marked digits (':' :: (gap ++ [':'])) := by
  obtain ⟨hne, hdigits, blanks, more, hblanks, heq⟩ := id h
  refine ⟨hne, hdigits, blanks, ?_⟩
  obtain ⟨inner, rfl, hrest⟩ := exists_of_append_cons (colon_notMem_of_decimal hdigits)
    (List.cons.inj heq).2.symm
  cases inner with
  | nil =>
    rw [List.append_nil] at h
    exact absurd h (not_marked_of_decimal hc hdigits)
  | cons d inner =>
    obtain ⟨rfl, hinner⟩ := List.cons.inj hrest
    -- the next colon is the one behind the word
    have hword : ':' ∉ blanks ++ "error".toList := by
      rw [List.mem_append, not_or]
      exact ⟨fun hmem => absurd (hblanks ':' hmem) (by decide), by decide⟩
    have hcut : (blanks ++ "error".toList) ++ ':' :: more = inner ++ ':' :: c :: after := by
      rw [List.append_assoc]
      exact hinner
    obtain ⟨last, rfl, hlast⟩ := exists_of_append_cons hword hcut
    have hcolon : ∃ more', last ++ [':'] = ':' :: more' := by
      cases last with
      | nil => exact ⟨[], rfl⟩
      | cons d last =>
        obtain ⟨rfl, -⟩ := List.cons.inj hlast
        exact ⟨last ++ [':'], rfl⟩
    obtain ⟨more', hmore'⟩ := hcolon
    refine ⟨more', hblanks, ?_⟩
    simp only [List.append_assoc, List.cons_append, hmore']
    rfl

/-- A text without a report ends before a number begins. -/
theorem exists_gap_of_marked {front after : List Char} {c : Char} (hc : isDecimal c = true)
    (hfront : errorLine.occursIn (front ++ [':']) = false) (hmark : Marked digits rest)
    (h : front ++ ':' :: c :: after = before ++ rest) :
    ∃ gap, before = front ++ gap ∧ ':' :: c :: after = gap ++ rest := by
  rcases List.append_eq_append_iff.mp h with hgap | ⟨gap, rfl, hrest⟩
  · exact hgap
  cases gap with
  | nil => exact ⟨[], by simp, hrest.symm⟩
  | cons d gap =>
    have hd : d = ':' := by
      obtain ⟨-, -, _, _, -, heq⟩ := hmark
      rw [heq] at hrest
      exact (List.cons.inj hrest).1.symm
    subst hd
    rw [hrest] at hmark
    obtain ⟨c', hmatch⟩ := exists_matches_errorLine before (marked_of_append hc hmark)
    have hoccurs := (Pattern.occursIn_iff steady_errorLine (before ++ ':' :: gap ++ [':'])).mpr
      ⟨before, _, c', by simp, hmatch⟩
    rw [hfront] at hoccurs
    cases hoccurs

end Marks

/-! ### The reports -/

section Reports

variable {r : CompilerReport}

theorem Numeral.exists_cons (n : Numeral) : ∃ c rest, n.digits = c :: rest ∧ isDecimal c = true := by
  obtain ⟨c, rest, hdigits⟩ := List.exists_cons_of_ne_nil n.ne_nil
  exact ⟨c, rest, hdigits, n.decimal c (hdigits ▸ List.mem_cons_self)⟩

namespace CompilerReport

/-- In front of the message stand a number and the word. -/
theorem marked_last (r : CompilerReport) :
    Marked r.last.digits (':' :: (r.last.digits ++ ':' :: r.tail)) :=
  ⟨r.last.ne_nil, r.last.decimal, [' '], ' ' :: r.message, by decide, rfl⟩

/-- A line number ends no report that its file name does not hold. -/
theorem Plain.front (h : r.Plain) : Coach.Execution.errorLine.occursIn (r.front ++ [':']) = false := by
  cases hcolumn : r.column with
  | none => simpa [CompilerReport.front, hcolumn] using h.errorLine
  | some column =>
    rw [← Bool.not_eq_true, Pattern.occursIn_iff steady_errorLine]
    rintro ⟨before, rest, c', htext, hmatch⟩
    obtain ⟨digits, hmark, -⟩ := marked_of_matches_errorLine hmatch
    obtain ⟨c, more, hdigits, hc⟩ := r.line.exists_cons
    have hwhole : r.file ++ ':' :: c :: (more ++ [':']) = before ++ rest := by
      rw [← htext, CompilerReport.front, hcolumn]
      simp [hdigits]
    obtain ⟨gap, -, hrest⟩ := exists_gap_of_marked hc h.errorLine hmark hwhole
    -- the word is not among the digits
    have hletter : 'e' ∈ gap ++ rest := by
      obtain ⟨-, -, blanks, more, -, rfl⟩ := hmark
      simp
    have hnumber : gap ++ rest = ':' :: (r.line.digits ++ [':']) := by
      rw [← hrest, hdigits, List.cons_append]
    rw [hnumber, List.mem_cons, List.mem_append, List.mem_singleton] at hletter
    rcases hletter with hletter | hletter | hletter
    · exact absurd hletter (by decide)
    · exact absurd (r.line.decimal 'e' hletter) (by decide)
    · exact absurd hletter (by decide)

/-- No number in front of the word begins in front of the last number. -/
theorem Plain.exists_gap (h : r.Plain) {before rest digits : List Char} (hmark : Marked digits rest)
    (htext : r.text = before ++ rest) :
    ∃ gap, before = r.front ++ gap ∧ ':' :: (r.last.digits ++ ':' :: r.tail) = gap ++ rest := by
  obtain ⟨c, more, hdigits, hc⟩ := r.last.exists_cons
  rw [hdigits]
  refine exists_gap_of_marked hc h.front hmark ?_
  rw [← htext, r.text_eq, hdigits]
  rfl

/-- A number in front of the word that begins no later than the last number is that number. -/
theorem Plain.eq_last (h : r.Plain) {before rest digits : List Char} (hmark : Marked digits rest)
    (htext : r.text = before ++ rest) (hlength : before.length ≤ r.front.length) :
    before = r.front ∧ digits = r.last.digits := by
  obtain ⟨gap, rfl, hrest⟩ := h.exists_gap hmark htext
  obtain rfl : gap = [] := by
    rw [List.length_append] at hlength
    exact List.length_eq_zero_iff.mp (by omega)
  obtain ⟨-, hdecimal, blanks, more, -, rfl⟩ := hmark
  have hlast := colon_notMem_of_decimal r.last.decimal
  exact ⟨List.append_nil _,
    (eq_of_append_cons hlast (colon_notMem_of_decimal hdecimal) (List.cons.inj hrest).2).1.symm⟩

/-- A number with a column, in front of the word, does not begin inside the file name. -/
theorem Plain.not_inside (h : r.Plain) {before gap digits column rest : List Char} (hne : digits ≠ [])
    (hdigits : ∀ c ∈ digits, isDecimal c = true) (hmark : Marked column rest)
    (htext : r.text = before ++ ':' :: (digits ++ rest)) : r.file ≠ before ++ ':' :: gap := by
  intro hfile
  have hcolumn : r.text = (before ++ ':' :: digits) ++ rest := by simp [htext]
  obtain ⟨after, hfront, -⟩ := h.exists_gap hmark hcolumn
  -- the digits are all within the file name, and so they are its end
  obtain ⟨more, rfl⟩ : ∃ more, gap = digits ++ more := by
    obtain ⟨-, -, _, _, -, rfl⟩ := hmark
    rw [CompilerReport.text, hfile, List.append_assoc] at htext
    obtain ⟨more, hmore, -⟩ := exists_of_append_cons (colon_notMem_of_decimal hdigits)
      (List.cons.inj (List.append_cancel_left htext)).2.symm
    exact ⟨more, hmore⟩
  have hlength := congrArg List.length hfront
  simp only [CompilerReport.front, hfile, List.length_append, List.length_cons] at hlength
  obtain rfl : more = [] := List.length_eq_zero_iff.mp (by omega)
  cases hcolumn : r.column with
  | some column =>
    simp only [hcolumn, Option.elim_some, List.length_cons] at hlength
    omega
  | none =>
    have hsteady : (Pattern.all [.char ':', .digits, .atEnd]).Steady :=
      ⟨trivial, ⟨trivial, Pattern.steady_star_one _⟩, trivial⟩
    have hends := (Pattern.occursIn_iff hsteady r.file).mpr
      ⟨before, ':' :: digits, _, by rw [hfile, List.append_nil],
        _, Pattern.matches_char.mpr ⟨_, rfl, rfl⟩,
        _, Pattern.matches_plus_one.mpr ⟨digits, [], hne, by simp, hdigits, rfl⟩, rfl, rfl⟩
    rw [h.unnumbered hcolumn] at hends
    cases hends

end CompilerReport

/-- The findings read the number in front of the message. -/
theorem search?_errorLine (h : r.Plain) :
    ∃ m, errorLine.search? r.text = some m ∧ m.group 1 = r.last.digits := by
  obtain ⟨c', hmatch⟩ := exists_matches_errorLine r.front r.marked_last
  have hsome : (errorLine.search? r.text).isSome = true :=
    (Pattern.occursIn_iff steady_errorLine r.text).mpr ⟨_, _, c', r.text_eq, hmatch⟩
  obtain ⟨m, hm⟩ := Option.isSome_iff_exists.mp hsome
  have hlength := Pattern.length_before_le_of_search? steady_errorLine (r.text_eq ▸ hm) hmatch
  obtain ⟨rest, htext, hmatches⟩ := Pattern.matches_of_search? hm
  obtain ⟨digits, hmark, hgroup⟩ := marked_of_matches_errorLine hmatches
  obtain ⟨-, rfl⟩ := h.eq_last hmark htext hlength
  exact ⟨m, hm, by rw [Match.group, Match.group?, hgroup, Option.getD_some]⟩

/-- A message that lacks a semicolon begins with one of the wordings. -/
theorem exists_matches_wording {message : List Char} (hlacks : LacksSemicolon message)
    (before : List Char) (groups : List Binding) :
    ∃ c', (Pattern.seq .space expectedSemicolon).Matches (.behind before (' ' :: message) groups) c' := by
  obtain ⟨blanks, gap, more, hblanks, hgap, hmessage⟩ := hlacks
  have hlead : ∀ c ∈ ' ' :: blanks, isSpace c = true := List.forall_mem_cons.mpr ⟨rfl, hblanks⟩
  rcases hmessage with rfl | rfl
  · exact ⟨_, _, Pattern.matches_space.mpr ⟨' ' :: blanks, _, rfl, hlead, rfl⟩,
      Or.inl ⟨_, ⟨_, Pattern.matches_text.mpr ⟨_, rfl, rfl⟩, _,
        Pattern.matches_space.mpr ⟨gap, _, rfl, hgap, rfl⟩,
        Pattern.matches_text.mpr ⟨_, rfl, rfl⟩⟩, rfl⟩⟩
  · exact ⟨_, _, Pattern.matches_space.mpr ⟨' ' :: blanks, _, rfl, hlead, rfl⟩,
      Or.inr ⟨_, Pattern.matches_text.mpr ⟨_, rfl, rfl⟩, _,
        Pattern.matches_space.mpr ⟨gap, _, rfl, hgap, rfl⟩,
        Pattern.matches_text.mpr ⟨_, rfl, rfl⟩⟩⟩

/-- A report that lacks a semicolon is a match for the tutor from its line number on. -/
theorem exists_matches_missingSemicolon (r : CompilerReport) (hlacks : LacksSemicolon r.message) :
    ∃ rest c', r.text = r.file ++ rest ∧ missingSemicolon.Matches (.behind r.file rest []) c' := by
  have hblank : ∀ c ∈ [' '], isSpace c = true := by decide
  obtain ⟨file, line, column, message⟩ := r
  cases column with
  | none =>
    obtain ⟨c', hc'⟩ := exists_matches_wording hlacks _ _
    exact ⟨_, c', rfl, _, Pattern.matches_char.mpr ⟨_, rfl, rfl⟩, _,
      ⟨_, Pattern.matches_plus_one.mpr ⟨_, _, line.ne_nil, rfl, line.decimal, rfl⟩, rfl⟩, _,
      Pattern.matches_char.mpr ⟨_, rfl, rfl⟩, _, Or.inr rfl, _,
      Pattern.matches_space.mpr ⟨[' '], _, rfl, hblank, rfl⟩, _,
      Pattern.matches_text.mpr ⟨_, rfl, rfl⟩, hc'⟩
  | some column =>
    obtain ⟨c', hc'⟩ := exists_matches_wording hlacks _ _
    exact ⟨_, c', rfl, _, Pattern.matches_char.mpr ⟨_, rfl, rfl⟩, _,
      ⟨_, Pattern.matches_plus_one.mpr ⟨_, _, line.ne_nil, rfl, line.decimal, rfl⟩, rfl⟩, _,
      Pattern.matches_char.mpr ⟨_, rfl, rfl⟩, _,
      Or.inl ⟨_, Pattern.matches_plus_one.mpr ⟨_, _, column.ne_nil, rfl, column.decimal, rfl⟩,
        Pattern.matches_char.mpr ⟨_, rfl, rfl⟩⟩, _,
      Pattern.matches_space.mpr ⟨[' '], _, rfl, hblank, rfl⟩, _,
      Pattern.matches_text.mpr ⟨_, rfl, rfl⟩, hc'⟩

/-- The tutor reads the line of a report that lacks a semicolon. -/
theorem search?_missingSemicolon (h : r.Plain) (hlacks : LacksSemicolon r.message) :
    ∃ m, missingSemicolon.search? r.text = some m ∧ m.group 1 = r.line.digits := by
  obtain ⟨rest', c', htext', hmatch⟩ := exists_matches_missingSemicolon r hlacks
  have hsome : (missingSemicolon.search? r.text).isSome = true :=
    (Pattern.occursIn_iff steady_missingSemicolon r.text).mpr ⟨_, _, c', htext', hmatch⟩
  obtain ⟨m, hm⟩ := Option.isSome_iff_exists.mp hsome
  have hlength := Pattern.length_before_le_of_search? steady_missingSemicolon (htext' ▸ hm) hmatch
  obtain ⟨rest, htext, hmatches⟩ := Pattern.matches_of_search? hm
  obtain ⟨digits, hne, hdigits, hgroup, hmark⟩ := marked_of_matches_missingSemicolon hmatches
  refine ⟨m, hm, ?_⟩
  rw [Match.group, Match.group?, hgroup, Option.getD_some]
  rcases hmark with hmark | ⟨column, rest, rfl, hmark⟩
  · -- the number is the last, and so there is no column
    have hfile : r.file.length ≤ r.front.length := by
      rw [CompilerReport.front, List.length_append]
      exact Nat.le_add_right _ _
    obtain ⟨hbefore, rfl⟩ := h.eq_last hmark htext (Nat.le_trans hlength hfile)
    cases hcolumn : r.column with
    | none => rw [CompilerReport.last, hcolumn, Option.getD_none]
    | some column =>
      rw [hbefore, CompilerReport.front, hcolumn, List.length_append, Option.elim_some,
        List.length_cons] at hlength
      omega
  · -- the number begins where the file name ends
    have hbefore : m.before = r.file := by
      have hsame := List.append_eq_append_iff.mp (htext.symm.trans htext')
      rcases hsame with ⟨gap, hfile, hgap⟩ | ⟨gap, hfile, -⟩
      · cases gap with
        | nil => simpa using hfile.symm
        | cons c gap =>
          obtain ⟨rfl, -⟩ := List.cons.inj hgap
          exact absurd hfile (h.not_inside hne hdigits hmark htext)
      · rw [hfile, List.length_append] at hlength
        obtain rfl : gap = [] := List.length_eq_zero_iff.mp (by omega)
        rw [hfile, List.append_nil]
    obtain ⟨-, -, _, _, -, rfl⟩ := hmark
    rw [CompilerReport.text, hbefore] at htext
    exact (eq_of_append_cons (colon_notMem_of_decimal r.line.decimal) (colon_notMem_of_decimal hdigits)
      (List.cons.inj (List.append_cancel_left htext)).2).1.symm

/-- What is read off a list of texts one after another. -/
theorem exists_mapM_filterMap {ε ι α β γ δ : Type} {f : α → Option β} {g : β → Except ε γ}
    {items : List ι} {text : ι → α} {seen : γ → δ} {value : ι → δ}
    (h : ∀ i ∈ items, ∃ x y, f (text i) = some x ∧ g x = .ok y ∧ seen y = value i) :
    ∃ found, ((items.map text).filterMap f).mapM g = .ok found ∧ found.map seen = items.map value := by
  induction items with
  | nil => exact ⟨[], rfl, rfl⟩
  | cons i items ih =>
    obtain ⟨x, y, hx, hy, hseen⟩ := h i List.mem_cons_self
    obtain ⟨found, hfound, hvalues⟩ := ih fun j hj => h j (List.mem_cons_of_mem i hj)
    refine ⟨y :: found, ?_, ?_⟩
    · rw [List.map_cons, List.filterMap_cons_some hx, List.mapM_cons, hy, hfound]
      rfl
    · rw [List.map_cons, List.map_cons, hseen, hvalues]

/-- The lines of the findings, one for each report. -/
theorem exists_errorLines {output : String} {reports : List CompilerReport}
    (hplain : ∀ r ∈ reports, r.Plain)
    (hlines : splitLines output.toList = reports.map CompilerReport.text) :
    ∃ found, errorLines output = .ok found ∧ found.map (·.line) = reports.map (·.last.value) := by
  unfold errorLines
  rw [hlines]
  refine exists_mapM_filterMap fun r hr => ?_
  obtain ⟨m, hm, hgroup⟩ := search?_errorLine (hplain r hr)
  refine ⟨(r.text, m), ?_⟩
  simp only [hm, Option.map_some, hgroup, r.last.readInt_digits]
  exact ⟨_, trivial, rfl, rfl⟩

end Reports

/-- **The two readers of a report.**  Of every output that is made of reports, with or without columns, the
findings have one for each report, in order, at the number in front of its message, and the tutor reads the
line of each report that lacks a semicolon.  The findings are at the lines that the reports name exactly if
each column that is named is that of the line. -/
theorem lines_of_reports {output : String} {reports : List CompilerReport}
    (hplain : ∀ r ∈ reports, r.Plain)
    (hlines : splitLines output.toList = reports.map CompilerReport.text) :
    (∃ found, errorLines output = .ok found ∧
      found.map (·.line) = reports.map (fun r => (r.column.getD r.line).value) ∧
      (found.map (·.line) = reports.map (·.line.value) ↔
        ∀ r ∈ reports, ∀ column ∈ r.column, column.value = r.line.value)) ∧
      ∀ r ∈ reports, LacksSemicolon r.message →
        ∃ m, missingSemicolon.search? r.text = some m ∧ readInt (m.group 1) = .ok (r.line.value : Int) := by
  refine ⟨?_, fun r hr hlacks => ?_⟩
  · obtain ⟨found, hfound, hvalues⟩ := exists_errorLines hplain hlines
    refine ⟨found, hfound, hvalues, ?_⟩
    rw [hvalues, List.map_inj_left]
    refine forall₂_congr fun r _ => ?_
    cases hcolumn : r.column <;> simp [CompilerReport.last, hcolumn]
  · obtain ⟨m, hm, hgroup⟩ := search?_missingSemicolon (hplain r hr) hlacks
    exact ⟨m, hm, by rw [hgroup, r.line.readInt_digits]⟩

/-- A report without a column. -/
def reportAtLine : CompilerReport where
  file := "Main.java".toList
  line := .ofNat 4 (by decide)
  column := none
  message := "';' expected".toList

/-- A report with a column. -/
def reportAtColumn : CompilerReport where
  file := "main.c".toList
  line := .ofNat 5 (by decide)
  column := some (.ofNat 10 (by decide))
  message := "expected ';'".toList

theorem plain_reports : ∀ r ∈ [reportAtLine, reportAtColumn], r.Plain := by
  have hline : reportAtLine.Plain := ⟨by decide +kernel, fun _ => by decide +kernel⟩
  have hcolumn : reportAtColumn.Plain := ⟨by decide +kernel, nofun⟩
  simp [hline, hcolumn]

/-- Of two reports of the same fault, the findings read line 4 and column 10, and the tutor line 5. -/
theorem lines_of_reports_two :
    let output := "Main.java:4: error: ';' expected\nmain.c:5:10: error: expected ';'\n"
    (∃ found, errorLines output = .ok found ∧ found.map (·.line) = [4, 10]) ∧
      ∃ m, missingSemicolon.search? reportAtColumn.text = some m ∧ readInt (m.group 1) = .ok 5 := by
  intro output
  have hlines : splitLines output.toList = [reportAtLine, reportAtColumn].map CompilerReport.text := by
    decide +kernel
  have hlacks : LacksSemicolon reportAtColumn.message :=
    ⟨[], [' '], [], nofun, by decide, Or.inr rfl⟩
  obtain ⟨⟨found, hfound, hvalues, -⟩, htutor⟩ := lines_of_reports plain_reports hlines
  exact ⟨⟨found, hfound, hvalues⟩, htutor reportAtColumn (by simp) hlacks⟩

/-- The findings are not always at the lines that are reported. -/
theorem not_forall_lines_of_reports :
    ¬ ∀ (output : String) (reports : List CompilerReport), (∀ r ∈ reports, r.Plain) →
      splitLines output.toList = reports.map CompilerReport.text →
      ∃ found, errorLines output = .ok found ∧ found.map (·.line) = reports.map (·.line.value) := by
  intro h
  obtain ⟨found, hfound, hvalues⟩ := h "main.c:5:10: error: expected ';'" [reportAtColumn]
    (fun r hr => plain_reports r (List.mem_cons_of_mem _ hr)) (by decide +kernel)
  have hread : (errorLines "main.c:5:10: error: expected ';'").toOption.map (·.map (·.line)) = some [10] := by
    decide +kernel
  rw [hfound] at hread
  have hten : found.map (·.line) = [10] := Option.some.inj hread
  rw [hvalues] at hten
  exact absurd hten (by decide +kernel)

end Coach.Tutor
