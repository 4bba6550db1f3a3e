import Coach.Execution.LocalTier
import Coach.Proofs.Number.Digits
import Coach.Proofs.Program.Headers
import Coach.Proofs.Tutor.LinePatches

/-!
# A missing semicolon, reported and mended

The local check reports a print statement without its semicolon in the words of a compiler, and the tutor
reads the line off these words and proposes a semicolon at its end.  The two fit together in Java, where
the words say that the line is the one at fault, as long as the line ends in code.  The words for C are
read as pointing at the line behind the fault, which the local check never means: unless the line before
cannot lack a semicolon, that line is the one that is changed.

## Main definitions

* `candidates`, `changedLine?`: the lines that are tried, and the one that is changed
* `Mended`: a report is answered with a change that ends it

## Main statements

* `search?_message`: what is read off a report
* `explainOffline_localResult`: the answer to a report
* `mended_iff`: when a report is ended
-/

namespace Coach.Tutor

open Coach.Execution Coach.Program Coach.Source Coach.Text

/-! ### Reading the report -/

/-- What a report says is missing. -/
def reportEnd : Dialect → List Char
  | .java => "';' expected".toList
  | .c => "expected ';'".toList

/-- What a report says behind the number of the line. -/
def reportTail (dialect : Dialect) : List Char := ' ' :: ("error:".toList ++ ' ' :: reportEnd dialect)

theorem toList_toString (n : Nat) : (toString n).toList = natDigits n := String.toList_ofList

theorem message_toList (dialect : Dialect) (line : Nat) :
    (ShapeError.missingSemicolon dialect line).message.toList =
      (fileName dialect).toList ++ (':' :: (natDigits line ++ ':' :: reportTail dialect)) := by
  have hparts : (ShapeError.missingSemicolon dialect line).message =
      fileName dialect ++ ":" ++ toString line ++ (":" ++ String.ofList (reportTail dialect)) := by
    cases dialect <;> rfl
  rw [hparts]
  simp only [String.toList_append, toList_toString, String.toList_ofList, List.append_assoc]
  rfl

theorem steady_missingSemicolon : missingSemicolon.Steady := by
  have hdigits : Pattern.digits.Steady := ⟨trivial, Pattern.steady_star_one _⟩
  simp [missingSemicolon, Pattern.all, Pattern.Steady, Pattern.steady_space, Pattern.char,
    Pattern.optional, Pattern.steady_text, hdigits]

theorem isDecimal_of_mem_natDigits {n : Nat} {c : Char} (h : c ∈ natDigits n) : isDecimal c = true :=
  isDecimal_of_isDigit (isDigit_of_mem_natDigits h)

/-- The two wordings of what is missing. -/
def expectedSemicolon : Pattern :=
  .alt (.group 2 (.all [.text "';'", .space, .text "expected"]))
    (.all [.text "expected", .space, .text "';'"])

section Report

variable {dialect : Dialect} {line : Nat} {before : List Char} {groups : List Binding} {c' : Cursor}

theorem exists_matches_reportEnd (dialect : Dialect) (before : List Char) (groups : List Binding) :
    ∃ c', expectedSemicolon.Matches (.behind before (reportEnd dialect) groups) c' := by
  have hblank : ∀ c ∈ [' '], isSpace c = true := by decide
  cases dialect with
  | java =>
    exact ⟨_, Or.inl ⟨_, ⟨_, Pattern.matches_text.mpr ⟨" expected".toList, rfl, rfl⟩, _,
      Pattern.matches_space.mpr ⟨[' '], "expected".toList, rfl, hblank, rfl⟩,
      Pattern.matches_text.mpr ⟨[], rfl, rfl⟩⟩, rfl⟩⟩
  | c =>
    exact ⟨_, Or.inr ⟨_, Pattern.matches_text.mpr ⟨" ';'".toList, rfl, rfl⟩, _,
      Pattern.matches_space.mpr ⟨[' '], "';'".toList, rfl, hblank, rfl⟩,
      Pattern.matches_text.mpr ⟨[], rfl, rfl⟩⟩⟩

/-- A report is a match from its first colon on. -/
theorem exists_matches_report (dialect : Dialect) (line : Nat) (before : List Char) :
    ∃ c', missingSemicolon.Matches
      (.behind before (':' :: (natDigits line ++ ':' :: reportTail dialect)) []) c' := by
  have hdigits : ∀ c ∈ natDigits line, isDecimal c = true := fun _ => isDecimal_of_mem_natDigits
  have hblank : ∀ c ∈ [' '], isSpace c = true := by decide
  obtain ⟨c', hc'⟩ := exists_matches_reportEnd dialect _ _
  exact ⟨c', _, Pattern.matches_char.mpr ⟨_, rfl, rfl⟩, _,
    ⟨_, Pattern.matches_plus_one.mpr ⟨_, _, natDigits_ne_nil line, rfl, hdigits, rfl⟩, rfl⟩, _,
    Pattern.matches_char.mpr ⟨_, rfl, rfl⟩, _, Or.inr rfl, _,
    Pattern.matches_space.mpr ⟨[' '], _, rfl, hblank, rfl⟩, _,
    Pattern.matches_text.mpr ⟨_, rfl, rfl⟩, _,
    Pattern.matches_space.mpr ⟨[' '], _, rfl, hblank, rfl⟩, hc'⟩

/-- A blank and a word are told apart. -/
theorem append_of_blank_word {blanks rest rest' : List Char} {c : Char} (hc : isSpace c = false)
    (hblanks : ∀ x ∈ blanks, isSpace x = true) (h : ' ' :: c :: rest = blanks ++ rest')
    {word more : List Char} {c' : Char} (hc' : isSpace c' = false) (hrest : rest' = c' :: word ++ more) :
    c = c' ∧ rest = word ++ more := by
  subst hrest
  have hblank : ∀ x ∈ [' '], isSpace x = true := by decide
  obtain ⟨-, rfl, hsame⟩ := blanks_append_inj hc hc' hblank hblanks (h : [' '] ++ c :: rest = _)
  exact ⟨rfl, hsame⟩

/-- The second group is bound by the wording for Java, and the first is left as it was. -/
theorem groups_of_matches_reportEnd {blanks rest digits stop : List Char}
    (hblanks : ∀ x ∈ blanks, isSpace x = true) (hrest : ' ' :: reportEnd dialect = blanks ++ rest)
    (h : expectedSemicolon.Matches (.behind before rest [⟨1, digits ++ stop, stop⟩]) c') :
    c'.group? 1 = some digits ∧ ((c'.group? 2).isSome = true ↔ dialect = .java) := by
  cases dialect with
  | java =>
    rcases h with ⟨_, ⟨_, hquoted, _, hspace, hword⟩, rfl⟩ | ⟨_, hword, -⟩
    · obtain ⟨rest, rfl, rfl⟩ := Pattern.matches_text.mp hquoted
      obtain ⟨_, rest, rfl, -, rfl⟩ := Pattern.matches_space.mp hspace
      obtain ⟨rest, rfl, rfl⟩ := Pattern.matches_text.mp hword
      refine ⟨?_, iff_of_true rfl rfl⟩
      exact (Cursor.group?_behind_of_ne (by decide) _ _).trans (Cursor.group?_behind_self _ _)
    · obtain ⟨rest, rfl, -⟩ := Pattern.matches_text.mp hword
      have hsame := append_of_blank_word (by decide) hblanks
        (hrest : ' ' :: '\'' :: ";' expected".toList = _) (by decide)
        (rfl : _ = 'e' :: "xpected".toList ++ rest)
      exact absurd hsame.1 (by decide)
  | c =>
    rcases h with ⟨_, ⟨_, hword, -⟩, -⟩ | ⟨_, hword, _, hspace, hquoted⟩
    · obtain ⟨rest, rfl, -⟩ := Pattern.matches_text.mp hword
      have hsame := append_of_blank_word (by decide) hblanks
        (hrest : ' ' :: 'e' :: "xpected ';'".toList = _) (by decide)
        (rfl : _ = '\'' :: ";'".toList ++ rest)
      exact absurd hsame.1 (by decide)
    · obtain ⟨rest, rfl, rfl⟩ := Pattern.matches_text.mp hword
      obtain ⟨_, rest, rfl, -, rfl⟩ := Pattern.matches_space.mp hspace
      obtain ⟨rest, rfl, rfl⟩ := Pattern.matches_text.mp hquoted
      exact ⟨Cursor.group?_behind_self _ _, iff_of_false nofun nofun⟩

/-- Of a report the number is the first group, and the second group is there in Java. -/
theorem groups_of_matches_report (h : missingSemicolon.Matches
    (.behind before (':' :: (natDigits line ++ ':' :: reportTail dialect)) []) c') :
    c'.group? 1 = some (natDigits line) ∧ ((c'.group? 2).isSome = true ↔ dialect = .java) := by
  obtain ⟨_, hcolon, _, ⟨_, hdigits, rfl⟩, _, hcolon', _, hcolumn, _, hspace, _, herror, _, hspace',
    hends⟩ := h
  obtain ⟨_, heq, rfl⟩ := Pattern.matches_char.mp hcolon
  obtain rfl := (List.cons.inj heq).2
  obtain ⟨run, rest, -, heq, hrun, rfl⟩ := Pattern.matches_plus_one.mp hdigits
  obtain ⟨rest, rfl, rfl⟩ := Pattern.matches_char.mp hcolon'
  -- both runs of digits end at the colon
  have hcolon : ∀ {digits : List Char}, (∀ c ∈ digits, isDecimal c = true) → ':' ∉ digits :=
    fun hdigits hmem => absurd (hdigits ':' hmem) (by decide)
  obtain ⟨rfl, rfl⟩ := eq_of_append_cons (hcolon fun _ hc => isDecimal_of_mem_natDigits hc) (hcolon hrun) heq
  -- no column follows
  rcases hcolumn with ⟨_, hcolumn, -⟩ | rfl
  · obtain ⟨digits, rest, hne, heq, hdigits, -⟩ := Pattern.matches_plus_one.mp hcolumn
    obtain ⟨c, digits, rfl⟩ := List.exists_cons_of_ne_nil hne
    obtain ⟨rfl, -⟩ := List.cons.inj heq
    exact absurd (hdigits ' ' List.mem_cons_self) (by decide)
  obtain ⟨blanks, rest, htail, hblanks, rfl⟩ := Pattern.matches_space.mp hspace
  obtain ⟨rest, rfl, rfl⟩ := Pattern.matches_text.mp herror
  have hsame := append_of_blank_word (by decide) hblanks
    (htail : ' ' :: 'e' :: ("rror:".toList ++ ' ' :: reportEnd dialect) = _) (by decide)
    (rfl : _ = 'e' :: "rror:".toList ++ rest)
  obtain rfl := List.append_cancel_left hsame.2
  obtain ⟨blanks', rest, hend, hblanks', rfl⟩ := Pattern.matches_space.mp hspace'
  exact groups_of_matches_reportEnd hblanks' hend hends

end Report

/-- What is read off a report: the number of its line, and whether the line is the one at fault. -/
theorem search?_message (dialect : Dialect) (line : Nat) :
    ∃ m, missingSemicolon.search? (ShapeError.missingSemicolon dialect line).message.toList = some m ∧
      m.group 1 = natDigits line ∧ ((m.group? 2).isSome = true ↔ dialect = .java) := by
  have hfile : ':' ∉ (fileName dialect).toList := by cases dialect <;> decide
  have hsome := (Pattern.isSome_matchAt? steady_missingSemicolon _).mpr
    (exists_matches_report dialect line ([] ++ (fileName dialect).toList))
  obtain ⟨m, hm⟩ := Option.isSome_iff_exists.mp hsome
  obtain ⟨m', hsearch, hafter⟩ := Pattern.searchFrom?_append rfl [] hfile hm
  obtain ⟨after, hrun, rfl⟩ := Option.map_eq_some_iff.mp hm
  obtain ⟨c', hmatch, heq⟩ := missingSemicolon.run_sound hrun
  obtain rfl := Option.some.inj heq
  obtain ⟨hone, htwo⟩ := groups_of_matches_report hmatch
  refine ⟨m', ?_, ?_, ?_⟩
  · rw [message_toList]
    exact hsearch
  · rw [Match.group, Match.group?, hafter, hone, Option.getD_some]
  · rw [Match.group?, hafter, htwo]

/-! ### The answer to a report -/

/-- A text on which a missing semicolon is reported. -/
def Reports (code : List Char) (dialect : Dialect) (line : Nat) : Prop :=
  checkShape code (dialectOf code) = some (.missingSemicolon dialect line)

instance (code : List Char) (dialect : Dialect) (line : Nat) : Decidable (Reports code dialect line) :=
  inferInstanceAs (Decidable (checkShape code (dialectOf code) = _))

/-- The result of the local tier is the report. -/
theorem output_localResult {request : RunRequest} {dialect : Dialect} {line : Nat}
    (h : Reports request.code.toList dialect line) :
    (localResult request).output = (ShapeError.missingSemicolon dialect line).message := by
  have hshape : checkShape request.code.toList (dialectOf request.code.toList) =
      some (.missingSemicolon dialect line) := h
  simp only [localResult, simulate, hshape]

/-- A report is answered unless its number has too many digits. -/
theorem explainOffline_localResult {request : RunRequest} {dialect : Dialect} {line : Nat}
    (h : Reports request.code.toList dialect line) (d : Document) :
    explainOffline d (localResult request) =
      if digitLimit < (natDigits line).length then .error (.tooManyDigits (natDigits line).length)
      else .ok (explainSemicolon d line (decide (dialect = .java))) := by
  obtain ⟨m, hm, hone, htwo⟩ := search?_message dialect line
  have hat : (m.group? 2).isSome = decide (dialect = .java) := by
    rw [Bool.eq_iff_iff, htwo, decide_eq_true_iff]
  unfold explainOffline
  rw [output_localResult h, hm]
  dsimp only
  rw [hone, hat, readInt_of_decimal (natDigits_ne_nil line) fun _ => isDecimal_of_mem_natDigits,
    ofDigits_natDigits]
  split <;> rfl

/-- The lines that are tried for a report at a line. -/
def candidates (dialect : Dialect) (line : Nat) : List Int :=
  match dialect with
  | .java => [line, line - 1]
  | .c => [line - 1, line]

/-- The line that is changed: the first that can lack a semicolon. -/
def changedLine? (d : Document) (dialect : Dialect) (line : Nat) : Option Int :=
  (candidates dialect line).find? fun number => (d.line? number).any mayLackSemicolon

/-- A semicolon at the end of a line, in place of the white space there. -/
def semicolonAt (d : Document) (number : Int) : Patch :=
  linePatch number (stripRight ((d.line? number).getD []) ++ [';'])

theorem semicolonPatch?_eq (d : Document) (numbers : List Int) :
    semicolonPatch? d numbers =
      (numbers.find? fun number => (d.line? number).any mayLackSemicolon).map (semicolonAt d) := by
  induction numbers with
  | nil => rfl
  | cons number numbers ih =>
    rw [semicolonPatch?, List.find?_cons]
    cases hline : d.line? number with
    | none => exact ih
    | some line =>
      cases hlack : mayLackSemicolon line with
      | false => simpa [hlack] using ih
      | true => simp [hlack, semicolonAt, hline]

theorem patch_explainSemicolon (d : Document) (dialect : Dialect) (line : Nat) :
    (explainSemicolon d line (decide (dialect = .java))).patch =
      (changedLine? d dialect line).map (semicolonAt d) := by
  cases dialect <;> exact semicolonPatch?_eq d _

/-! ### The changed text -/

/-- The text with a semicolon at the end of a line. -/
def withSemicolon (d : Document) (number : Int) : List Char :=
  (d.apply { single := some (semicolonAt d number) }).document.chars

/-- The text up to what a line says last. -/
def textThrough (d : Document) (number : Int) : List Char :=
  (d.lines.take (number - 1).toNat).flatMap (· ++ ['\n']) ++ stripRight ((d.line? number).getD [])

/-- A text around the end of a line, before and after a semicolon is put there. -/
theorem exists_lineEnd {d : Document} {code line : List Char} {number : Int}
    (hd : d.lines = splitOn '\n' code) (hline : d.line? number = some line) :
    ∃ blanks after, code = textThrough d number ++ (blanks ++ after) ∧
      withSemicolon d number = textThrough d number ++ ([';'] ++ after) ∧
      (∀ c ∈ blanks, isSpace c = true) ∧ '\n' ∉ blanks ∧ LineEnd after ∧
      ((textThrough d number).count '\n' : Int) = number - 1 := by
  obtain ⟨above, below, hlines, hnumber⟩ := exists_of_line? hline
  have hlength : (number - 1).toNat = above.length := by omega
  have hnoline : ∀ piece ∈ d.lines, '\n' ∉ piece := fun piece hpiece =>
    notMem_of_mem_splitOn (hd ▸ hpiece)
  have hthrough : textThrough d number = above.flatMap (· ++ ['\n']) ++ stripRight line := by
    rw [textThrough, hline, hlength, hlines, List.take_left]
    rfl
  obtain ⟨blanks, hblanks, hspace⟩ := exists_stripRight line
  obtain ⟨after, hafter, hjoin⟩ := joinWith_at above below
  have hnew : '\n' ∉ line := hnoline line (by simp [hlines])
  rw [hblanks, List.mem_append, not_or] at hnew
  refine ⟨blanks, after, ?_, ?_, hspace, hnew.2, hafter, ?_⟩
  · rw [hthrough, ← joinWith_splitOn '\n' code, ← hd, hlines, hjoin]
    conv => lhs; rw [hblanks]
    simp only [List.append_assoc]
  · have hsemicolon : '\n' ∉ stripRight line ++ [';'] := by
      rw [List.mem_append, not_or]
      exact ⟨hnew.1, by decide⟩
    rw [withSemicolon, semicolonAt, hline, hnumber, Option.getD_some, Document.chars,
      lines_apply_linePatch hlines hsemicolon, hjoin, ← hnumber, hthrough]
    simp only [List.append_assoc]
  · have hsplit : splitOn '\n' (textThrough d number) = above ++ [stripRight line] := by
      have hpieces : ∀ piece ∈ above ++ [stripRight line], '\n' ∉ piece := by
        intro piece hpiece
        rcases List.mem_append.mp hpiece with hpiece | hpiece
        · exact hnoline piece (by simp [hlines, hpiece])
        · rw [List.mem_singleton.mp hpiece]
          exact hnew.1
      rw [hthrough, ← splitOn_joinWith (by simp) hpieces, joinWith_append _ (List.cons_ne_nil _ _)]
      rfl
    have hcount := length_splitOn '\n' (textThrough d number)
    rw [hsplit, List.length_append, List.length_singleton] at hcount
    omega

/-! ### The whole -/

/-- A report is answered with a change, and the changed text is not reported at that line. -/
def Mended (request : RunRequest) (line : Nat) : Prop :=
  let d := Document.ofText request.code
  ∃ e p, explainOffline d (localResult request) = .ok e ∧ e.patch = some p ∧
    ∀ dialect, ¬ Reports (d.apply e.patchSpec).document.chars dialect line

/-- A text that has its headers is reported where its first open print statement stands. -/
theorem reports_iff {code : List Char} {dialect : Dialect} {line : Nat} :
    Reports code dialect line ↔ HasHeadersOf dialect code ∧ FirstOpenPrint dialect code line :=
  checkShape_eq_missingSemicolon_iff

/-- A report is mended by the change of a line that says something. -/
theorem mended_iff_changed {request : RunRequest} {dialect : Dialect} {line : Nat}
    (h : Reports request.code.toList dialect line) :
    let d := Document.ofText request.code
    Mended request line ↔ (natDigits line).length ≤ digitLimit ∧
      ∃ number, changedLine? d dialect line = some number ∧
        ∀ dialect, ¬ Reports (withSemicolon d number) dialect line := by
  intro d
  have hanswer := explainOffline_localResult h d
  have hpatch := patch_explainSemicolon d dialect line
  have hspec : ∀ p, (explainSemicolon d line (decide (dialect = .java))).patch = some p →
      (explainSemicolon d line (decide (dialect = .java))).patchSpec = { single := some p } := by
    intro p hp
    simp only [Explanation.patchSpec, hp]
    rfl
  constructor
  · rintro ⟨e, p, he, hp, hreports⟩
    rw [hanswer] at he
    split at he
    · cases he
    · next hlimit =>
      obtain rfl := Except.ok.inj he
      rw [hspec p hp] at hreports
      rw [hpatch] at hp
      obtain ⟨number, hnumber, rfl⟩ := Option.map_eq_some_iff.mp hp
      exact ⟨Nat.not_lt.mp hlimit, number, hnumber, hreports⟩
  · rintro ⟨hlimit, number, hnumber, hreports⟩
    rw [hnumber] at hpatch
    refine ⟨_, _, by rw [hanswer, if_neg (Nat.not_lt.mpr hlimit)], hpatch, ?_⟩
    rw [hspec _ hpatch]
    exact hreports

/-- The line that is changed is one of two. -/
theorem line_of_changedLine? {d : Document} {dialect : Dialect} {line : Nat} {number : Int}
    (h : changedLine? d dialect line = some number) :
    (number = line ∨ number = line - 1) ∧ ∃ text, d.line? number = some text := by
  refine ⟨?_, ?_⟩
  · have hmem := List.mem_of_find?_eq_some h
    cases dialect <;> simp only [candidates, List.mem_cons, List.not_mem_nil, or_false] at hmem
    · exact hmem
    · exact hmem.symm
  · have htext := List.find?_some h
    cases hline : d.line? number with
    | none => simp [hline] at htext
    | some text => exact ⟨text, rfl⟩

/-- What is reported of the changed text at the line that was reported. -/
theorem reports_withSemicolon_iff {code : String} {dialect : Dialect} {line : Nat} {number : Int}
    (h : Reports code.toList dialect line)
    (hchanged : changedLine? (Document.ofText code) dialect line = some number) :
    (∃ other, Reports (withSemicolon (.ofText code) number) other line) ↔
      ¬ (number = line ∧ KeepsSemicolon (textThrough (.ofText code) number)) ∧
        KeepsClass dialect (withSemicolon (.ofText code) number) := by
  have hlines : (Document.ofText code).lines = splitOn '\n' code.toList := rfl
  generalize Document.ofText code = d at hlines hchanged
  obtain ⟨hnumber, text, htext⟩ := line_of_changedLine? hchanged
  obtain ⟨blanks, after, hcode, hnew, hblanks, hline, hafter, hcount⟩ := exists_lineEnd hlines htext
  obtain ⟨hheaders, hfirst⟩ := reports_iff.mp h
  rw [hcode] at hheaders hfirst
  simp only [reports_iff, hnew]
  rcases @tailMask_or_goesOn (textThrough d number) _ _ hblanks hline hafter with ⟨⟨m⟩⟩ | ⟨⟨m⟩, -⟩
  case inr =>
    -- a line that is reported ends no literal that goes on, and follows none
    obtain ⟨hat, hbehind⟩ := @not_firstOpenPrint_of_goesOn dialect _ _ m
    rcases hnumber with heq | heq
    · exact absurd (show line = (textThrough d number).count '\n' + 1 by omega ▸ hfirst) hat
    · exact absurd (show line = (textThrough d number).count '\n' + 2 by omega ▸ hfirst) hbehind
  by_cases hkeeps : number = line ∧ KeepsSemicolon (textThrough d number)
  · -- no language reports the line any more
    have hlast : line = (textThrough d number).count '\n' + 1 := by omega
    refine iff_of_false ?_ fun h => h.1 hkeeps
    rintro ⟨other, -, hother⟩
    rw [hlast] at hother
    exact not_firstOpenPrint_of_keepsSemicolon m hkeeps.2 hother
  · have hstays : FirstOpenPrint dialect (textThrough d number ++ ([';'] ++ after)) line ∧
        (HasHeadersOf dialect (textThrough d number ++ ([';'] ++ after)) ↔
          KeepsClass dialect (textThrough d number ++ ([';'] ++ after))) := by
      rcases hnumber with heq | heq
      · have hlast : line = (textThrough d number).count '\n' + 1 := by omega
        have hmasked : ¬ KeepsSemicolon (textThrough d number) := fun hk => hkeeps ⟨heq, hk⟩
        rw [hlast] at hfirst ⊢
        have hheaders' := hheaders.semicolon_masked hfirst m hmasked
        exact ⟨hfirst.semicolon_masked m hmasked,
          iff_of_true hheaders' (hasHeadersOf_iff.mp hheaders').1.mpr⟩
      · have hlast : line = (textThrough d number).count '\n' + 2 := by omega
        rw [hlast] at hfirst ⊢
        exact ⟨hfirst.semicolon_above m, hasHeadersOf_semicolon_above_iff hheaders hfirst m⟩
    constructor
    · rintro ⟨other, hheaders', hother⟩
      obtain rfl := hstays.1.dialect_eq hother
      exact ⟨hkeeps, hstays.2.mp hheaders'⟩
    · rintro ⟨-, hclass⟩
      exact ⟨dialect, hstays.2.mpr hclass, hstays.1⟩

/-- **When a missing semicolon is mended.**  A report whose number can be read is answered with the change
of a line, if one of the two lines that are tried can lack a semicolon.  The change ends the report exactly
if it is the reported line that is changed, and that line ends in code, or if in Java the semicolon breaks
the class header in two. -/
theorem mended_iff {request : RunRequest} {dialect : Dialect} {line : Nat}
    (h : Reports request.code.toList dialect line) :
    let d := Document.ofText request.code
    Mended request line ↔ (natDigits line).length ≤ digitLimit ∧
      ∃ number, changedLine? d dialect line = some number ∧
        (number = line ∧ KeepsSemicolon (textThrough d number) ∨
          ¬ KeepsClass dialect (withSemicolon d number)) := by
  intro d
  refine (mended_iff_changed h).trans (and_congr_right fun _ => ?_)
  refine exists_congr fun number => and_congr_right fun hchanged => ?_
  rw [← not_exists, reports_withSemicolon_iff h hchanged, Decidable.not_and_iff_not_or_not,
    Decidable.not_not]

/-- A print statement in Java is mended where it stands. -/
theorem mended_iff_print :
    let request : RunRequest :=
      { code := "class A \x7b\n  public static void main(String[] args) \x7b\n" ++
          "    System.out.println(1)\n  \x7d\n\x7d" }
    Reports request.code.toList .java 3 ∧ Mended request 3 := by
  intro request
  have h : Reports request.code.toList .java 3 := by decide +kernel
  have hchanged : changedLine? (Document.ofText request.code) .java 3 = some 3 := by decide +kernel
  have hkeeps : KeepsSemicolon (textThrough (Document.ofText request.code) 3) := by decide +kernel
  exact ⟨h, (mended_iff h).mpr ⟨by decide, 3, hchanged, Or.inl ⟨rfl, hkeeps⟩⟩⟩

/-- A print statement in C is not mended: the semicolon goes to the line before. -/
theorem not_mended_of_condition_before :
    let request : RunRequest :=
      { code := "#include <stdio.h>\nint main() \x7b\n    int n = 5;\n    if (n > 3)\n" ++
          "        printf(\"big\")\n    return 0;\n\x7d\n" }
    Reports request.code.toList .c 5 ∧ ¬ Mended request 5 := by
  intro request
  have h : Reports request.code.toList .c 5 := by decide +kernel
  have hchanged : changedLine? (Document.ofText request.code) .c 5 = some 4 := by decide +kernel
  have hstays : Reports (withSemicolon (Document.ofText request.code) 4) .c 5 := by decide +kernel
  refine ⟨h, fun hmended => ?_⟩
  obtain ⟨-, number, hnumber, hgone⟩ := (mended_iff_changed h).mp hmended
  obtain rfl := Option.some.inj (hchanged.symm.trans hnumber)
  exact hgone .c hstays

end Coach.Tutor
