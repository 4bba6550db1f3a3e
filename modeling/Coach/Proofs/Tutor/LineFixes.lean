import Coach.Proofs.Tutor.ArrayFixes
import Coach.Proofs.Tutor.CompilerReports

/-!
# Fixes of one line

The changes that are proposed without a model are made to one line each, in one of three ways: a
comparison loses its equality sign, an index between brackets is made one less, or a semicolon is put
behind what the line says.  The number of the line comes from a finding, or from the output of a compiler
with the line before as a second candidate, and it need not be a line of the document.  A change is
proposed only where the line exists, the new text is another one and has no newline, so applying it
changes that line and nothing else.

## Main definitions

* `CleanEdit`: what is left as it was by a change of one line, and what is not
* `ShortNumbers`: a text whose numbers can all be read

## Main statements

* `cleanEdit_of_line`: a patch that puts another text without a newline in place of a line
* `patch_of_explainOffline`: where the patch of an explanation comes from
* `fixes_are_clean`: every change that is proposed is a clean edit
-/

namespace Coach.Tutor

open Coach.Execution Coach.Finding Coach.Source Coach.Text

/-! ### Clean edits -/

/-- The patch of a line was applied, and of the document that line has changed and nothing else. -/
structure CleanEdit (d : Document) (p : Patch) (r : PatchResult) : Prop where
  applied : r.applied = 1
  skipped : r.skipped = 0
  lineCount : r.document.lineCount = d.lineCount
  changedLines : r.changedLines = [p.first]
  differs : ∃ old new, d.line? p.first = some old ∧ r.document.line? p.first = some new ∧ new ≠ old
  others : ∀ number, number ≠ p.first → r.document.line? number = d.line? number

/-- A list that differs from another in one place is the same everywhere else. -/
theorem getElem?_append_cons {α : Type} (above below : List α) (x y : α) {i : Nat} (h : i ≠ above.length) :
    (above ++ y :: below)[i]? = (above ++ x :: below)[i]? := by
  have hset : above ++ y :: below = (above ++ x :: below).set above.length y := by
    rw [List.set_append_right _ _ (Nat.le_refl _), Nat.sub_self, List.set_cons_zero]
  rw [hset, List.getElem?_set_ne (Ne.symm h)]

/-- The line that stands behind some others. -/
theorem line?_append_cons {d : Document} {above below : List (List Char)} {line : List Char}
    (h : d.lines = above ++ line :: below) : d.line? (above.length + 1) = some line := by
  rw [Document.line?, if_pos (by omega), h,
    show ((above.length : Int) + 1 - 1).toNat = above.length by omega,
    List.getElem?_append_right (Nat.le_refl _), Nat.sub_self, List.getElem?_cons_zero]

/-- A patch that puts another text without a newline in place of a line is a clean edit. -/
theorem cleanEdit_of_line {d : Document} {number : Int} {line text : List Char}
    (hline : d.line? number = some line) (htext : '\n' ∉ text) (hne : text ≠ line) :
    CleanEdit d (linePatch number text) (d.apply { single := some (linePatch number text) }) := by
  obtain ⟨above, below, hlines, rfl⟩ := exists_of_line? hline
  rw [apply_linePatch hlines htext]
  refine
    { applied := rfl, skipped := rfl, changedLines := rfl, lineCount := ?_, differs := ?_, others := ?_ }
  · rw [Document.lineCount, Document.lineCount, hlines, List.length_append, List.length_append]
    rfl
  · exact ⟨line, text, hline, line?_append_cons rfl, hne⟩
  · intro other hother
    rw [Document.line?, Document.line?, hlines]
    split
    · refine getElem?_append_cons above below line text ?_
      have hfirst : other ≠ above.length + 1 := hother
      omega
    · rfl

/-! ### The three changes of a line -/

/-- What is put in place of a part of a line is another text. -/
theorem Edits.new_ne_place {category : Category} {line before place new after : List Char}
    (h : Edits category line before place new after) : new ≠ place := by
  cases h with
  | comparison _ _ => decide
  | @index m index _ _ h hread hpos =>
    intro heq
    -- the digits would stand for the index and for the one before it
    have hdigits : m.group 1 = intText (index - 1) :=
      (List.append_cancel_right (List.cons.inj heq).2).symm
    rw [hdigits, intText, if_neg (by omega)] at hread
    have hdecimal : ∀ c ∈ natDigits (index - 1).toNat, isDecimal c = true := fun _ =>
      isDecimal_of_mem_natDigits
    rw [show (index - 1).natAbs = (index - 1).toNat by omega,
      readInt_of_decimal (natDigits_ne_nil _) hdecimal, ofDigits_natDigits] at hread
    split at hread
    · cases hread
    · have hindex := Except.ok.inj hread
      omega

theorem cleanEdit_of_proposePatch {d : Document} (hd : ∀ line ∈ d.lines, '\n' ∉ line) {found : Diagnostic}
    {p : Patch} (h : proposePatch d found = .ok (some p)) : CleanEdit d p (d.apply { single := some p }) := by
  obtain ⟨line, before, place, new, after, hline, hedit, rfl⟩ := exists_edits_of_proposePatch h
  refine cleanEdit_of_line hline (hedit.notMem_newline (hd line (mem_lines_of_line? hline))) ?_
  intro heq
  rw [hedit.line_eq] at heq
  exact hedit.new_ne_place (List.append_cancel_right (List.append_cancel_left heq))

/-- A semicolon behind what a line says makes another line of it. -/
theorem stripRight_concat_ne (line : List Char) {c : Char} (hc : isSpace c = false) :
    stripRight line ++ [c] ≠ line := by
  intro heq
  have hsame : stripRight line = line := by
    have hstay := stripRight_concat (stripRight line) hc
    rwa [heq] at hstay
  have hlength := congrArg List.length heq
  rw [hsame, List.length_append, List.length_singleton] at hlength
  omega

theorem cleanEdit_of_semicolonPatch? {d : Document} (hd : ∀ line ∈ d.lines, '\n' ∉ line)
    {numbers : List Int} {p : Patch} (h : semicolonPatch? d numbers = some p) :
    CleanEdit d p (d.apply { single := some p }) := by
  rw [semicolonPatch?_eq] at h
  obtain ⟨number, hnumber, rfl⟩ := Option.map_eq_some_iff.mp h
  have hlacks := List.find?_some hnumber
  obtain ⟨line, hline, -⟩ := (Option.any_eq_true _ _).mp hlacks
  rw [semicolonAt, hline, Option.getD_some]
  refine cleanEdit_of_line hline ?_ (stripRight_concat_ne line (by decide))
  obtain ⟨blanks, hblanks, -⟩ := exists_stripRight line
  have hnewline := hd line (mem_lines_of_line? hline)
  rw [hblanks, List.mem_append, not_or] at hnewline
  rw [List.mem_append, not_or]
  exact ⟨hnewline.1, by decide⟩

/-! ### Where a patch comes from -/

theorem patch_of_explainFinding {d : Document} {found : Diagnostic} {e : Explanation}
    (h : explainFinding d found = .ok e) :
    proposePatch d found = .ok e.patch ∧ e.patchSpec = { single := e.patch } := by
  unfold explainFinding at h
  cases hpatch : proposePatch d found with
  | error fault =>
    rw [hpatch] at h
    cases h
  | ok patch =>
    rw [hpatch] at h
    cases h
    exact ⟨rfl, rfl⟩

/-- The patch of an explanation puts a semicolon on a line, or it is proposed for a finding, and the
explanation proposes nothing else. -/
theorem patch_of_explainOffline {d : Document} {result : RunResult} {e : Explanation} {p : Patch}
    (h : explainOffline d result = .ok e) (hp : e.patch = some p) :
    e.patchSpec = { single := some p } ∧
      ((∃ numbers, semicolonPatch? d numbers = some p) ∨
        ∃ found ∈ result.diagnostics, proposePatch d found = .ok (some p)) := by
  unfold explainOffline at h
  split at h
  · next m _ =>
    cases hline : readInt (m.group 1) with
    | error fault =>
      rw [hline] at h
      cases h
    | ok line =>
      rw [hline] at h
      obtain rfl := Except.ok.inj h
      refine ⟨?_, Or.inl ⟨_, hp⟩⟩
      rw [← hp]
      rfl
  · split at h
    · next found _ hfound =>
      obtain ⟨hpatch, hspec⟩ := patch_of_explainFinding h
      rw [hp] at hpatch hspec
      exact ⟨hspec, Or.inr ⟨found, hfound ▸ List.mem_cons_self, hpatch⟩⟩
    · split at h
      · obtain rfl := Except.ok.inj h
        cases hp
      · obtain rfl := Except.ok.inj h
        cases hp

/-! ### Numbers that can be read -/

/-- A text whose numbers can all be read. -/
def ShortNumbers (text : List Char) : Prop :=
  ∀ digits, digits <:+: text → (∀ c ∈ digits, isDecimal c = true) → digits.length ≤ digitLimit

/-- A result whose numbers can all be read and written. -/
def ShortNumbersIn (result : RunResult) : Prop :=
  ShortNumbers result.output.toList ∧
    ∀ found ∈ result.diagnostics, (natDigits found.line).length ≤ digitLimit

theorem exists_lowerIndex {line : List Char} (h : ShortNumbers line) : ∃ fixed, lowerIndex line = .ok fixed := by
  unfold lowerIndex
  cases hsearch : literalIndex.search? line with
  | none => exact ⟨none, rfl⟩
  | some m =>
    obtain ⟨hline, hne, hdigits⟩ := Edits.digits_of_search? hsearch
    have hinfix : m.group 1 <:+: line := ⟨m.before ++ ['['], ']' :: m.rest, by
      conv => rhs; rw [hline]
      simp⟩
    obtain ⟨index, hread⟩ := (exists_readInt_iff hne hdigits).mpr (h _ hinfix hdigits)
    simp only [hread]
    by_cases hpos : 0 < index
    · exact ⟨_, if_pos hpos⟩
    · exact ⟨_, if_neg hpos⟩

theorem exists_proposePatch {d : Document} (hd : ∀ line ∈ d.lines, ShortNumbers line) (found : Diagnostic) :
    ∃ fix, proposePatch d found = .ok fix := by
  unfold proposePatch
  split
  · exact ⟨none, rfl⟩
  · split
    · exact ⟨none, rfl⟩
    · next line hline =>
      split
      · exact ⟨_, rfl⟩
      · split
        · obtain ⟨fixed, hfixed⟩ := exists_lowerIndex (hd line (mem_lines_of_line? hline))
          exact ⟨_, by rw [hfixed]; rfl⟩
        · exact ⟨none, rfl⟩

/-- The number of the line that a missing semicolon is reported at stands in the output. -/
theorem digits_of_missingSemicolon {text : List Char} {m : Match} (h : missingSemicolon.search? text = some m) :
    m.group 1 ≠ [] ∧ (∀ c ∈ m.group 1, isDecimal c = true) ∧ m.group 1 <:+: text := by
  obtain ⟨rest, htext, hmatch⟩ := Pattern.matches_of_search? h
  obtain ⟨digits, hne, hdigits, hgroup, hplace⟩ := marked_of_matches_missingSemicolon hmatch
  have hone : m.group 1 = digits := by rw [Match.group, Match.group?, hgroup, Option.getD_some]
  have hstart : ∃ more, rest = ':' :: (digits ++ more) := by
    rcases hplace with ⟨-, -, blanks, more, -, hrest⟩ | ⟨column, more, hrest, -⟩
    · exact ⟨_, hrest⟩
    · exact ⟨more, hrest⟩
  obtain ⟨more, rfl⟩ := hstart
  rw [hone, htext]
  exact ⟨hne, hdigits, m.before ++ [':'], more, by simp⟩

/-- Every result with numbers that can be read is explained. -/
theorem exists_explainOffline {d : Document} (hd : ∀ line ∈ d.lines, ShortNumbers line) {result : RunResult}
    (h : ShortNumbersIn result) : ∃ e, explainOffline d result = .ok e := by
  unfold explainOffline
  split
  · next m hsearch =>
    obtain ⟨hne, hdigits, hinfix⟩ := digits_of_missingSemicolon hsearch
    obtain ⟨line, hline⟩ := (exists_readInt_iff hne hdigits).mpr (h.1 _ hinfix hdigits)
    exact ⟨_, by rw [hline]; rfl⟩
  · split
    · next found _ _ =>
      obtain ⟨fix, hfix⟩ := exists_proposePatch hd found
      exact ⟨_, by rw [explainFinding, hfix]; rfl⟩
    · split
      · exact ⟨_, rfl⟩
      · exact ⟨_, rfl⟩

/-- A line is a part of the text. -/
theorem infix_of_mem_splitOn {text line : List Char} (h : line ∈ splitOn '\n' text) : line <:+: text := by
  obtain ⟨above, below, hlines⟩ := List.append_of_mem h
  obtain ⟨after, -, hjoin⟩ := joinWith_at above below
  refine ⟨above.flatMap (· ++ ['\n']), after, ?_⟩
  rw [List.append_assoc, ← hjoin, ← hlines, joinWith_splitOn]

/-! ### The whole -/

/-- **Fixes made without a model are clean.**  Whatever the result or the finding, a patch that is proposed
is applied to the text it was proposed for, as the one change, and changes the one line that it names; and
where no number has too many digits an answer is given. -/
theorem fixes_are_clean (code : String) :
    (∀ result e p, explainOffline (.ofText code) result = .ok e → e.patch = some p →
      e.patchSpec = { single := some p } ∧
        CleanEdit (.ofText code) p ((Document.ofText code).apply { single := some p })) ∧
    (∀ found p, proposePatch (.ofText code) found = .ok (some p) →
      CleanEdit (.ofText code) p ((Document.ofText code).apply { single := some p })) ∧
    (ShortNumbers code.toList → (∀ found, ∃ fix, proposePatch (.ofText code) found = .ok fix) ∧
      ∀ result, ShortNumbersIn result → ∃ e, explainOffline (.ofText code) result = .ok e) := by
  have hlines : ∀ line ∈ (Document.ofText code).lines, '\n' ∉ line :=
    fun line hline => notMem_of_mem_splitOn hline
  refine ⟨fun result e p he hp => ?_, fun found p hp => cleanEdit_of_proposePatch hlines hp, fun hshort => ?_⟩
  · obtain ⟨hspec, ⟨numbers, hpatch⟩ | ⟨found, -, hpatch⟩⟩ := patch_of_explainOffline he hp
    · exact ⟨hspec, cleanEdit_of_semicolonPatch? hlines hpatch⟩
    · exact ⟨hspec, cleanEdit_of_proposePatch hlines hpatch⟩
  · have hparts : ∀ line ∈ (Document.ofText code).lines, ShortNumbers line := fun line hline digits hdigits =>
      hshort digits (hdigits.trans (infix_of_mem_splitOn hline))
    exact ⟨exists_proposePatch hparts, fun result hresult => exists_explainOffline hparts hresult⟩

/-- A semicolon that is missing on the last line, reported behind the end of the text. -/
theorem fixes_are_clean_last_line :
    let d := Document.ofText "int n = 1;\nn = 2  "
    let result : RunResult :=
      { output := "main.c:3: error: expected ';'", exitCode := 1, classification := .error }
    let p : Patch := ⟨2, 2, "n = 2;"⟩
    ∃ e, explainOffline d result = .ok e ∧ e.patch = some p ∧
      CleanEdit d p (d.apply { single := some p }) := by
  intro d result p
  have hfound : (missingSemicolon.search? result.output.toList).map
      (fun m => (m.group 1, (m.group? 2).isSome)) = some (['3'], false) := by decide +kernel
  obtain ⟨m, hsearch, hm⟩ := Option.map_eq_some_iff.mp hfound
  obtain ⟨hone, htwo⟩ := Prod.mk.inj hm
  have hread : readInt ['3'] = .ok 3 := by rfl
  have he : explainOffline d result = .ok (explainSemicolon d 3 false) := by
    simp only [explainOffline, hsearch, hone, htwo, hread]
    rfl
  have hpatch : (explainSemicolon d 3 false).patch = some p := by decide +kernel
  exact ⟨_, he, hpatch, ((fixes_are_clean _).1 result _ p he hpatch).2⟩

end Coach.Tutor
