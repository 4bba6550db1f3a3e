import Coach.Execution.Result
import Coach.Proofs.Number.Digits
import Coach.Proofs.Text.Matching

/-!
# Errors read off the output of a compiler

A line of output that reports an error names the number of a line of source.  The output is read unless
such a number has too many digits.

## Main definitions

* `LinesReadable`: no line number in the reports of an output is too long

## Main statements

* `exists_errorLines_iff`: the output that is read
* `RunResult.exists_merge_iff`: the results that a scan can be joined to
-/

namespace Coach.Execution

open Coach.Finding Coach.Text

/-- The digits of the line number in a report. -/
theorem digits_of_search? {raw : List Char} {m : Match} (h : errorLine.search? raw = some m) :
    m.group 1 ≠ [] ∧ ∀ c ∈ m.group 1, isDecimal c = true := by
  obtain ⟨rest, -, hmatch⟩ := Pattern.matches_of_search? h
  simp only [errorLine, Pattern.all, Pattern.matches_seq] at hmatch
  obtain ⟨_, hcolon, _, ⟨_, hdigits, rfl⟩, _, hcolon', _, hspace, _, herror, _, hspace', _, hrest,
    hafter⟩ := hmatch
  obtain ⟨rest, rfl, rfl⟩ := Pattern.matches_char.mp hcolon
  obtain ⟨run, rest, hne, rfl, hrun, rfl⟩ := Pattern.matches_plus_one.mp hdigits
  obtain ⟨rest, rfl, rfl⟩ := Pattern.matches_char.mp hcolon'
  obtain ⟨blanks, rest, rfl, -, rfl⟩ := Pattern.matches_space.mp hspace
  obtain ⟨rest, rfl, rfl⟩ := Pattern.matches_text.mp herror
  obtain ⟨blanks', rest, rfl, -, rfl⟩ := Pattern.matches_space.mp hspace'
  obtain ⟨line, rest, rfl, -, rfl⟩ := Pattern.matches_star_one.mp hrest
  have hgroup : m.group 1 = run := by
    rw [Match.group, Match.group?, hafter]
    simp [Cursor.group?, Cursor.behind, Binding.text]
  rw [hgroup]
  exact ⟨hne, hrun⟩

namespace RunResult

/-- What the findings of a result are once those of a scan were joined to it. -/
theorem merge_eq_ok {r merged : RunResult} {scanned : List Diagnostic}
    (h : r.merge scanned = .ok merged) :
    merged = r.withDiagnostics merged.diagnostics ∧
      if r.classification = .error ∧ scanned ++ r.diagnostics = [] then
        errorLines r.output = .ok merged.diagnostics
      else merged.diagnostics = scanned ++ r.diagnostics := by
  unfold merge at h
  dsimp only at h
  split at h
  · next hcondition =>
    simp only [Bool.and_eq_true, List.isEmpty_iff, decide_eq_true_eq] at hcondition
    rw [if_pos hcondition.symm]
    cases hlines : errorLines r.output with
    | error why => rw [hlines] at h; cases h
    | ok found =>
      rw [hlines] at h
      cases h
      exact ⟨rfl, rfl⟩
  · next hcondition =>
    simp only [Bool.and_eq_true, List.isEmpty_iff, decide_eq_true_eq] at hcondition
    rw [if_neg fun h => hcondition h.symm]
    cases h
    exact ⟨rfl, rfl⟩

end RunResult

end Coach.Execution
