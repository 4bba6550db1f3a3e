import Coach.Proofs.Text.Lines
import Coach.Tutor.Heuristic

/-!
# Patches of one line

The changes that are proposed without a model put a text in place of a line.

## Main statements

* `apply_linePatch`: what applying such a patch comes to
-/

namespace Coach.Tutor

open Coach.Source Coach.Text

/-- A line of the document stands between those above and those below. -/
theorem exists_of_line? {d : Document} {number : Int} {line : List Char} (h : d.line? number = some line) :
    ∃ above below, d.lines = above ++ line :: below ∧ number = (above.length : Int) + 1 := by
  unfold Document.line? at h
  split at h
  · obtain ⟨hlt, hline⟩ := List.getElem?_eq_some_iff.mp h
    refine ⟨d.lines.take (number - 1).toNat, d.lines.drop ((number - 1).toNat + 1), ?_, ?_⟩
    · rw [← hline, ← List.drop_eq_getElem_cons hlt, List.take_append_drop]
    · rw [List.length_take]
      omega
  · cases h

/-- A patch of one line of the document is not clamped. -/
theorem clamp?_of_line {p : Patch} {lineCount : Nat} (hline : p.last = p.first) (hfirst : 1 ≤ p.first)
    (hcount : p.first ≤ lineCount) : p.clamp? lineCount = some (p.first, p.first) := by
  unfold Patch.clamp?
  rw [if_neg (by omega), if_neg (by omega), if_neg (by omega), Int.max_eq_left hfirst,
    Int.min_eq_left (by omega), hline]

/-- A patch of one line puts its text in place of that line, and tells that line alone as changed. -/
theorem apply_linePatch {d : Document} {above below : List (List Char)} {line text : List Char}
    (hlines : d.lines = above ++ line :: below) (htext : '\n' ∉ text) :
    d.apply { single := some (linePatch (above.length + 1) text) } =
      { document := { lines := above ++ text :: below }
        changedLines := [(above.length : Int) + 1]
        applied := 1 } := by
  have hcount : d.lineCount = above.length + 1 + below.length := by
    rw [Document.lineCount, hlines, List.length_append, List.length_cons]
    omega
  have hnew : (linePatch (above.length + 1) text).newLines = [text] := by
    rw [Patch.newLines, linePatch, String.toList_ofList, splitOn_of_notMem htext]
  have hclamp : (linePatch (above.length + 1) text).clamp? d.lineCount =
      some ((above.length : Int) + 1, (above.length : Int) + 1) := by
    refine clamp?_of_line rfl ?_ ?_ <;> simp only [linePatch] <;> omega
  have htake : d.lines.take ((above.length : Int) + 1 - 1).toNat = above := by
    rw [hlines, show ((above.length : Int) + 1 - 1).toNat = above.length by omega, List.take_left]
  have hdrop : d.lines.drop ((above.length : Int) + 1).toNat = below := by
    rw [hlines, show ((above.length : Int) + 1).toNat = above.length + 1 by omega, List.drop_append]
    simp
  have hreplace : d.replaceLines (above.length + 1) (above.length + 1) [text] =
      { lines := above ++ text :: below } := by
    rw [d.replaceLines_eq (by omega) (by omega), htake, hdrop, List.append_assoc]
    rfl
  simp [Document.apply, Document.applyPatches, applyFrom, hclamp, hnew, endsBefore, hreplace, numbersFrom]

theorem lines_apply_linePatch {d : Document} {above below : List (List Char)} {line text : List Char}
    (hlines : d.lines = above ++ line :: below) (htext : '\n' ∉ text) :
    (d.apply { single := some (linePatch (above.length + 1) text) }).document.lines =
      above ++ text :: below := by
  rw [apply_linePatch hlines htext]

/-- A patch of a line leaves the others as they are. -/
theorem lines_apply_linePatch_set {d : Document} {number : Nat} {line text : List Char}
    (hline : d.line? number = some line) (htext : '\n' ∉ text) :
    (d.apply { single := some (linePatch number text) }).document.lines = d.lines.set (number - 1) text := by
  obtain ⟨above, below, hlines, hnumber⟩ := exists_of_line? hline
  rw [hnumber, lines_apply_linePatch hlines htext, hlines, show number - 1 = above.length by omega,
    List.set_append_right _ _ (Nat.le_refl _), Nat.sub_self, List.set_cons_zero]

end Coach.Tutor
