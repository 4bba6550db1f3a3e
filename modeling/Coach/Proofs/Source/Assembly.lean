import Coach.Source.Patch

/-!
# A document assembled from patches at once

`applyFrom` rewrites a document that has already grown or shrunk, and shifts the numbers of changed
lines with every further patch.  What it amounts to is said here without any of that: the lines of the
*original* document are walked through once from the top, and each patch puts its lines in place of
its own range.

## Main definitions

* `Patch.start`, `Patch.stop`, `Patch.Covers`: the range of a patch, clamped to the original
* `Document.assemble`: the lines of the result, each with whether a patch put it in
* `markedFrom`: the numbers of the marked lines
* `selectFrom`, `Document.select`: the lines whose numbers are kept

## Design notes

A line carries a mark in place of a position.  The positions of the marked lines are read off at the
end, so a shift of all later positions is an equation about appended lists (`markedFrom_append`) and
no bookkeeping.
-/

namespace Coach.Source

/-! ### Ranges of the original -/

namespace Patch

/-- The first line of the range; numbers below one are clamped. -/
def start (p : Patch) : Int := max p.first 1

/-- The last line of the range in a document of `lineCount` lines. -/
def stop (lineCount : Nat) (p : Patch) : Int := min p.last lineCount

/-- A line that the patch replaces. -/
def Covers (lineCount : Nat) (p : Patch) (number : Int) : Prop :=
  p.start ≤ number ∧ number ≤ p.stop lineCount

instance (lineCount : Nat) (p : Patch) (number : Int) : Decidable (p.Covers lineCount number) :=
  inferInstanceAs (Decidable (_ ∧ _))

end Patch

/-- Patches from the top down whose ranges fit into a document of `lineCount` lines and lie behind
each other.  A range may be empty; it then stands before its first line. -/
structure Stacked (lineCount : Nat) (patches : List Patch) : Prop where
  /-- Each range begins on a line or right behind the last. -/
  start_le : ∀ p ∈ patches, p.start ≤ lineCount + 1
  /-- Each range ends at or after the line before its first. -/
  le_stop : ∀ p ∈ patches, p.start ≤ p.stop lineCount + 1
  /-- Each range ends before all later ones. -/
  apart : patches.Pairwise fun p q => p.stop lineCount < q.start

namespace Stacked

variable {n : Nat} {p : Patch} {ps : List Patch}

theorem nil : Stacked n [] := ⟨by simp, by simp, List.Pairwise.nil⟩

theorem tail (h : Stacked n (p :: ps)) : Stacked n ps :=
  ⟨fun q hq => h.start_le q (List.mem_cons_of_mem _ hq),
    fun q hq => h.le_stop q (List.mem_cons_of_mem _ hq), (List.pairwise_cons.mp h.apart).2⟩

theorem cons (hstart : p.start ≤ n + 1) (hstop : p.start ≤ p.stop n + 1)
    (hps : ∀ q ∈ ps, p.stop n < q.start) (h : Stacked n ps) : Stacked n (p :: ps) :=
  ⟨List.forall_mem_cons.mpr ⟨hstart, h.start_le⟩, List.forall_mem_cons.mpr ⟨hstop, h.le_stop⟩,
    List.pairwise_cons.mpr ⟨hps, h.apart⟩⟩

/-- Every range begins at a line number from one on. -/
theorem one_le_start (p : Patch) : 1 ≤ p.start := Int.le_max_right _ _

theorem stop_le (n : Nat) (p : Patch) : p.stop n ≤ n := Int.min_le_right _ _

/-- No line is covered twice. -/
theorem not_covered_twice (h : Stacked n ps) :
    ps.Pairwise fun p q => ∀ i, ¬ (p.Covers n i ∧ q.Covers n i) := by
  refine h.apart.imp ?_
  rintro p q hpq i ⟨hp, hq⟩
  have h₁ := hp.2
  have h₂ := hq.1
  omega

/-- Above the first range nothing is covered. -/
theorem not_covered_above (h : Stacked n (p :: ps)) {i : Int} (hi : i < p.start) :
    ¬ ∃ q ∈ p :: ps, q.Covers n i := by
  rintro ⟨q, hq, hcovers⟩
  have hqi := hcovers.1
  rcases List.mem_cons.mp hq with rfl | hq
  · omega
  · have hapart := (List.pairwise_cons.mp h.apart).1 q hq
    have hstop := h.le_stop p List.mem_cons_self
    omega

/-- Below a range it no longer matters. -/
theorem covered_below_iff {i : Int} (hi : p.stop n < i) :
    (∃ q ∈ p :: ps, q.Covers n i) ↔ ∃ q ∈ ps, q.Covers n i := by
  refine ⟨?_, fun ⟨q, hq, hcovers⟩ => ⟨q, List.mem_cons_of_mem _ hq, hcovers⟩⟩
  rintro ⟨q, hq, hcovers⟩
  have hqi := hcovers.2
  rcases List.mem_cons.mp hq with rfl | hq
  · omega
  · exact ⟨q, hq, hcovers⟩

end Stacked

/-! ### Marked lines -/

/-- The numbers of the marked lines, the first line having the number `number`. -/
def markedFrom (number : Int) : List (List Char × Bool) → List Int
  | [] => []
  | (_, true) :: rest => number :: markedFrom (number + 1) rest
  | (_, false) :: rest => markedFrom (number + 1) rest

/-- The lines whose numbers are kept, the first line having the number `number`. -/
def selectFrom (keep : Int → Bool) (number : Int) : List (List Char) → List (List Char)
  | [] => []
  | line :: rest =>
    if keep number then line :: selectFrom keep (number + 1) rest
    else selectFrom keep (number + 1) rest

theorem markedFrom_append (number : Int) (xs ys : List (List Char × Bool)) :
    markedFrom number (xs ++ ys) = markedFrom number xs ++ markedFrom (number + xs.length) ys := by
  induction xs generalizing number with
  | nil => simp [markedFrom]
  | cons x xs ih =>
    obtain ⟨line, marked⟩ := x
    have hlen : number + 1 + (xs.length : Int) = number + ((line, marked) :: xs).length := by
      rw [List.length_cons]; omega
    cases marked with
    | true => rw [List.cons_append, markedFrom, markedFrom, ih, hlen, List.cons_append]
    | false => rw [List.cons_append, markedFrom, markedFrom, ih, hlen]

/-- Lines that are moved carry their numbers along. -/
theorem markedFrom_add (number delta : Int) (xs : List (List Char × Bool)) :
    markedFrom (number + delta) xs = (markedFrom number xs).map (· + delta) := by
  induction xs generalizing number with
  | nil => rfl
  | cons x xs ih =>
    obtain ⟨line, marked⟩ := x
    have hnext : number + delta + 1 = number + 1 + delta := by omega
    cases marked with
    | true => rw [markedFrom, markedFrom, hnext, ih, List.map_cons]
    | false => rw [markedFrom, markedFrom, hnext, ih]

theorem markedFrom_unmarked (number : Int) (lines : List (List Char)) :
    markedFrom number (lines.map (·, false)) = [] := by
  induction lines generalizing number with
  | nil => rfl
  | cons line lines ih => rw [List.map_cons, markedFrom, ih]

theorem markedFrom_allMarked (number : Int) (lines : List (List Char)) :
    markedFrom number (lines.map (·, true)) = numbersFrom number lines.length := by
  induction lines generalizing number with
  | nil => rfl
  | cons line lines ih =>
    rw [List.map_cons, markedFrom, ih, numbersFrom, numbersFrom, List.length_cons,
      List.range_succ_eq_map, List.map_cons, List.map_map]
    congr 1
    · omega
    · exact List.map_congr_left fun i _ => by simp only [Function.comp_apply]; omega

theorem le_of_mem_markedFrom {number i : Int} {xs : List (List Char × Bool)}
    (h : i ∈ markedFrom number xs) : number ≤ i ∧ i < number + xs.length := by
  induction xs generalizing number with
  | nil => simp [markedFrom] at h
  | cons x xs ih =>
    obtain ⟨line, marked⟩ := x
    rw [List.length_cons]
    cases marked with
    | true =>
      rw [markedFrom, List.mem_cons] at h
      rcases h with rfl | h
      · omega
      · have := ih h
        omega
    | false =>
      have := ih h
      omega

/-- The numbers of marked lines come in ascending order. -/
theorem pairwise_markedFrom (number : Int) (xs : List (List Char × Bool)) :
    (markedFrom number xs).Pairwise (· < ·) := by
  induction xs generalizing number with
  | nil => exact List.Pairwise.nil
  | cons x xs ih =>
    obtain ⟨line, marked⟩ := x
    cases marked with
    | true =>
      rw [markedFrom]
      refine List.pairwise_cons.mpr ⟨fun i hi => ?_, ih _⟩
      have := (le_of_mem_markedFrom hi).1
      omega
    | false => exact ih _

/-! ### Selected lines -/

theorem selectFrom_append (keep : Int → Bool) (number : Int) (xs ys : List (List Char)) :
    selectFrom keep number (xs ++ ys) =
      selectFrom keep number xs ++ selectFrom keep (number + xs.length) ys := by
  induction xs generalizing number with
  | nil => simp [selectFrom]
  | cons x xs ih =>
    have hlen : number + 1 + (xs.length : Int) = number + (x :: xs).length := by
      rw [List.length_cons]; omega
    rw [List.cons_append, selectFrom, selectFrom, ih, hlen]
    split
    · rw [List.cons_append]
    · rfl

/-- Only the numbers from the first line to the last matter. -/
theorem selectFrom_congr {keep keep' : Int → Bool} {number : Int} {xs : List (List Char)}
    (h : ∀ i, number ≤ i → i < number + xs.length → keep i = keep' i) :
    selectFrom keep number xs = selectFrom keep' number xs := by
  induction xs generalizing number with
  | nil => rfl
  | cons x xs ih =>
    rw [List.length_cons] at h
    have hrest : selectFrom keep (number + 1) xs = selectFrom keep' (number + 1) xs :=
      ih fun i h₁ h₂ => h i (by omega) (by omega)
    rw [selectFrom, selectFrom, h number (by omega) (by omega), hrest]

theorem selectFrom_eq_self {keep : Int → Bool} {number : Int} {xs : List (List Char)}
    (h : ∀ i, number ≤ i → i < number + xs.length → keep i = true) :
    selectFrom keep number xs = xs := by
  induction xs generalizing number with
  | nil => rfl
  | cons x xs ih =>
    rw [List.length_cons] at h
    rw [selectFrom, if_pos (h number (by omega) (by omega)),
      ih fun i h₁ h₂ => h i (by omega) (by omega)]

theorem selectFrom_eq_nil {keep : Int → Bool} {number : Int} {xs : List (List Char)}
    (h : ∀ i, number ≤ i → i < number + xs.length → keep i = false) :
    selectFrom keep number xs = [] := by
  induction xs generalizing number with
  | nil => rfl
  | cons x xs ih =>
    rw [List.length_cons] at h
    rw [selectFrom, h number (by omega) (by omega), if_neg (by decide),
      ih fun i h₁ h₂ => h i (by omega) (by omega)]

/-- Selecting by whether a number is that of a marked line selects by the marks. -/
theorem selectFrom_marked (want : Bool → Bool) (number : Int) (xs : List (List Char × Bool)) :
    selectFrom (fun i => want (decide (i ∈ markedFrom number xs))) number (xs.map (·.1)) =
      (xs.filter (want ·.2)).map (·.1) := by
  induction xs generalizing number with
  | nil => rfl
  | cons x xs ih =>
    obtain ⟨line, marked⟩ := x
    have hmem : decide (number ∈ markedFrom number ((line, marked) :: xs)) = marked := by
      cases marked with
      | true => simp [markedFrom]
      | false =>
        refine decide_eq_false fun hmem => ?_
        have hrest : number ∈ markedFrom (number + 1) xs := hmem
        have := (le_of_mem_markedFrom hrest).1
        omega
    have hrest : selectFrom (fun i => want (decide (i ∈ markedFrom number ((line, marked) :: xs))))
        (number + 1) (xs.map (·.1)) = (xs.filter (want ·.2)).map (·.1) := by
      rw [← ih (number + 1)]
      refine selectFrom_congr fun i hi _ => ?_
      have hne : i ≠ number := by omega
      cases marked with
      | true => simp only [markedFrom, List.mem_cons, hne, false_or]
      | false => rfl
    rw [List.map_cons, selectFrom, hmem, hrest]
    cases hwant : want marked with
    | true => simp [hwant]
    | false => simp [hwant]

theorem map_fst_marked (marked : Bool) (lines : List (List Char)) :
    (lines.map (·, marked)).map (·.1) = lines := by
  rw [List.map_map]
  exact List.map_id lines

theorem filter_marked (want : Bool → Bool) (marked : Bool) (lines : List (List Char)) :
    ((lines.map (·, marked)).filter (want ·.2)).map (·.1) = if want marked then lines else [] := by
  rw [List.filter_map, List.map_map]
  cases hwant : want marked with
  | true => simp [Function.comp_def, hwant]
  | false => simp [Function.comp_def, hwant]

/-! ### The assembled document -/

namespace Document

/-- The lines of a document whose numbers are kept. -/
def select (d : Document) (keep : Int → Bool) : List (List Char) := selectFrom keep 1 d.lines

/-- The lines after the first `done` with every patch in its place, each with whether a patch put it
in. -/
def assemble (d : Document) (done : Nat) : List Patch → List (List Char × Bool)
  | [] => (d.lines.drop done).map (·, false)
  | p :: ps =>
    ((d.lines.take (p.start - 1).toNat).drop done).map (·, false) ++
      (p.newLines.map (·, true) ++ d.assemble (p.stop d.lineCount).toNat ps)

variable {d : Document} {p : Patch} {ps : List Patch} {k j : Nat}

theorem assemble_nil (d : Document) (k : Nat) :
    d.assemble k [] = (d.lines.drop k).map (·, false) := rfl

theorem assemble_cons (d : Document) (k : Nat) (p : Patch) (ps : List Patch) :
    d.assemble k (p :: ps) =
      ((d.lines.take (p.start - 1).toNat).drop k).map (·, false) ++
        (p.newLines.map (·, true) ++ d.assemble (p.stop d.lineCount).toNat ps) := rfl

/-- Up to the first range the original is unchanged. -/
theorem assemble_eq_append (hps : ∀ p ∈ ps, (k : Int) < p.start) :
    d.assemble 0 ps = (d.lines.take k).map (·, false) ++ d.assemble k ps := by
  cases ps with
  | nil =>
    rw [assemble_nil, assemble_nil, ← List.map_append, List.drop_zero, List.take_append_drop]
  | cons p ps =>
    have hp := hps p List.mem_cons_self
    have hsplit : d.lines.take k ++ (d.lines.take (p.start - 1).toNat).drop k =
        d.lines.take (p.start - 1).toNat := by
      have htake : d.lines.take k = (d.lines.take (p.start - 1).toNat).take k := by
        rw [List.take_take, Nat.min_eq_left (by omega)]
      rw [htake, List.take_append_drop]
    rw [assemble_cons, assemble_cons, List.drop_zero, ← hsplit, List.map_append, List.append_assoc,
      hsplit]

/-- The new lines are those of the patches, from the top down. -/
theorem map_filter_assemble (d : Document) (k : Nat) (ps : List Patch) :
    ((d.assemble k ps).filter (·.2)).map (·.1) = ps.flatMap Patch.newLines := by
  induction ps generalizing k with
  | nil => exact filter_marked id false _
  | cons p ps ih =>
    have hbefore := filter_marked id false ((d.lines.take (p.start - 1).toNat).drop k)
    have hnew := filter_marked id true p.newLines
    simp only [id_eq, Bool.false_eq_true, if_false, if_true] at hbefore hnew
    rw [assemble_cons, List.filter_append, List.filter_append, List.map_append, List.map_append,
      hbefore, hnew, ih, List.nil_append, List.flatMap_cons]

/-- The lines between two places, and those behind the second. -/
theorem drop_take_append {α : Type} {lines : List α} (hkj : k ≤ j) (hj : j ≤ lines.length) :
    (lines.take j).drop k ++ lines.drop j = lines.drop k := by
  rw [← List.drop_append_of_le_length (by rw [List.length_take]; omega), List.take_append_drop]

/-- The other lines are those of the original that no patch covers. -/
theorem map_filter_not_assemble (h : Stacked d.lineCount ps) (hk : k ≤ d.lineCount)
    (hps : ∀ p ∈ ps, (k : Int) < p.start) :
    ((d.assemble k ps).filter (!·.2)).map (·.1) =
      selectFrom (fun i => decide (¬ ∃ p ∈ ps, p.Covers d.lineCount i)) (k + 1)
        (d.lines.drop k) := by
  have hcount : d.lines.length = d.lineCount := rfl
  induction ps generalizing k with
  | nil =>
    rw [assemble_nil, filter_marked not false, Bool.not_false, if_pos rfl]
    exact (selectFrom_eq_self fun i _ _ => by simp).symm
  | cons p ps ih =>
    have hstart := hps p List.mem_cons_self
    have hle := h.start_le p List.mem_cons_self
    have hstop := h.le_stop p List.mem_cons_self
    have hlast := Stacked.stop_le d.lineCount p
    have hfirst := Stacked.one_le_start p
    have hrest : ∀ q ∈ ps, ((p.stop d.lineCount).toNat : Int) < q.start := fun q hq => by
      have := (List.pairwise_cons.mp h.apart).1 q hq
      omega
    -- the rest of the original is what stands before the range, the range, and what is behind it
    have hrange : (d.lines.take (p.stop d.lineCount).toNat).drop (p.start - 1).toNat ++
        d.lines.drop (p.stop d.lineCount).toNat = d.lines.drop (p.start - 1).toNat :=
      drop_take_append (by omega) (by omega)
    have hsplit : (d.lines.take (p.start - 1).toNat).drop k ++ d.lines.drop (p.start - 1).toNat =
        d.lines.drop k := drop_take_append (by omega) (by omega)
    rw [assemble_cons, List.filter_append, List.filter_append, List.map_append, List.map_append,
      filter_marked not false, filter_marked not true, ih h.tail (by omega) hrest, ← hsplit,
      ← hrange, selectFrom_append, selectFrom_append, Bool.not_false, if_pos rfl, Bool.not_true,
      if_neg (by decide)]
    congr 1
    · refine (selectFrom_eq_self fun i _ hi => decide_eq_true (h.not_covered_above ?_)).symm
      rw [List.length_drop, List.length_take] at hi
      omega
    · congr 1
      · refine (selectFrom_eq_nil fun i hi₁ hi₂ => decide_eq_false (not_not_intro
          ⟨p, List.mem_cons_self, ?_, ?_⟩)).symm
        · rw [List.length_drop, List.length_take] at hi₁
          omega
        · rw [List.length_drop, List.length_take, List.length_drop, List.length_take] at hi₂
          omega
      · have hnumber : (k : Int) + 1 + ((d.lines.take (p.start - 1).toNat).drop k).length +
            ((d.lines.take (p.stop d.lineCount).toNat).drop (p.start - 1).toNat).length =
            ((p.stop d.lineCount).toNat : Int) + 1 := by
          rw [List.length_drop, List.length_take, List.length_drop, List.length_take]
          omega
        rw [hnumber]
        refine selectFrom_congr fun i hi _ => ?_
        rw [decide_eq_decide, Stacked.covered_below_iff (by omega)]

/-- The numbers of the new lines: those of the first patch, and the others behind them. -/
theorem markedFrom_assemble_cons (hp : p.start ≤ d.lineCount + 1) :
    markedFrom 1 (d.assemble 0 (p :: ps)) =
      numbersFrom p.start p.newLines.length ++
        markedFrom (p.start + p.newLines.length) (d.assemble (p.stop d.lineCount).toNat ps) := by
  have hcount : d.lines.length = d.lineCount := rfl
  have hone := Stacked.one_le_start p
  rw [assemble_cons, markedFrom_append, markedFrom_append, markedFrom_unmarked, markedFrom_allMarked,
    List.nil_append, List.drop_zero, List.length_map, List.length_map, List.length_take]
  congr 2 <;> omega

/-- Lines replaced where the document has not changed yet. -/
theorem lines_replaceLines {now d : Document} {new rest : List (List Char)} (hone : 1 ≤ p.start)
    (hstop : p.start ≤ p.stop d.lineCount + 1)
    (hlines : now.lines = d.lines.take (p.stop d.lineCount).toNat ++ rest) :
    (now.replaceLines p.start (p.stop d.lineCount) new).lines =
      d.lines.take (p.start - 1).toNat ++ (new ++ rest) := by
  have hlast := Stacked.stop_le d.lineCount p
  have hcount : d.lines.length = d.lineCount := rfl
  have htake : now.lines.take (p.start - 1).toNat = d.lines.take (p.start - 1).toNat := by
    rw [hlines, List.take_append_of_le_length (by rw [List.length_take]; omega), List.take_take,
      Nat.min_eq_left (by omega)]
  have hdrop : now.lines.drop (p.stop d.lineCount).toNat = rest := by
    rw [hlines]
    exact List.drop_left' (by rw [List.length_take]; omega)
  rw [replaceLines_eq now hone (by omega), htake, hdrop, List.append_assoc]

end Document

end Coach.Source
