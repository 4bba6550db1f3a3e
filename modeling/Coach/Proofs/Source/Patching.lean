import Coach.Proofs.Lists
import Coach.Proofs.Source.Assembly
import Coach.Proofs.Text.Lines
import Mathlib.Data.List.Induction

/-!
# Applying patches from the bottom up

Patches are applied one after another, from the last range to the first, each to the document that
those before it have left.  The theorem of this module says that this is one replacement on the
original document: which patches are refused, which lines stay, which are new and what their numbers
are can all be read off the original lines and the bounds of the patches.

## Main definitions

* `Patch.Refused`: a patch that does not fit, or reaches a range that is taken
* `placed`: the patches that are applied, the topmost first
* `Progress`: what the loop has made of the document after some patches
* `Descending`: patches in the order in which they are considered

## Design notes

The loop keeps the first line that is taken, and nothing else of the patches behind it.  That is
enough because patches come in descending order: above that line the document still is the original,
and every range to come begins at or above it (`clamp?_of_placed`).
-/

namespace Coach.Source

open Coach.Text

/-! ### Which patches are applied -/

/-- A patch is refused when its bounds are reversed, when it begins more than one line past the end,
when it ends before the line above the first, or when it reaches the first line of a patch that has
been applied. -/
def Patch.Refused (lineCount : Nat) (taken : List Patch) (p : Patch) : Prop :=
  p.last < p.first ∨ (lineCount : Int) + 1 < p.first ∨ p.last < 0 ∨ ∃ q ∈ taken, q.start ≤ p.last

instance (lineCount : Nat) (taken : List Patch) (p : Patch) :
    Decidable (p.Refused lineCount taken) :=
  inferInstanceAs (Decidable (_ ∨ _ ∨ _ ∨ _))

/-- The patches that are applied when some are considered in their order.  The one applied last stands
in front. -/
def placed (lineCount : Nat) (patches : List Patch) : List Patch :=
  patches.foldl (fun taken p => if p.Refused lineCount taken then taken else p :: taken) []

theorem placed_nil (n : Nat) : placed n [] = [] := rfl

theorem placed_concat (n : Nat) (patches : List Patch) (p : Patch) :
    placed n (patches ++ [p]) =
      if p.Refused n (placed n patches) then placed n patches else p :: placed n patches := by
  rw [placed, List.foldl_append]
  rfl

theorem mem_of_mem_placed {n : Nat} {patches : List Patch} {q : Patch} (h : q ∈ placed n patches) :
    q ∈ patches := by
  induction patches using List.reverseRecOn with
  | nil => exact h
  | append_singleton patches p ih =>
    rw [placed_concat] at h
    rw [List.mem_append]
    split at h
    · exact Or.inl (ih h)
    · rcases List.mem_cons.mp h with rfl | h
      · exact Or.inr List.mem_cons_self
      · exact Or.inl (ih h)

/-- A patch that is not refused, and begins no later than those that are applied, goes on top. -/
theorem Stacked.push {n : Nat} {taken : List Patch} {p : Patch} (h : Stacked n taken)
    (hp : ¬ p.Refused n taken) : Stacked n (p :: taken) := by
  simp only [Patch.Refused, not_or, not_exists, not_and, Int.not_lt, Int.not_le] at hp
  obtain ⟨horder, hpast, hneg, hfree⟩ := hp
  refine Stacked.cons ?_ ?_ ?_ h
  · simp only [Patch.start]; omega
  · simp only [Patch.start, Patch.stop]; omega
  · intro q hq
    have := hfree q hq
    simp only [Patch.stop]
    omega

/-- The ranges of the applied patches lie behind each other. -/
theorem stacked_placed (n : Nat) (patches : List Patch) : Stacked n (placed n patches) := by
  induction patches using List.reverseRecOn with
  | nil => exact Stacked.nil
  | append_singleton patches p ih =>
    rw [placed_concat]
    split
    · exact ih
    · next hp => exact ih.push hp

/-! ### The clamped range -/

/-- Every patch puts in at least one line. -/
theorem Patch.length_newLines_pos (p : Patch) : 0 < p.newLines.length :=
  List.length_pos_iff.mpr (splitOn_ne_nil _ _)

/-- While nothing is taken, a patch is refused exactly when it cannot be clamped. -/
theorem Patch.clamp?_of_nil (p : Patch) (n : Nat) :
    p.clamp? n = if p.Refused n [] then none else some (p.start, p.stop n) := by
  unfold Patch.clamp? Patch.Refused Patch.start Patch.stop
  simp only [List.not_mem_nil, false_and, exists_false, or_false]
  split
  · next h => rw [if_pos (Or.inl h)]
  · next h₁ =>
    split
    · next h => rw [if_pos (Or.inr (Or.inl h))]
    · next h₂ =>
      split
      · next h => rw [if_pos (Or.inr (Or.inr (by omega)))]
      · next h => rw [if_neg (by omega)]

/-- Once something is taken, a patch that begins no later is refused exactly when it cannot be clamped
to the present document or reaches the first line that is taken; otherwise it is clamped as in the
original. -/
theorem Patch.clamp?_of_placed {n m : Nat} {p q : Patch} {qs : List Patch}
    (hstack : Stacked n (q :: qs)) (hm : q.start ≤ m) (hfirst : p.first ≤ q.first) :
    (p.Refused n (q :: qs) →
      p.clamp? m = none ∨ ∃ start stop, p.clamp? m = some (start, stop) ∧ q.start ≤ stop) ∧
    (¬ p.Refused n (q :: qs) → p.clamp? m = some (p.start, p.stop n) ∧ p.stop n < q.start) := by
  have hle := hstack.start_le q List.mem_cons_self
  have hone := Stacked.one_le_start q
  have hsame : (∃ q' ∈ q :: qs, q'.start ≤ p.last) ↔ q.start ≤ p.last := by
    refine ⟨?_, fun h => ⟨q, List.mem_cons_self, h⟩⟩
    rintro ⟨q', hq', hreach⟩
    rcases List.mem_cons.mp hq' with rfl | hq'
    · exact hreach
    · have h₁ := (List.pairwise_cons.mp hstack.apart).1 q' hq'
      have h₂ := hstack.le_stop q List.mem_cons_self
      omega
  have hstart : p.start ≤ q.start := by
    simp only [Patch.start] at *
    omega
  unfold Patch.Refused
  rw [hsame]
  unfold Patch.clamp?
  simp only [Patch.start, Patch.stop] at *
  constructor
  · intro h
    split
    · exact Or.inl rfl
    · split
      · exact Or.inl rfl
      · split
        · exact Or.inl rfl
        · exact Or.inr ⟨_, _, rfl, by omega⟩
  · intro h
    rw [if_neg (by omega), if_neg (by omega), if_neg (by omega)]
    refine ⟨?_, by omega⟩
    rw [show min p.last (m : Int) = min p.last (n : Int) by omega]

/-! ### One round of the loop -/

/-- What the loop has made of a document after the patches `seen`: the assembled document, the numbers
of its new lines in some order, and the first line that is taken. -/
structure Progress (d : Document) (seen : List Patch) (boundary : Option Int) (r : PatchResult) :
    Prop where
  boundary_eq : boundary = (placed d.lineCount seen).head?.map Patch.start
  lines_eq : r.document.lines = (d.assemble 0 (placed d.lineCount seen)).map (·.1)
  changed_perm :
    r.changedLines.Perm (markedFrom 1 (d.assemble 0 (placed d.lineCount seen)))
  applied_eq : r.applied = (placed d.lineCount seen).length
  count_eq : r.applied + r.skipped = seen.length

namespace Progress

variable {d : Document} {seen rest : List Patch} {p : Patch} {boundary : Option Int}
variable {r : PatchResult}

theorem start (d : Document) : Progress d [] none { document := d } where
  boundary_eq := rfl
  lines_eq := by
    rw [placed_nil, Document.assemble_nil, map_fst_marked, List.drop_zero]
  changed_perm := by
    rw [placed_nil, Document.assemble_nil, markedFrom_unmarked]
  applied_eq := rfl
  count_eq := rfl

/-- The first line that is taken is a line of the present document. -/
theorem start_le_lineCount (h : Progress d seen boundary r) {q : Patch} {qs : List Patch}
    (hq : placed d.lineCount seen = q :: qs) : q.start ≤ r.document.lineCount := by
  have hstack := hq ▸ stacked_placed d.lineCount seen
  have hle := hstack.start_le q List.mem_cons_self
  have hnew := q.length_newLines_pos
  have hcount : d.lines.length = d.lineCount := rfl
  rw [Document.lineCount, h.lines_eq, hq, Document.assemble_cons]
  simp only [List.length_map, List.length_append, List.length_drop, List.length_take]
  omega

/-- A refused patch is skipped and changes nothing else. -/
theorem skip (h : Progress d seen boundary r) (hp : p.Refused d.lineCount (placed d.lineCount seen)) :
    Progress d (seen ++ [p]) boundary { r with skipped := r.skipped + 1 } := by
  have hplaced : placed d.lineCount (seen ++ [p]) = placed d.lineCount seen := by
    rw [placed_concat, if_pos hp]
  refine ⟨?_, ?_, ?_, ?_, ?_⟩
  · rw [hplaced]; exact h.boundary_eq
  · rw [hplaced]; exact h.lines_eq
  · rw [hplaced]; exact h.changed_perm
  · rw [hplaced]; exact h.applied_eq
  · have := h.count_eq
    rw [List.length_append, List.length_singleton, ← Nat.add_assoc, this]

/-- The result of splicing the lines of a patch into the present document. -/
def splice (r : PatchResult) (n : Nat) (p : Patch) : PatchResult :=
  { document := r.document.replaceLines p.start (p.stop n) p.newLines
    changedLines := r.changedLines.map (· + (p.newLines.length - (p.stop n - p.start + 1))) ++
      numbersFrom p.start p.newLines.length
    applied := r.applied + 1
    skipped := r.skipped }

/-- Above the ranges that are taken the document is the original. -/
theorem lines_eq_append (h : Progress d seen boundary r) {k : Nat}
    (hk : ∀ q ∈ placed d.lineCount seen, (k : Int) < q.start) :
    r.document.lines =
      d.lines.take k ++ (d.assemble k (placed d.lineCount seen)).map (·.1) := by
  rw [h.lines_eq, Document.assemble_eq_append hk, List.map_append, map_fst_marked]

/-- Above the ranges that are taken no line has changed. -/
theorem changed_perm_behind (h : Progress d seen boundary r) {k : Nat} (hle : k ≤ d.lineCount)
    (hk : ∀ q ∈ placed d.lineCount seen, (k : Int) < q.start) :
    r.changedLines.Perm (markedFrom (1 + k) (d.assemble k (placed d.lineCount seen))) := by
  have hcount : d.lines.length = d.lineCount := rfl
  refine h.changed_perm.trans (List.Perm.of_eq ?_)
  rw [Document.assemble_eq_append hk, markedFrom_append, markedFrom_unmarked, List.nil_append,
    List.length_map, List.length_take, Nat.min_eq_left (by omega)]

/-- A patch that is not refused is spliced in, and the document is the one assembled with it. -/
theorem put (h : Progress d seen boundary r)
    (hp : ¬ p.Refused d.lineCount (placed d.lineCount seen)) :
    Progress d (seen ++ [p]) (some p.start) (splice r d.lineCount p) := by
  have hplaced : placed d.lineCount (seen ++ [p]) = p :: placed d.lineCount seen := by
    rw [placed_concat, if_neg hp]
  have hstack := (stacked_placed d.lineCount seen).push hp
  have hone := Stacked.one_le_start p
  have hstop := hstack.le_stop p List.mem_cons_self
  have hlast := Stacked.stop_le d.lineCount p
  have hbehind : ∀ q ∈ placed d.lineCount seen, ((p.stop d.lineCount).toNat : Int) < q.start := by
    intro q hq
    have := (List.pairwise_cons.mp hstack.apart).1 q hq
    omega
  refine ⟨?_, ?_, ?_, ?_, ?_⟩
  · rw [hplaced]; rfl
  · rw [hplaced, Document.assemble_cons, List.map_append, List.map_append, map_fst_marked,
      map_fst_marked, List.drop_zero]
    exact Document.lines_replaceLines hone hstop (h.lines_eq_append hbehind)
  · -- the lines behind the range move by as many lines as the patch adds
    have hshift : (markedFrom (1 + (p.stop d.lineCount).toNat)
        (d.assemble (p.stop d.lineCount).toNat (placed d.lineCount seen))).map
          (· + (p.newLines.length - (p.stop d.lineCount - p.start + 1))) =
        markedFrom (p.start + p.newLines.length)
          (d.assemble (p.stop d.lineCount).toNat (placed d.lineCount seen)) := by
      rw [← markedFrom_add]
      congr 1
      omega
    rw [hplaced, Document.markedFrom_assemble_cons (hstack.start_le p List.mem_cons_self), splice]
    refine List.Perm.trans ?_ List.perm_append_comm
    have hchanged := h.changed_perm_behind (by omega) hbehind
    exact ((hchanged.map _).trans (List.Perm.of_eq hshift)).append_right _
  · rw [hplaced, List.length_cons, ← h.applied_eq]; rfl
  · have := h.count_eq
    rw [List.length_append, List.length_singleton]
    simp only [splice]
    omega

/-- One round of the loop: a refused patch is skipped, any other is put in. -/
theorem applyFrom_cons (h : Progress d seen boundary r) (hp : ∀ q ∈ seen, p.first ≤ q.first)
    (rest : List Patch) :
    applyFrom boundary r (p :: rest) =
      if p.Refused d.lineCount (placed d.lineCount seen) then
        applyFrom boundary { r with skipped := r.skipped + 1 } rest
      else applyFrom (some p.start) (splice r d.lineCount p) rest := by
  rw [applyFrom]
  -- the bounds are clamped to the present document, which is the original while nothing is taken
  cases hplaced : placed d.lineCount seen with
  | nil =>
    have hboundary : boundary = none := by rw [h.boundary_eq, hplaced]; rfl
    have hsame : r.document.lineCount = d.lineCount := by
      rw [Document.lineCount, h.lines_eq, hplaced, Document.assemble_nil, map_fst_marked,
        List.drop_zero]
      rfl
    rw [hsame, Patch.clamp?_of_nil, hboundary]
    by_cases href : p.Refused d.lineCount []
    · rw [if_pos href, if_pos href]
    · rw [if_neg href, if_neg href]
      rfl
  | cons q qs =>
    have hboundary : boundary = some q.start := by rw [h.boundary_eq, hplaced]; rfl
    have hq : q ∈ seen := mem_of_mem_placed (hplaced ▸ List.mem_cons_self)
    obtain ⟨hrefused, haccepted⟩ := Patch.clamp?_of_placed
      (hplaced ▸ stacked_placed d.lineCount seen) (h.start_le_lineCount hplaced) (hp q hq)
    rw [hboundary]
    by_cases href : p.Refused d.lineCount (q :: qs)
    · rw [if_pos href]
      rcases hrefused href with hnone | ⟨start, stop, hsome, hreach⟩
      · rw [hnone]
      · rw [hsome]
        have hends : endsBefore stop (some q.start) = false := by
          rw [endsBefore, decide_eq_false]
          omega
        simp only [hends, Bool.not_false, if_true]
    · rw [if_neg href]
      obtain ⟨hsome, hfree⟩ := haccepted href
      have hends : endsBefore (p.stop d.lineCount) (some q.start) = true := by
        rw [endsBefore, decide_eq_true hfree]
      rw [hsome]
      simp only [hends, Bool.not_true, Bool.false_eq_true, if_false, splice]

/-- The whole loop, by induction on the patches that are left.  It can be stopped after any of them
and taken up again with the boundary that it has come to. -/
theorem applyFrom_all (h : Progress d seen boundary r)
    (hsorted : (seen ++ rest).Pairwise fun p q => q.first ≤ p.first) :
    ∃ boundary', Progress d (seen ++ rest) boundary' (applyFrom boundary r rest) ∧
      ∀ later, applyFrom boundary r (rest ++ later) =
        applyFrom boundary' (applyFrom boundary r rest) later := by
  induction rest generalizing seen boundary r with
  | nil =>
    rw [List.append_nil]
    exact ⟨boundary, h, fun later => rfl⟩
  | cons p rest ih =>
    have hp : ∀ q ∈ seen, p.first ≤ q.first := fun q hq =>
      (List.pairwise_append.mp hsorted).2.2 q hq p List.mem_cons_self
    rw [List.append_cons] at hsorted
    rw [List.append_cons]
    by_cases href : p.Refused d.lineCount (placed d.lineCount seen)
    · obtain ⟨boundary', hprogress, hlater⟩ := ih (h.skip href) hsorted
      rw [h.applyFrom_cons hp rest, if_pos href]
      refine ⟨boundary', hprogress, fun later => ?_⟩
      rw [List.cons_append, h.applyFrom_cons hp _, if_pos href, hlater later]
    · obtain ⟨boundary', hprogress, hlater⟩ := ih (h.put href) hsorted
      rw [h.applyFrom_cons hp rest, if_neg href]
      refine ⟨boundary', hprogress, fun later => ?_⟩
      rw [List.cons_append, h.applyFrom_cons hp _, if_neg href, hlater later]

/-- What the loop does at one of the patches depends on those before it alone. -/
theorem decision {before after : List Patch}
    (hsorted : (before ++ p :: after).Pairwise fun p q => q.first ≤ p.first) :
    let s := applyFrom none { document := d } before
    let t := applyFrom none { document := d } (before ++ [p])
    (p.Refused d.lineCount (placed d.lineCount before) → t = { s with skipped := s.skipped + 1 }) ∧
    (¬ p.Refused d.lineCount (placed d.lineCount before) →
      t.applied = s.applied + 1 ∧ t.skipped = s.skipped) := by
  rw [List.append_cons, List.pairwise_append, List.pairwise_append] at hsorted
  obtain ⟨⟨hbefore, -, hp⟩, -, -⟩ := hsorted
  obtain ⟨boundary', hstate, hlater⟩ := (Progress.start d).applyFrom_all hbefore
  rw [List.nil_append] at hstate
  have hround := hstate.applyFrom_cons (fun q hq => hp q hq p List.mem_cons_self) []
  dsimp only
  rw [hlater [p], hround]
  refine ⟨fun href => ?_, fun hacc => ?_⟩
  · rw [if_pos href]
    rfl
  · rw [if_neg hacc]
    exact ⟨rfl, rfl⟩

end Progress

/-! ### The order of the patches -/

/-- The patches in the order in which they are considered: descending by first and then by last line,
and as they are listed where both are the same. -/
structure Descending (patches ordered : List Patch) : Prop where
  perm : ordered.Perm patches
  sorted : ordered.Pairwise fun p q => q.first < p.first ∨ q.first = p.first ∧ q.last ≤ p.last
  stable : ∀ first last, ordered.filter (fun p => p.first = first ∧ p.last = last) =
    patches.filter (fun p => p.first = first ∧ p.last = last)

theorem Patch.goesBefore_iff (p q : Patch) :
    p.goesBefore q = true ↔ q.first < p.first ∨ q.first = p.first ∧ q.last ≤ p.last := by
  rw [Patch.goesBefore, Bool.or_eq_true, Bool.and_eq_true, decide_eq_true_iff, decide_eq_true_iff,
    decide_eq_true_iff]

theorem Patch.goesBefore_trans (p q s : Patch) (h₁ : p.goesBefore q = true)
    (h₂ : q.goesBefore s = true) : p.goesBefore s = true := by
  rw [Patch.goesBefore_iff] at *
  omega

theorem Patch.goesBefore_total (p q : Patch) : (p.goesBefore q || q.goesBefore p) = true := by
  rw [Bool.or_eq_true, Patch.goesBefore_iff, Patch.goesBefore_iff]
  omega

theorem descending_mergeSort (patches : List Patch) :
    Descending patches (patches.mergeSort Patch.goesBefore) where
  perm := List.mergeSort_perm _ _
  sorted := (List.pairwise_mergeSort Patch.goesBefore_trans Patch.goesBefore_total patches).imp
    fun h => (Patch.goesBefore_iff _ _).mp h
  stable := by
    intro first last
    refine filter_mergeSort Patch.goesBefore_trans Patch.goesBefore_total (fun p q hp hq => ?_) patches
    rw [decide_eq_true_iff] at hp hq
    rw [Patch.goesBefore_iff]
    omega

/-! ### The result -/

/-- A result is one replacement on the original document: every clause speaks of the lines of `d`, of
the bounds of the patches and of the result alone. -/
structure AppliedAtOnce (d : Document) (ordered : List Patch) (r : PatchResult) : Prop where
  /-- A patch is skipped exactly when it is refused, given those before it that are applied. -/
  decision : ∀ before p after, ordered = before ++ p :: after →
    let s := applyFrom none { document := d } before
    let t := applyFrom none { document := d } (before ++ [p])
    (p.Refused d.lineCount (placed d.lineCount before) → t = { s with skipped := s.skipped + 1 }) ∧
    (¬ p.Refused d.lineCount (placed d.lineCount before) →
      t.applied = s.applied + 1 ∧ t.skipped = s.skipped)
  /-- The result has the counts and the lines of the whole run. -/
  run : ∃ numbers, r = { applyFrom none { document := d } ordered with changedLines := numbers }
  applied_eq : r.applied = (placed d.lineCount ordered).length
  count_eq : r.applied + r.skipped = ordered.length
  /-- No line of the original is replaced twice. -/
  disjoint : (placed d.lineCount ordered).Pairwise
    fun p q => ∀ i, ¬ (p.Covers d.lineCount i ∧ q.Covers d.lineCount i)
  /-- The result is the original with every patch in its place. -/
  assembled : r.document.lines = (d.assemble 0 (placed d.lineCount ordered)).map (·.1)
  /-- The unchanged lines are the lines of the original that no patch covers. -/
  kept : r.document.select (fun i => decide (i ∉ r.changedLines)) =
    d.select (fun i => decide (¬ ∃ p ∈ placed d.lineCount ordered, p.Covers d.lineCount i))
  /-- The changed lines are those of the applied patches, the last applied first. -/
  new : r.document.select (fun i => decide (i ∈ r.changedLines)) =
    (placed d.lineCount ordered).flatMap Patch.newLines
  ascending : r.changedLines.Pairwise (· < ·)
  within : ∀ i ∈ r.changedLines, 1 ≤ i ∧ i ≤ r.document.lineCount

/-- Sorting the numbers of the changed lines gives the numbers of the marked lines. -/
theorem mergeSort_eq_markedFrom {numbers : List Int} {xs : List (List Char × Bool)}
    (h : numbers.Perm (markedFrom 1 xs)) :
    numbers.mergeSort (fun a b => decide (a ≤ b)) = markedFrom 1 xs := by
  have hsorted : (numbers.mergeSort fun a b => decide (a ≤ b)).Pairwise (· ≤ ·) := by
    refine (List.pairwise_mergeSort (fun a b c hab hbc => ?_) (fun a b => ?_) numbers).imp
      fun h => of_decide_eq_true h
    · rw [decide_eq_true_iff] at *
      omega
    · rw [Bool.or_eq_true, decide_eq_true_iff, decide_eq_true_iff]
      omega
  exact ((List.mergeSort_perm numbers _).trans h).eq_of_pairwise
    (fun a b _ _ h₁ h₂ => by omega) hsorted ((pairwise_markedFrom 1 xs).imp fun h => by omega)

/-- **Applying patches is one simultaneous replacement on the original lines.** -/
theorem apply_patches_at_once (d : Document) (patches : List Patch) :
    ∃ ordered, Descending patches ordered ∧
      AppliedAtOnce d ordered (d.apply { patches := some patches }) := by
  have horder := descending_mergeSort patches
  refine ⟨_, horder, ?_⟩
  generalize hordered : patches.mergeSort Patch.goesBefore = ordered at horder
  have hsorted : ordered.Pairwise fun p q => q.first ≤ p.first :=
    horder.sorted.imp fun h => by omega
  have hsorted' : (([] : List Patch) ++ ordered).Pairwise fun p q => q.first ≤ p.first := hsorted
  obtain ⟨boundary, hprogress, -⟩ := (Progress.start d).applyFrom_all hsorted'
  rw [List.nil_append] at hprogress
  have happly : d.apply { patches := some patches } =
      { applyFrom none { document := d } ordered with
        changedLines := markedFrom 1 (d.assemble 0 (placed d.lineCount ordered)) } := by
    rw [← mergeSort_eq_markedFrom hprogress.changed_perm, ← hordered]
    rfl
  have hstack := stacked_placed d.lineCount ordered
  rw [happly]
  refine
    { decision := ?_, run := ⟨_, rfl⟩, applied_eq := hprogress.applied_eq,
      count_eq := hprogress.count_eq, disjoint := hstack.not_covered_twice,
      assembled := hprogress.lines_eq, kept := ?_, new := ?_,
      ascending := pairwise_markedFrom 1 _, within := ?_ }
  · rintro before p after rfl
    exact Progress.decision hsorted
  · rw [Document.select, hprogress.lines_eq]
    simp only [decide_not]
    refine (selectFrom_marked not 1 _).trans ?_
    simp only [← decide_not]
    exact Document.map_filter_not_assemble hstack (Nat.zero_le _)
      fun p _ => by have := Stacked.one_le_start p; omega
  · rw [Document.select, hprogress.lines_eq]
    exact (selectFrom_marked id 1 _).trans (Document.map_filter_assemble d 0 _)
  · intro i hi
    have hbounds := le_of_mem_markedFrom hi
    rw [Document.lineCount, hprogress.lines_eq, List.length_map]
    omega

end Coach.Source
