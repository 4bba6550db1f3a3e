import Coach.Proofs.Text.Lines
import Coach.Source.Patch
import Mathlib.Tactic.SplitIfs

/-!
# Documents under changes

A document that comes from a text comes from its own text again: it has a line, and no line has a newline
in it.  Every change keeps that, whatever the bounds of its patches.

Bounds are clamped before lines are replaced, so that no replacement reaches outside the document that it
is made in.  To say so, the loop over the patches is given with the way of replacing lines as a parameter,
in any monad.  One lemma about it serves the plain loop and the one that records its replacements
(`Replacement.Follows`).

## Main definitions

* `Document.IsProper`: a document that some text has
* `Replacement`, `Replacement.Fits`: a replacement of lines, and whether it stays within its document
* `Document.applyBy`, `Document.applyEachBy`: changes applied with a given way of replacing lines
* `Replacement.recorded`: the way of replacing lines that records what it does

## Main statements

* `Document.IsProper.apply`: a change keeps a document proper
* `Patch.fits_of_clamp?`: a clamped range stays within the document
* `Replacement.Follows.applyEachBy`: changes lead to the same, and only by replacements that fit
* `patched_documents_round_trip`: documents after any changes
-/

namespace Coach.Source

open Coach.Text

/-! ### Documents of texts -/

theorem mem_of_mem_takeSigned {α : Type} {n : Int} {items : List α} {a : α} (h : a ∈ takeSigned n items) :
    a ∈ items := by
  unfold takeSigned at h
  split at h <;> exact List.mem_of_mem_take h

theorem mem_of_mem_dropSigned {α : Type} {n : Int} {items : List α} {a : α} (h : a ∈ dropSigned n items) :
    a ∈ items := by
  unfold dropSigned at h
  split at h <;> exact List.mem_of_mem_drop h

namespace Document

variable {d : Document}

/-- A document with a line, and with no newline in its lines. -/
structure IsProper (d : Document) : Prop where
  lines_ne_nil : d.lines ≠ []
  newline_notMem : ∀ line ∈ d.lines, '\n' ∉ line

theorem isProper_ofText (text : String) : (ofText text).IsProper where
  lines_ne_nil := splitOn_ne_nil _ _
  newline_notMem := fun _ => notMem_of_mem_splitOn

/-- The lines are the pieces of the text. -/
theorem IsProper.splitOn_text (h : d.IsProper) : splitOn '\n' d.text.toList = d.lines := by
  rw [text, String.toList_ofList, chars, splitOn_joinWith h.lines_ne_nil h.newline_notMem]

theorem IsProper.ofText_text (h : d.IsProper) : ofText d.text = d := by
  rw [ofText, ofChars, h.splitOn_text]

/-- New lines keep a document proper, in whatever place they are put. -/
theorem IsProper.replaceLines (h : d.IsProper) (start stop : Int) {new : List (List Char)} (hne : new ≠ [])
    (hnew : ∀ line ∈ new, '\n' ∉ line) : (d.replaceLines start stop new).IsProper where
  lines_ne_nil := by simp [Document.replaceLines, hne]
  newline_notMem := by
    intro line hline
    rw [Document.replaceLines, List.mem_append, List.mem_append] at hline
    rcases hline with (hbefore | hmem) | hafter
    · exact h.newline_notMem line (mem_of_mem_takeSigned hbefore)
    · exact hnew line hmem
    · exact h.newline_notMem line (mem_of_mem_dropSigned hafter)

/-- The lines of a patch are those of a text. -/
theorem IsProper.splice (h : d.IsProper) (start stop : Int) (p : Patch) :
    (d.replaceLines start stop p.newLines).IsProper :=
  h.replaceLines start stop (splitOn_ne_nil _ _) fun _ => notMem_of_mem_splitOn

theorem isProper_applyFrom {r : PatchResult} (h : r.document.IsProper) (boundary : Option Int)
    (patches : List Patch) : (applyFrom boundary r patches).document.IsProper := by
  induction patches generalizing boundary r with
  | nil => exact h
  | cons p rest ih =>
    have hskip := ih (r := { r with skipped := r.skipped + 1 }) h boundary
    rw [applyFrom]
    split
    · exact hskip
    · split
      · exact hskip
      · exact ih (h.splice _ _ p) _

/-- A change keeps a document proper. -/
theorem IsProper.apply (h : d.IsProper) (spec : PatchSpec) : (d.apply spec).document.IsProper := by
  unfold Document.apply
  split
  · exact isProper_ofText _
  · exact isProper_applyFrom h none _
  · exact isProper_applyFrom h none _
  · exact h

/-- What changes have done that are applied one after another, each to the document that the one before it
has left. -/
def applyEach (d : Document) : List PatchSpec → List PatchResult
  | [] => []
  | spec :: specs => d.apply spec :: (d.apply spec).document.applyEach specs

theorem IsProper.applyEach (h : d.IsProper) (specs : List PatchSpec) :
    ∀ r ∈ d.applyEach specs, r.document.IsProper := by
  induction specs generalizing d with
  | nil => nofun
  | cons spec specs ih => exact List.forall_mem_cons.mpr ⟨h.apply spec, ih (h.apply spec)⟩

end Document

/-! ### Replacements -/

/-- A replacement of lines: in which document, from which line to which, and with what. -/
structure Replacement where
  document : Document
  start : Int
  stop : Int
  newLines : List (List Char)

namespace Replacement

/-- The document after the replacement. -/
def result (c : Replacement) : Document := c.document.replaceLines c.start c.stop c.newLines

/-- A replacement that begins and ends within its document.  One that only inserts ends on the line before
its first. -/
structure Fits (c : Replacement) : Prop where
  one_le_start : 1 ≤ c.start
  start_le : c.start - 1 ≤ c.stop
  stop_le : c.stop ≤ c.document.lineCount

/-- A replacement that fits keeps the lines before its range and those behind it, none of them counted from
the end. -/
theorem Fits.result_eq {c : Replacement} (h : c.Fits) : c.result =
    { lines := c.document.lines.take (c.start - 1).toNat ++ c.newLines ++
        c.document.lines.drop c.stop.toNat } := by
  have hone := h.one_le_start
  have hstop := h.start_le
  exact c.document.replaceLines_eq hone (by omega) c.newLines

end Replacement

/-- A clamped range stays within the document. -/
theorem Patch.fits_of_clamp? {d : Document} {p : Patch} {start stop : Int} (new : List (List Char))
    (h : p.clamp? d.lineCount = some (start, stop)) : Replacement.Fits ⟨d, start, stop, new⟩ := by
  unfold Patch.clamp? at h
  dsimp only at h
  split_ifs at h with _ _ hempty
  obtain ⟨rfl, rfl⟩ := Prod.mk.inj (Option.some.inj h)
  exact ⟨Int.le_max_right _ _, Int.not_lt.mp hempty, Int.min_le_right _ _⟩

/-! ### Changes with a given way of replacing lines -/

section By

variable {m : Type → Type} [Monad m] (replace : Replacement → m Document)

/-- `applyFrom`, in which lines are replaced by `replace`. -/
def applyFromBy (boundary : Option Int) (r : PatchResult) : List Patch → m PatchResult
  | [] => pure r
  | p :: rest =>
    match p.clamp? r.document.lineCount with
    | none => applyFromBy boundary { r with skipped := r.skipped + 1 } rest
    | some (start, stop) =>
      if !endsBefore stop boundary then
        applyFromBy boundary { r with skipped := r.skipped + 1 } rest
      else do
        let delta : Int := p.newLines.length - (stop - start + 1)
        let document ← replace ⟨r.document, start, stop, p.newLines⟩
        applyFromBy (some start)
          { document
            changedLines := r.changedLines.map (· + delta) ++ numbersFrom start p.newLines.length
            applied := r.applied + 1
            skipped := r.skipped } rest

namespace Document

/-- `applyPatches`, in which lines are replaced by `replace`. -/
def applyPatchesBy (d : Document) (patches : List Patch) : m PatchResult := do
  let r ← applyFromBy replace none { document := d } (patches.mergeSort Patch.goesBefore)
  pure { r with changedLines := r.changedLines.mergeSort (fun a b => decide (a ≤ b)) }

/-- `apply`, in which lines are replaced by `replace`. -/
def applyBy (d : Document) (spec : PatchSpec) : m PatchResult :=
  match spec.fullText, spec.patches, spec.single with
  | some text, _, _ =>
    let replaced := Document.ofText text
    pure { document := replaced, changedLines := numbersFrom 1 replaced.lineCount, applied := 1 }
  | none, some patches, _ => d.applyPatchesBy replace patches
  | none, none, some p => d.applyPatchesBy replace [p]
  | none, none, none => pure { document := d }

/-- `applyEach`, in which lines are replaced by `replace`. -/
def applyEachBy (d : Document) : List PatchSpec → m (List PatchResult)
  | [] => pure []
  | spec :: specs => do
    let r ← d.applyBy replace spec
    let results ← r.document.applyEachBy specs
    pure (r :: results)

end Document

end By

namespace Replacement

/-- A relation between computations and what they come to, which holds of one step after another, and of
replacements that fit. -/
structure Follows {m : Type → Type} [Monad m] (replace : Replacement → m Document)
    (R : ∀ {α : Type}, m α → α → Prop) : Prop where
  pure : ∀ {α : Type} (a : α), R (pure a) a
  bind : ∀ {α β : Type} {x : m α} {f : α → m β} {a : α} {b : β}, R x a → R (f a) b → R (x >>= f) b
  replace : ∀ c : Replacement, c.Fits → R (replace c) c.result

namespace Follows

variable {m : Type → Type} [Monad m] {replace : Replacement → m Document}
  {R : ∀ {α : Type}, m α → α → Prop}

/-- The loop makes no replacement that does not fit. -/
theorem applyFromBy (h : Follows replace R) (boundary : Option Int) (r : PatchResult)
    (patches : List Patch) : R (applyFromBy replace boundary r patches) (applyFrom boundary r patches) := by
  induction patches generalizing boundary r with
  | nil => exact h.pure r
  | cons p rest ih =>
    rw [Source.applyFromBy, applyFrom]
    cases hclamp : p.clamp? r.document.lineCount with
    | none => exact ih boundary _
    | some range =>
      obtain ⟨start, stop⟩ := range
      dsimp only
      split
      · exact ih boundary _
      · exact h.bind (h.replace _ (Patch.fits_of_clamp? p.newLines hclamp)) (ih (some start) _)

theorem applyPatchesBy (h : Follows replace R) (d : Document) (patches : List Patch) :
    R (d.applyPatchesBy replace patches) (d.applyPatches patches) :=
  h.bind (h.applyFromBy none _ _) (h.pure _)

theorem applyBy (h : Follows replace R) (d : Document) (spec : PatchSpec) :
    R (d.applyBy replace spec) (d.apply spec) := by
  obtain ⟨fullText, patches, single⟩ := spec
  cases fullText with
  | some text => exact h.pure _
  | none =>
    cases patches with
    | some patches => exact h.applyPatchesBy d patches
    | none =>
      cases single with
      | some p => exact h.applyPatchesBy d [p]
      | none => exact h.pure _

/-- Nor do changes that are applied one after another. -/
theorem applyEachBy (h : Follows replace R) (d : Document) (specs : List PatchSpec) :
    R (d.applyEachBy replace specs) (d.applyEach specs) := by
  induction specs generalizing d with
  | nil => exact h.pure []
  | cons spec specs ih => exact h.bind (h.applyBy d spec) (h.bind (ih _) (h.pure _))

end Follows

/-- Without a monad the changes are the plain ones. -/
theorem follows_result : Follows (m := Id) result fun x a => x = a where
  pure _ := rfl
  bind hx hf := by
    subst hx
    exact hf
  replace _ _ := rfl

/-- Replaces lines and records the replacement. -/
def recorded (c : Replacement) : StateM (List Replacement) Document := do
  modify (· ++ [c])
  pure c.result

/-- What is recorded fits, if only replacements that fit are made. -/
theorem follows_recorded : Follows recorded fun x a => ∀ log : List Replacement, (∀ c ∈ log, c.Fits) →
    (x.run log).1 = a ∧ ∀ c ∈ (x.run log).2, c.Fits where
  pure _ _ hlog := ⟨rfl, hlog⟩
  bind hx hf log hlog := by
    obtain ⟨rfl, hmore⟩ := hx log hlog
    exact hf _ hmore
  replace c hc _ hlog := ⟨rfl, List.forall_mem_append.mpr ⟨hlog, List.forall_mem_singleton.mpr hc⟩⟩

end Replacement

/-- **Documents under changes come from their own texts.**  Whatever changes a document has gone through
since it was made from a text, it has at least one line, none of its lines has a newline in it, its text
has the same document, and its lines are as many as the pieces of its text.  On the way lines are replaced
by `Replacement.result` alone, and each replacement that is made begins and ends within the document it is
made in: it counts no line from the end. -/
theorem patched_documents_round_trip (text : String) (specs : List PatchSpec) :
    let d := Document.ofText text
    let run := (d.applyEachBy Replacement.recorded specs).run []
    (∀ e ∈ d :: (d.applyEach specs).map PatchResult.document,
      1 ≤ e.lineCount ∧ (∀ line ∈ e.lines, '\n' ∉ line) ∧ Document.ofText e.text = e ∧
        e.lineCount = (splitOn '\n' e.text.toList).length) ∧
    d.applyEachBy (m := Id) Replacement.result specs = d.applyEach specs ∧
    run.1 = d.applyEach specs ∧
    ∀ c ∈ run.2, c.Fits ∧ c.result =
      { lines := c.document.lines.take (c.start - 1).toNat ++ c.newLines ++
          c.document.lines.drop c.stop.toNat } := by
  intro d run
  have hd : d.IsProper := Document.isProper_ofText text
  have hproper : ∀ e ∈ d :: (d.applyEach specs).map PatchResult.document, e.IsProper :=
    List.forall_mem_cons.mpr ⟨hd, List.forall_mem_map.mpr (hd.applyEach specs)⟩
  obtain ⟨hresults, hfits⟩ := Replacement.follows_recorded.applyEachBy d specs [] nofun
  refine ⟨fun e he => ?_, Replacement.follows_result.applyEachBy d specs, hresults,
    fun c hc => ⟨hfits c hc, (hfits c hc).result_eq⟩⟩
  have h := hproper e he
  refine ⟨List.length_pos_iff.mpr h.lines_ne_nil, h.newline_notMem, h.ofText_text, ?_⟩
  rw [h.splitOn_text]
  rfl

/-- A patch that ends behind the last line, and one that begins before the first and only inserts. -/
theorem patched_documents_round_trip_clamped :
    let d := Document.ofText "a\nb"
    let behind : PatchSpec := { single := some { first := 2, last := 9, replacement := "y\nz" } }
    let front : PatchSpec := { single := some { first := -3, last := 0, replacement := "top" } }
    let e := Document.ofText "top\na\ny\nz"
    let c : Replacement := ⟨{ lines := [['a'], ['y'], ['z']] }, 1, 0, [['t', 'o', 'p']]⟩
    e ∈ d :: (d.applyEach [behind, front]).map PatchResult.document ∧
      c ∈ ((d.applyEachBy Replacement.recorded [behind, front]).run []).2 ∧
      e.lineCount = (splitOn '\n' e.text.toList).length ∧ c.Fits ∧ c.result = e := by
  intro d behind front e c
  have hresults : (d.applyEach [behind, front]).map PatchResult.document =
      [{ lines := [['a'], ['y'], ['z']] }, e] := by
    simp only [Document.applyEach, Document.apply, Document.applyPatches, List.mergeSort_singleton, behind,
      front]
    decide
  have hlog : ((d.applyEachBy Replacement.recorded [behind, front]).run []).2 =
      [⟨d, 2, 2, [['y'], ['z']]⟩, c] := by
    simp only [Document.applyEachBy, Document.applyBy, Document.applyPatchesBy, List.mergeSort_singleton,
      behind, front]
    rfl
  have he : e ∈ d :: (d.applyEach [behind, front]).map PatchResult.document := by simp [hresults]
  have hc : c ∈ ((d.applyEachBy Replacement.recorded [behind, front]).run []).2 := by simp [hlog]
  obtain ⟨hround, -, -, hfits⟩ := patched_documents_round_trip "a\nb" [behind, front]
  exact ⟨he, hc, (hround e he).2.2.2, (hfits c hc).1, by decide⟩

end Coach.Source
