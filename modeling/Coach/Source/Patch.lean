import Coach.Source.Document

/-!
# Patches

Changes to a document addressed by line numbers. Patches come from sources that make mistakes, so one
that does not fit is skipped and never an error.

## Main definitions

* `Patch`: a range of lines with its replacement
* `PatchSpec`: a full replacement, several patches, or one patch, in this order of priority
* `Document.applyPatches`: patches applied from the last to the first
* `Document.apply`: a specification applied

## Design notes

All patches address the lines of the document as it was. They are applied from the bottom up, so the
numbers of those still to come stay valid, and one that reaches a line already taken is skipped.
-/

namespace Coach.Source

open Coach.Text

/-- Replaces the lines from `first` to `last`. -/
structure Patch where
  first : Int
  last : Int
  replacement : String
  deriving DecidableEq, Repr

/-- The lines that a patch puts in. -/
def Patch.newLines (p : Patch) : List (List Char) := splitOn '\n' p.replacement.toList

/-- A proposed change: a full replacement goes before several patches, those before a single one. -/
structure PatchSpec where
  fullText : Option String := none
  patches : Option (List Patch) := none
  single : Option Patch := none
  deriving DecidableEq, Repr

/-- Whether no change is proposed. -/
def PatchSpec.isEmpty (s : PatchSpec) : Bool :=
  s.fullText.isNone && s.patches.isNone && s.single.isNone

/-- What applying a change has done. Changed lines are numbered in the new document. -/
structure PatchResult where
  document : Document
  changedLines : List Int := []
  applied : Nat := 0
  skipped : Nat := 0
  deriving DecidableEq, Repr

/-- Whether one patch goes before another: the one further down first, by its first line and then by
its last. -/
def Patch.goesBefore (p q : Patch) : Bool :=
  decide (q.first < p.first) || (decide (q.first = p.first) && decide (q.last ≤ p.last))

/-- The range of a patch clamped to a document of `lineCount` lines; nothing when it does not fit. -/
def Patch.clamp? (p : Patch) (lineCount : Nat) : Option (Int × Int) :=
  if p.last < p.first then none
  else if (lineCount : Int) + 1 < p.first then none
  else
    let start := max p.first 1
    let stop := min p.last lineCount
    if stop < start - 1 then none else some (start, stop)

/-- Whether a range ends before the lines that are taken, which begin at `boundary`. -/
def endsBefore (stop : Int) (boundary : Option Int) : Bool :=
  match boundary with
  | none => true
  | some b => stop < b

/-- The numbers from `start` on, as many as there are new lines. -/
def numbersFrom (start : Int) (count : Nat) : List Int :=
  (List.range count).map fun (i : Nat) => start + i

/-- Applies patches in the given order; `boundary` is the first line that is already taken. -/
def applyFrom (boundary : Option Int) (r : PatchResult) : List Patch → PatchResult
  | [] => r
  | p :: rest =>
    match p.clamp? r.document.lineCount with
    | none => applyFrom boundary { r with skipped := r.skipped + 1 } rest
    | some (start, stop) =>
      if !endsBefore stop boundary then
        applyFrom boundary { r with skipped := r.skipped + 1 } rest
      else
        let delta : Int := p.newLines.length - (stop - start + 1)
        applyFrom (some start)
          { document := r.document.replaceLines start stop p.newLines
            changedLines := r.changedLines.map (· + delta) ++ numbersFrom start p.newLines.length
            applied := r.applied + 1
            skipped := r.skipped } rest

namespace Document

/-- Applies patches from the bottom up. -/
def applyPatches (d : Document) (patches : List Patch) : PatchResult :=
  let r := applyFrom none { document := d } (patches.mergeSort Patch.goesBefore)
  { r with changedLines := r.changedLines.mergeSort (fun a b => decide (a ≤ b)) }

/-- Applies a proposed change. -/
def apply (d : Document) (spec : PatchSpec) : PatchResult :=
  match spec.fullText, spec.patches, spec.single with
  | some text, _, _ =>
    let replaced := Document.ofText text
    { document := replaced, changedLines := numbersFrom 1 replaced.lineCount, applied := 1 }
  | none, some patches, _ => d.applyPatches patches
  | none, none, some p => d.applyPatches [p]
  | none, none, none => { document := d }

end Document

end Coach.Source
