import Coach.Execution.Result
import Coach.Tutor.Education
import Coach.Tutor.Explanation

/-!
# Explanations without a model

A missing semicolon is explained from the output of the compiler, a finding from the material of its
category, with a one-line change where a simple rule gives one.

## Main definitions

* `proposePatch`: a one-line change for a finding
* `explainOffline`: an explanation of a result

## Design notes

A number with too many digits in the text is a fault of the whole explanation.
-/

namespace Coach.Tutor

open Coach.Execution Coach.Finding Coach.Source Coach.Text

/-- A report of a missing semicolon: the line is group 1; group 2 is there when the line is the one
that lacks it rather than the one behind it. -/
def missingSemicolon : Pattern :=
  .all [.char ':', .group 1 .digits, .char ':', .optional (.seq .digits (.char ':')), .space,
    .text "error:", .space,
    .alt (.group 2 (.all [.text "';'", .space, .text "expected"]))
      (.all [.text "expected", .space, .text "';'"])]

/-- A literal index between brackets, group 1. -/
def literalIndex : Pattern := .all [.char '[', .group 1 .digits, .char ']']

/-- The text with the first occurrence of a part replaced. -/
def replaceFirst (old new text : List Char) : List Char :=
  match breakOn? old text with
  | some (before, after) => before ++ new ++ after
  | none => text

/-- A patch of one line. -/
def linePatch (line : Int) (text : List Char) : Patch :=
  { first := line, last := line, replacement := String.ofList text }

/-- A literal index made one less, if it is positive. -/
def lowerIndex (line : List Char) : Except IntFault (Option (List Char)) :=
  match literalIndex.search? line with
  | none => .ok none
  | some m => do
    let index ← readInt (m.group 1)
    if 0 < index then
      return some (m.before ++ '[' :: intText (index - 1) ++ ']' :: m.rest)
    else return none

/-- A one-line change for a loop that runs too far or an index that is past the end. -/
def proposePatch (d : Document) (found : Diagnostic) : Except IntFault (Option Patch) :=
  if found.category ≠ .offByOne ∧ found.category ≠ .arrayIndexOutOfBounds then .ok none
  else match d.line? found.line with
    | none => .ok none
    | some line =>
      if contains line ['<', '='] && contains line ['f', 'o', 'r'] then
        .ok (some (linePatch found.line (replaceFirst ['<', '='] ['<'] line)))
      else if found.category = .arrayIndexOutOfBounds then do
        return (← lowerIndex line).map (linePatch found.line)
      else .ok none

/-- An explanation of a finding, from the material of its category. -/
def explainFinding (d : Document) (found : Diagnostic) : Except IntFault Explanation := do
  let l := lesson found.category
  let patch ← proposePatch d found
  return { summary := l.title
           detail :=
             "**What's Wrong:** " ++ l.whatsWrong ++ "\n\n" ++
             "**Why It Matters:** " ++ l.whyItMatters ++ "\n\n" ++
             "**Concept:** " ++ l.concept ++ "\n\n" ++
             s!"**Location:** Line {found.line}\n" ++ found.message
           fixSummary := l.prevention
           confidence := 0.95
           author := .heuristic
           patch
           rootCauseLines := if found.line = 0 then [] else [(found.line : Int)]
           hints := l.concept :: l.relatedTopics }

/-- Whether a line can be the one that lacks a semicolon: it says something, does not end a statement
or a block, and is no comment. -/
def mayLackSemicolon (line : List Char) : Bool :=
  let stripped := strip line
  let ends (c : Char) := stripped.getLast? == some c
  !stripped.isEmpty && !ends ';' && !ends '\x7d' && !ends '\x7b' &&
    !startsWith stripped ['/', '/'] && !startsWith stripped ['/', '*']

/-- A semicolon for the first line among some that can lack one. -/
def semicolonPatch? (d : Document) : List Int → Option Patch
  | [] => none
  | number :: rest =>
    match d.line? number with
    | some line =>
      if mayLackSemicolon line then some (linePatch number (stripRight line ++ [';']))
      else semicolonPatch? d rest
    | none => semicolonPatch? d rest

/-- An explanation of a missing semicolon that is reported at a line. -/
def explainSemicolon (d : Document) (reported : Int) (atLine : Bool) : Explanation :=
  let patch := semicolonPatch? d (if atLine then [reported, reported - 1] else [reported - 1, reported])
  { summary := "Missing Semicolon"
    detail :=
      "Every statement must end with a semicolon (;). " ++
        "This is one of the most common errors."
    fixSummary := "Add a semicolon at the end of the line."
    confidence := 0.95
    author := .heuristic
    patch
    rootCauseLines := [patch.elim reported (·.first)]
    hints := ["Look for the line reported in the error", "Check the previous line too"] }

/-- An explanation of a result: of a missing semicolon, else of its first finding, else of a failure
at large. -/
def explainOffline (d : Document) (r : RunResult) : Except IntFault Explanation :=
  match missingSemicolon.search? r.output.toList with
  | some m => do
    let reported ← readInt (m.group 1)
    return explainSemicolon d reported (m.group? 2).isSome
  | none => match r.diagnostics with
    | found :: _ => explainFinding d found
    | [] =>
      if r.exitCode ≠ 0 || contains r.output.toList "error:".toList then
        .ok { summary := "Compilation Failed"
              detail := "The code failed to compile. Please check the syntax."
              fixSummary := "Fix the syntax errors reported by the compiler."
              confidence := 0.5
              author := .heuristic }
      else
        .ok { summary := "Code looks good!"
              detail := "No obvious errors were found. Great job!"
              fixSummary := "N/A"
              confidence := 1.0
              author := .heuristic }

end Coach.Tutor
