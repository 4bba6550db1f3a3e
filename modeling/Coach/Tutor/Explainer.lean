import Coach.Schema.Basic
import Coach.Tutor.Heuristic
import Coach.Tutor.Prompt

/-!
# Explaining a run

A model is asked for an explanation. When there is none, when it is not available, or when its reply
does not have the form that was asked for, the explanation is made without one.

## Main definitions

* `readExplanation`: the explanation in a reply
* `explain`: the explanation of a run
-/

namespace Coach.Tutor

open Coach.Execution Coach.Model Coach.Schema Coach.Service Coach.Source Coach.Text

/-- Reads a patch. -/
def readPatch : Reader Patch := fields fun o =>
  Patch.mk
    <$> required o "line_start" integer
    <*> required o "line_end" integer
    <*> required o "replacement" (textAtMost 20000 text)

/-- Reads a program; one of nothing but white space counts as none. -/
def readProgram : Reader (Option String)
  | .string s =>
    if (strip s.toList).isEmpty then .valid none
    else (textAtMost 50000 text (.string s)).map some
  | j => optional text j

/-- Reads the explanation in a reply. -/
def readExplanation : Reader Explanation := fields fun o =>
  (fun summary detail fixSummary correctedCode patches patch rootCauseLines hints confidence =>
    ({ summary, detail, fixSummary, confidence, author := .model, correctedCode, patches, patch
       rootCauseLines, hints } : Explanation))
    <$> required o "summary" (textAtMost 2000 (textAtLeast 1 text))
    <*> withDefault o "detailed_explanation" "" (textAtMost 10000 text)
    <*> withDefault o "fix_summary" "" (textAtMost 2000 text)
    <*> withDefault o "corrected_code" none readProgram
    <*> withDefault o "minimal_fix_patches" none (optional (listOf (some 50) readPatch))
    <*> withDefault o "minimal_fix_patch" none (optional readPatch)
    <*> withDefault o "root_cause_lines" [] (listOf (some 100) integer)
    <*> withDefault o "hints" [] (listOf (some 20) text)
    <*> withDefault o "confidence" 0.5 (doubleFrom 0 (doubleTo 1 double))

/-- The explanation that is made without a model. -/
def offline (code : String) (result : RunResult) : Except Fault Explanation :=
  match explainOffline (Document.ofText code) result with
  | .ok e => .ok e
  | .error fault => .error { kind := .value, message := fault.message }

/-- What a model's answer comes to. -/
def explanationOf (code : String) (result : RunResult) : Except Fault Json → Except Fault Explanation
  | .ok reply => match readExplanation reply with
    | .valid e => .ok e
    | .invalid _ => offline code result
  | .error fault =>
    if fault.isA .service || fault.isA .security then offline code result else .error fault

/-- The language that a result names, if it names one. -/
def namedLanguage (result : RunResult) : String :=
  match result.language with
  | some language => if language.isEmpty then "Unknown" else language
  | none => "Unknown"

/-- The explanation of a run. A program in another language is not explained. -/
def explain {σ : Type} (model : Option (Model σ)) (code : String) (result : RunResult) (s : σ) :
    Except Fault Explanation × σ :=
  if result.classification = .foreignLanguage then
    (.error (Fault.foreignLanguage (namedLanguage result)), s)
  else match model with
    | none => (offline code result, s)
    | some model =>
      let (answer, s) := model { messages := explainMessages code result } s
      (explanationOf code result answer, s)

end Coach.Tutor
