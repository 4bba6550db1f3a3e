import Coach.Finding.Diagnostic
import Coach.Number.Reading
import Coach.Text.Pattern

/-!
# Results of a run

What a run answers, what a tier that could not run a program answers in its place, and how findings
and hints are joined to a result.

## Main definitions

* `Classification`, `RunResult`, `TierFailure`
* `errorLines`: findings read off the output of a compiler
* `RunResult.merge`: findings of a scan joined to a result
* `RunResult.attachHints`: hints of failed tiers below a result
-/

namespace Coach.Execution

open Coach.Finding Coach.Text

/-- The class of an outcome. -/
inductive Classification where
  | success
  | error
  | foreignLanguage
  | degraded
  deriving DecidableEq, Repr

namespace Classification

/-- The name of a class. -/
def name : Classification → String
  | .success => "success"
  | .error => "error"
  | .foreignLanguage => "foreign-language"
  | .degraded => "degraded"

/-- The class of a name. -/
def ofName? : String → Option Classification
  | "success" => some .success
  | "error" => some .error
  | "foreign-language" => some .foreignLanguage
  | "degraded" => some .degraded
  | _ => none

@[simp] theorem ofName?_name (c : Classification) : ofName? c.name = some c := by cases c <;> rfl

end Classification

/-- What a run answers. -/
structure RunResult where
  output : String
  exitCode : Int
  classification : Classification
  diagnostics : List Diagnostic := []
  language : Option String := none
  tier : String := ""
  deriving DecidableEq, Repr

/-- A tier could not run a program; the next one may. -/
structure TierFailure where
  tier : String
  reason : String
  hint : Option String := none
  details : List (String × String) := []
  deriving DecidableEq, Repr

/-- A compiler's report of an error: the line is group 1 and the message is group 2. -/
def errorLine : Pattern :=
  .all [.char ':', .group 1 .digits, .char ':', .space, .text "error:", .space, .group 2 .lineRest]

/-- The findings in the output of a compiler, one for each line that reports an error. -/
def errorLines (output : String) : Except IntFault (List Diagnostic) :=
  ((splitLines output.toList).filterMap fun raw =>
    (errorLine.search? raw).map fun m => (raw, m)).mapM fun (raw, m) => do
      let line ← readInt (m.group 1)
      let message := strip (m.group 2)
      return { line := line.toNat
               message := String.ofList (if message.isEmpty then strip raw else message)
               severity := .error }

namespace RunResult

/-- The same result with other findings. -/
def withDiagnostics (r : RunResult) (diagnostics : List Diagnostic) : RunResult :=
  { r with diagnostics }

/-- The result with the findings of a scan before its own. When there are none at all and the result
is an error, they are read off the output. -/
def merge (r : RunResult) (scanned : List Diagnostic) : Except IntFault RunResult :=
  let all := scanned ++ r.diagnostics
  if all.isEmpty && r.classification = .error then (errorLines r.output).map r.withDiagnostics
  else .ok (r.withDiagnostics all)

/-- The hints of failed tiers as lines below the output of a degraded result. -/
def attachHints (r : RunResult) (failures : List TierFailure) : RunResult :=
  let hints := failures.filterMap fun f => f.hint.filter fun h => !h.isEmpty
  if hints.isEmpty || r.classification ≠ .degraded then r
  else { r with output := "\n".intercalate (r.output :: hints) }

end RunResult

end Coach.Execution
