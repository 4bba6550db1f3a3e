import Coach.Config.Settings
import Coach.Execution.Tier
import Coach.Sandbox.Basic
import Coach.Service.Retry

/-!
# Running in a sandbox

The first tier hands the program to a sandbox. What the sandbox prints is passed on as it is; the tier
only tells a failure to compile from a failure to run.

## Main definitions

* `verdictOf`: what the outcome of a job says about the program
* `sandboxTier`
-/

namespace Coach.Execution

open Coach.Config Coach.Sandbox Coach.Service

/-- The name of the tier. -/
def sandboxTierName : String := "remote-sandbox"

/-- The job for a request. -/
def jobOf (settings : SandboxSettings) (request : RunRequest) : Job :=
  { language := settings.language, version := settings.version, fileName := settings.fileName
    content := request.code, stdin := request.stdinText }

/-- The exit code of a stage that failed: it ended, and not with zero. -/
def failedCode? (stage : Stage) : Option Int :=
  match stage.code with
  | some code => if code.toInt = 0 then none else some code.toInt
  | none => none

/-- A result of this tier. -/
def sandboxResult (output : String) (code : Int) : RunResult :=
  { output, exitCode := code, classification := if code = 0 then .success else .error
    tier := sandboxTierName }

/-- What the run of a program says. A run without an exit code was stopped at the time limit. -/
def verdictOfRun (limit : Number) : Option Stage → Verdict
  | none => .failure (Tier.malformed sandboxTierName "no run stage")
  | some run => match run.code with
    | none => .failure (Tier.timedOut sandboxTierName (timeoutMessage (briefNumber limit)))
    | some code => .result (sandboxResult run.output code.toInt)

/-- What the outcome of a job says. -/
def verdictOf (limit : Number) (outcome : Outcome) : Verdict :=
  match outcome.compile with
  | none => verdictOfRun limit outcome.run
  | some compile => match failedCode? compile with
    | some code =>
      .result (sandboxResult (if compile.output.isEmpty then compile.stderr else compile.output) code)
    | none => verdictOfRun limit outcome.run

/-- The tier that runs programs in a sandbox. -/
def sandboxTier {σ : Type} (settings : SandboxSettings) (sandbox : Sandbox σ) : Tier σ :=
  { name := sandboxTierName
    attempt := fun request s =>
      match sandbox.execute (jobOf settings request) s with
      | (.ok outcome, s) => (.ok (verdictOf sandbox.timeout outcome), s)
      | (.error fault, s) =>
        if fault.isA .sandboxTimeout then
          (.ok (.failure (Tier.timedOut sandboxTierName fault.message)), s)
        else if fault.isA .service then
          (.ok (.failure (Tier.unavailable sandboxTierName fault)), s)
        else (.error fault, s) }

end Coach.Execution
