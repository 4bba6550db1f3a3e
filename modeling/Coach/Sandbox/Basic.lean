import Coach.Number.Binary64
import Coach.Service.Fault

/-!
# Remote execution

What a service that compiles and runs programs is asked, and what it answers.

## Main definitions

* `Job`: a program to compile and run
* `Stage`, `Outcome`: the result of a stage, and of a job
* `Sandbox`: a service that does jobs
-/

namespace Coach.Sandbox

open Coach.Service

/-- A program to compile and run. -/
structure Job where
  language : String
  version : String
  fileName : String
  content : String
  stdin : String := ""
  deriving DecidableEq, Repr

/-- How a stage ended: with a number, or with a truth value that stands for one or zero. -/
inductive ExitCode where
  | number (n : Int)
  | flag (b : Bool)
  deriving DecidableEq, Repr

/-- The number that an exit code stands for. -/
def ExitCode.toInt : ExitCode → Int
  | .number n => n
  | .flag b => if b then 1 else 0

/-- The result of compiling or of running. There is no exit code when the stage was stopped. -/
structure Stage where
  output : String := ""
  code : Option ExitCode := none
  stderr : String := ""
  deriving DecidableEq, Repr

/-- The result of a job. Languages that are not compiled have no stage for it. -/
structure Outcome where
  run : Option Stage
  compile : Option Stage := none
  deriving DecidableEq, Repr

/-- A service that does jobs, with its time limit in seconds. -/
structure Sandbox (σ : Type) where
  execute : Collaborator σ Job Outcome
  timeout : Number

/-- The wording when a job took longer than the limit. -/
def timeoutMessage (limit : String) : String :=
  s!"Execution timed out (limit: {limit} seconds). Infinite loop detected?"

end Coach.Sandbox
