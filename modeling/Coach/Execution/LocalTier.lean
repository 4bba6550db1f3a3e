import Coach.Execution.Tier
import Coach.Program.Run

/-!
# Running locally

The last tier simulates the program itself. It always reaches a result, and never a definitive one.
-/

namespace Coach.Execution

open Coach.Program

/-- The name of the tier. -/
def localTierName : String := "local-simulation"

/-- The result of the local simulation. -/
def localResult (request : RunRequest) : RunResult :=
  let s := simulate request.code request.stdin
  { output := s.output, exitCode := s.exitCode, classification := .degraded, tier := localTierName }

/-- The tier that simulates programs locally. -/
def localTier {σ : Type} : Tier σ :=
  { name := localTierName, attempt := fun request s => (.ok (.result (localResult request)), s) }

end Coach.Execution
