import Coach.Execution.Result
import Coach.Service.Fault

/-!
# Tiers

A tier is one way of running a program. It reaches a result, or it says why it could not, and then the
next tier is tried.

## Main definitions

* `RunRequest`: a program with its input
* `Verdict`: a result or a failure
* `Tier`: a name and a way of reaching a verdict
-/

namespace Coach.Execution

open Coach.Service

/-- A program with its input values. -/
structure RunRequest where
  code : String
  stdin : List String := []
  deriving DecidableEq, Repr

/-- The input values as a terminal feeds them, one a line. -/
def RunRequest.stdinText (r : RunRequest) : String := "\n".intercalate r.stdin

/-- What a tier comes to. -/
inductive Verdict where
  | result (r : RunResult)
  | failure (f : TierFailure)
  deriving DecidableEq, Repr

/-- A tier. It may take time over some requests, so that other things happen before it answers, and it
may answer even though it was told to stop. -/
structure Tier (σ : Type) where
  name : String
  attempt : Collaborator σ RunRequest Verdict
  isSlow : RunRequest → Bool := fun _ => false
  isStubborn : Bool := false

/-- A failure without a result. -/
def Tier.unavailable (tier : String) (fault : Fault) : TierFailure :=
  { tier, reason := "unavailable", details := [("error", fault.message)] }

/-- A failure that comes of an answer without the form that was asked for. -/
def Tier.malformed (tier message : String) : TierFailure :=
  { tier, reason := "malformed", details := [("error", message)] }

/-- A failure that comes of running too long. -/
def Tier.timedOut (tier hint : String) : TierFailure := { tier, reason := "timeout", hint := some hint }

/-- A tier whose state is part of a larger one. -/
def Tier.within {σ τ : Type} (view : τ → σ) (update : σ → τ → τ) (tier : Tier σ) : Tier τ :=
  { name := tier.name, attempt := tier.attempt.within view update
    isSlow := tier.isSlow, isStubborn := tier.isStubborn }

end Coach.Execution
