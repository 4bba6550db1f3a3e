import Coach.Execution.Tier
import Coach.Finding.Scan
import Coach.Json.Basic
import Coach.Service.Token

/-!
# A chain of tiers

A run tries its tiers one after another until one reaches a result, joins the findings of a scan to
it, and leaves behind what is counted and what is remembered.

## Main definitions

* `Tallies`, `Work`: what runs count and leave behind
* `Standing`: where a run stands: it waits for a tier, or it is over
* `takeAnswer`: how a run goes on when the tier that it waits for answers
* `pursue`: asks tiers until the run is over
* `execute`: a run on its own

## Design notes

A run is cut where it waits, so that the same steps serve a run on its own and runs that overlap. The
token of a run is looked at before each tier and once more when a tier has reached a result.

A failure is reported under a few fixed names, next to its details. A detail of such a name ends the
run with a fault.
-/

namespace Coach.Execution

open Coach.Finding Coach.Service Coach.Source

/-! ### What runs leave behind -/

/-- Adds one to the count of a name. -/
def countName (counts : List (String × Nat)) (name : String) : List (String × Nat) :=
  putPair counts name ((lookupPair counts name).getD 0 + 1)

/-- What is counted. -/
structure Tallies where
  runs : Nat := 0
  superseded : Nat := 0
  timed : Nat := 0
  attempts : List (String × Nat) := []
  failures : List (String × Nat) := []
  diagnostics : Nat := 0
  deriving DecidableEq, Repr

/-- The tallies, and the results that are to be remembered, the oldest first. -/
structure Work where
  tallies : Tallies := {}
  results : List (RunRequest × RunResult) := []
  deriving DecidableEq, Repr

namespace Work

/-- A run began. -/
def began (w : Work) : Work := { w with tallies := { w.tallies with runs := w.tallies.runs + 1 } }

/-- A run that began is over, however it ended. -/
def ended (w : Work) : Work := { w with tallies := { w.tallies with timed := w.tallies.timed + 1 } }

/-- A newer run took the place of one. -/
def superseded (w : Work) : Work :=
  { w with tallies := { w.tallies with superseded := w.tallies.superseded + 1 } }

/-- A tier is tried. -/
def attempted (w : Work) (tier : String) : Work :=
  { w with tallies := { w.tallies with attempts := countName w.tallies.attempts tier } }

/-- A tier failed. -/
def failed (w : Work) (tier : String) : Work :=
  { w with tallies := { w.tallies with failures := countName w.tallies.failures tier } }

/-- A scan found something. -/
def found (w : Work) (count : Nat) : Work :=
  { w with tallies := { w.tallies with diagnostics := w.tallies.diagnostics + count } }

/-- A result is to be remembered. -/
def remember (w : Work) (request : RunRequest) (result : RunResult) : Work :=
  { w with results := w.results ++ [(request, result)] }

end Work

/-! ### One run -/

/-- Where a run stands: it waits for a tier to answer, with the tiers after it and the failures so far,
or it is over. -/
inductive Standing (σ : Type) where
  | waiting (tier : Tier σ) (rest : List (Tier σ)) (failures : List TierFailure)
  | over (answer : Except Fault RunResult)

namespace Standing

variable {σ : Type}

/-- How many tiers may still be asked. -/
def left : Standing σ → Nat
  | .waiting _ rest _ => rest.length + 1
  | .over _ => 0

/-- Whether a run is over. -/
def isOver : Standing σ → Bool
  | .waiting .. => false
  | .over _ => true

end Standing

/-- The names under which a failure is reported. -/
def reportNames : List String := ["tier", "reason", "hint", "event", "self", "method_name"]

/-- Whether a detail has one of the names under which a failure is reported. -/
def TierFailure.clashes (f : TierFailure) : Bool := f.details.any fun d => reportNames.contains d.1

/-- The fault of a failure that cannot be reported. -/
def clash : Fault := { kind := .argument, message := "a detail is named like a part of the report" }

/-- What is answered when no tier reached a result. -/
def noTierMessage : String := "Execution failed: no execution strategy could run this program."

/-- The result when no tier reached one: the hints of the failures below a general message. -/
def noTierResult (failures : List TierFailure) : RunResult :=
  { output := "\n".intercalate (noTierMessage :: failures.filterMap fun f => f.hint.filter (!·.isEmpty))
    exitCode := 1, classification := .degraded }

/-- A tier that crashed failed. Being told to stop is no crash. -/
def judge (tier : String) : Except Fault Verdict → Except Fault Verdict
  | .ok verdict => .ok verdict
  | .error fault =>
    if fault.kind = .cancelled then .error fault
    else .ok (.failure { tier, reason := "crashed", details := [("error", fault.message)] })

section Run

variable {σ : Type} (token : Token) (request : RunRequest)

/-- The end of a run with a result. A program in another language is not scanned and not remembered. -/
def conclude (result : RunResult) (w : Work) : Standing σ × Work :=
  match token.check with
  | .error fault => (.over (.error fault), w.ended)
  | .ok () =>
    if result.classification = .foreignLanguage then (.over (.ok result), w.ended)
    else
      let found := scan catalog (Document.ofText request.code)
      let w := (w.found found.length).ended
      match result.merge found with
      | .error fault => (.over (.error { kind := .value, message := fault.message }), w)
      | .ok merged => (.over (.ok merged), w.remember request merged)

/-- Turns to the next tier, if there is one. -/
def nextTier (tiers : List (Tier σ)) (failures : List TierFailure) (w : Work) : Standing σ × Work :=
  match tiers with
  | [] => conclude token request (noTierResult failures) w
  | tier :: rest => match token.check with
    | .error fault => (.over (.error fault), w.ended)
    | .ok () => (.waiting tier rest failures, w.attempted tier.name)

/-- Goes on when the tier that is waited for answers. -/
def takeAnswer (tier : Tier σ) (rest : List (Tier σ)) (failures : List TierFailure)
    (outcome : Except Fault Verdict) (w : Work) : Standing σ × Work :=
  match judge tier.name outcome with
  | .error fault => (.over (.error fault), w.ended)
  | .ok (.result result) => conclude token request (result.attachHints failures) w
  | .ok (.failure failure) =>
    let w := w.failed tier.name
    if failure.clashes then (.over (.error clash), w.ended)
    else nextTier token request rest (failures ++ [failure]) w

theorem left_conclude (result : RunResult) (w : Work) :
    (conclude (σ := σ) token request result w).1.left = 0 := by
  unfold conclude
  split <;> try rfl
  split <;> try rfl
  simp only
  split <;> rfl

theorem left_nextTier_le (tiers : List (Tier σ)) (failures : List TierFailure) (w : Work) :
    (nextTier token request tiers failures w).1.left ≤ tiers.length := by
  cases tiers with
  | nil => simp [nextTier, left_conclude]
  | cons tier rest =>
    simp only [nextTier]
    split <;> simp [Standing.left]

theorem left_takeAnswer_le (tier : Tier σ) (rest : List (Tier σ)) (failures : List TierFailure)
    (outcome : Except Fault Verdict) (w : Work) :
    (takeAnswer token request tier rest failures outcome w).1.left ≤ rest.length := by
  unfold takeAnswer
  split
  · simp [Standing.left]
  · simp [left_conclude]
  · simp only
    split
    · simp [Standing.left]
    · exact left_nextTier_le ..

/-- Asks tiers until the run is over. -/
def pursue (standing : Standing σ) (w : Work) (s : σ) : Except Fault RunResult × Work × σ :=
  match standing with
  | .over answer => (answer, w, s)
  | .waiting tier rest failures =>
    let asked := tier.attempt request s
    let next := takeAnswer token request tier rest failures asked.1 w
    pursue next.1 next.2 asked.2
termination_by standing.left
decreasing_by
  exact Nat.lt_succ_of_le
    (left_takeAnswer_le token request tier rest failures (tier.attempt request s).1 w)

/-- The first step of a run. -/
def beginRun (tiers : List (Tier σ)) (w : Work) : Standing σ × Work :=
  nextTier token request tiers [] w.began

end Run

/-- A run on its own: tiers are asked until it is over. -/
def execute {σ : Type} (tiers : List (Tier σ)) (request : RunRequest) (w : Work) (s : σ) :
    Except Fault RunResult × Work × σ :=
  let begun := beginRun {} request tiers w
  pursue {} request begun.1 begun.2 s

end Coach.Execution
