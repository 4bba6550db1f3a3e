import Coach.Execution.Tier
import Coach.Model.Message
import Coach.Schema.Basic
import Coach.Tutor.Prompt

/-!
# Simulation by a model

The second tier asks a model to behave like a compiler and like the program. What it answered to a
program and its input is kept, so that running the same again asks nothing.

## Main definitions

* `SimulatedRun`, `SimulatedRun.read`: the reply that is asked for
* `Cache`: results by request, the one used last in front
* `simulateOnce`: the tier without a cache
* `simulationTier`

## Design notes

Only results are kept, never failures. A cache that is full drops the result that was not used for the
longest time, and a cache without room for a single result refuses to take one.
-/

namespace Coach.Execution

open Coach.Finding Coach.Model Coach.Schema Coach.Service Coach.Text Coach.Tutor

/-- The name of the tier. -/
def simulationTierName : String := "ai-simulation"

/-! ### The reply -/

/-- A simulated run. -/
structure SimulatedRun where
  output : String
  exitCode : Int
  diagnostics : List Diagnostic
  isForeign : Bool
  language : Option String

/-- Reads a severity in any case, with white space around it. -/
def readSeverity : Reader Severity
  | .string s => oneOf Severity.ofName? (.string (String.ofList (lower (strip s.toList))))
  | j => oneOf Severity.ofName? j

/-- Reads a finding. -/
def readFinding : Reader Diagnostic := fields fun o =>
  (fun line message severity (category : String) =>
    ({ line := line.toNat, message, severity, category := .parse (some category) } : Diagnostic))
    <$> withDefault o "line" 0 (integerFrom 0 integer)
    <*> required o "message" (textAtLeast 1 (textAtMost 2000 text))
    <*> required o "severity" readSeverity
    <*> withDefault o "errorType" "OTHER_LOGICAL" text ["error_type"]

/-- Reads findings; `null` stands for none. -/
def readFindings : Reader (List Diagnostic)
  | .null => .valid []
  | j => listOf none readFinding j

/-- Reads a simulated run. -/
def SimulatedRun.read : Reader SimulatedRun := fields fun o =>
  SimulatedRun.mk
    <$> required o "output" (textAtMost 50000 text)
    <*> required o "exitCode" integer ["exit_code"]
    <*> withDefault o "logicalErrors" [] readFindings ["logical_errors"]
    <*> withDefault o "isForeignLanguage" false flag ["is_foreign_language"]
    <*> withDefault o "detectedLanguage" none (optional text) ["detected_language"]

/-- The language of a program that is not in the language of the tutor. -/
def SimulatedRun.languageName (r : SimulatedRun) : String :=
  let name := strip (r.language.getD "").toList
  if name.isEmpty then "Unknown" else String.ofList name

/-- The result of a simulated run. Findings in a program of another language do not count. -/
def SimulatedRun.result (r : SimulatedRun) : RunResult :=
  if r.isForeign then
    { output := r.output, exitCode := r.exitCode, classification := .foreignLanguage
      language := some r.languageName, tier := simulationTierName }
  else
    { output := r.output, exitCode := r.exitCode
      classification := if r.exitCode = 0 then .success else .error
      diagnostics := r.diagnostics, tier := simulationTierName }

/-- What is said about a reply that is an object of another form. -/
def wrongForm : String := "the reply is not of the form that was asked for"

/-- What a reply says about the program. -/
def verdictOfReply : Json → Verdict
  | .object members => match SimulatedRun.read (.object members) with
    | .valid run => .result run.result
    | .invalid _ => .failure (Tier.malformed simulationTierName wrongForm)
  | _ => .failure (Tier.malformed simulationTierName "not a JSON object")

/-- Asks the model. -/
def simulateOnce {σ : Type} (model : Model σ) : Collaborator σ RunRequest Verdict := fun request s =>
  match model { messages := simulateMessages request.code request.stdin } s with
  | (.ok reply, s) => (.ok (verdictOfReply reply), s)
  | (.error fault, s) =>
    if fault.isA .service then (.ok (.failure (Tier.unavailable simulationTierName fault)), s)
    else (.error fault, s)

/-! ### The cache -/

/-- Results by request, the one used last in front. -/
abbrev Cache := List (RunRequest × RunResult)

namespace Cache

/-- The result of a request. -/
def find? (c : Cache) (request : RunRequest) : Option RunResult :=
  match c with
  | [] => none
  | (r, result) :: rest => if r = request then some result else find? rest request

/-- The results of the other requests. -/
def others (c : Cache) (request : RunRequest) : Cache := c.filter (·.1 ≠ request)

/-- Puts a result in front, as one that was just used. -/
def use (c : Cache) (request : RunRequest) (result : RunResult) : Cache :=
  (request, result) :: c.others request

/-- Adds a result, and drops the last one when there are more than `size`. -/
def insert (c : Cache) (size : Nat) (request : RunRequest) (result : RunResult) : Cache :=
  (c.use request result).take size

end Cache

/-- A model with what it answered. -/
structure Remembering (σ : Type) where
  model : σ
  cache : Cache := []

/-- Asks the model unless the result is known, and keeps the results of up to `size` requests. -/
def simulateCached {σ : Type} (model : Model σ) (size : Nat) :
    Collaborator (Remembering σ) RunRequest Verdict := fun request s =>
  match s.cache.find? request with
  | some result => (.ok (.result result), { s with cache := s.cache.use request result })
  | none =>
    match simulateOnce model request s.model with
    | (.ok (.result result), m) =>
      if size = 0 then (.error { kind := .value, message := "value too large" }, { s with model := m })
      else (.ok (.result result), { model := m, cache := s.cache.insert size request result })
    | (answer, m) => (answer, { s with model := m })

/-- The tier that asks a model. Results are kept when they may be kept for any time at all. -/
def simulationTier {σ : Type} (model : Model σ) (cacheSeconds cacheSize : Int) :
    Tier (Remembering σ) :=
  { name := simulationTierName
    attempt :=
      if 0 < cacheSeconds then simulateCached model cacheSize.toNat
      else (simulateOnce model).within Remembering.model fun m s => { s with model := m } }

end Coach.Execution
