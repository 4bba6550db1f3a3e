import Coach.Metrics.Histogram

/-!
# The metrics of the tutor

Every metric of the tutor under one roof, with its text form.

## Main definitions

* `Registry`, `Registry.empty`
* `Registry.record`: a value for the metric of a name
* `Registry.json`, `Registry.text`: all metrics as an object, and their text form
-/

namespace Coach.Metrics

/-- All metrics. -/
structure Registry where
  runs : Counter
  superseded : Counter
  attempts : Counter
  failures : Counter
  duration : Histogram
  diagnostics : Counter
  patchesSkipped : Counter
  mistakes : Counter

namespace Registry

/-- A counter that has not counted yet. -/
def counter (name help : String) : Counter :=
  { heading := { name := s!"ai_code_tutor_{name}_total", help } }

/-- Metrics without values. -/
def empty : Registry :=
  { runs := counter "runs" "Total run requests"
    superseded := counter "runs_superseded" "Runs abandoned because a newer run started"
    attempts := counter "tier_attempts" "Execution tier attempts"
    failures := counter "tier_failures" "Recoverable execution tier failures"
    duration := .make { name := "ai_code_tutor_run_duration_seconds"
                        help := "End-to-end run duration in seconds" } []
    diagnostics := counter "diagnostics" "Diagnostics emitted by the static scanner"
    patchesSkipped := counter "patches_skipped" "Malformed or overlapping patches skipped"
    mistakes := counter "mistakes_observed" "Mistake signatures observed in compiler output" }

/-- The name of a metric. -/
inductive Metric where
  | runs
  | superseded
  | attempts
  | failures
  | duration
  | diagnostics
  | patchesSkipped
  | mistakes
  deriving DecidableEq, Repr

/-- The metric of a name. -/
def Metric.ofName? : String → Option Metric
  | "runs" => some .runs
  | "runs_superseded" => some .superseded
  | "tier_attempts" => some .attempts
  | "tier_failures" => some .failures
  | "run_duration" => some .duration
  | "diagnostics_emitted" => some .diagnostics
  | "patches_skipped" => some .patchesSkipped
  | "mistakes_observed" => some .mistakes
  | _ => none

/-- Takes a value in for a metric. -/
def record (r : Registry) (metric : Metric) (value : Number) (labels : Labels) :
    Registry × Except MeasureFault Unit :=
  match metric with
  | .runs => let (c, o) := r.runs.inc value labels; ({ r with runs := c }, o)
  | .superseded => let (c, o) := r.superseded.inc value labels; ({ r with superseded := c }, o)
  | .attempts => let (c, o) := r.attempts.inc value labels; ({ r with attempts := c }, o)
  | .failures => let (c, o) := r.failures.inc value labels; ({ r with failures := c }, o)
  | .duration => let (h, o) := r.duration.observe value labels; ({ r with duration := h }, o)
  | .diagnostics => let (c, o) := r.diagnostics.inc value labels; ({ r with diagnostics := c }, o)
  | .patchesSkipped =>
    let (c, o) := r.patchesSkipped.inc value labels
    ({ r with patchesSkipped := c }, o)
  | .mistakes => let (c, o) := r.mistakes.inc value labels; ({ r with mistakes := c }, o)

/-- The totals of a counter by tier. -/
def byTier (c : Counter) : Json := .object ((c.byLabel "tier").map fun (tier, x) => (tier, .float x))

/-- All metrics as an object. -/
def json (r : Registry) : Json :=
  .object [
    ("runs", .object [("total", .number (r.runs.get [])), ("superseded", .number (r.superseded.get [])),
      ("duration_stats", (r.duration.stats []).json)]),
    ("tiers", .object [("attempts", byTier r.attempts), ("failures", byTier r.failures)]),
    ("diagnostics", .number (r.diagnostics.get [])),
    ("patches_skipped", .number (r.patchesSkipped.get [])),
    ("mistakes_observed", .number (r.mistakes.get []))]

/-- The text form of all metrics. -/
def text (r : Registry) : String :=
  "\n".intercalate (r.runs.lines ++ r.superseded.lines ++ r.attempts.lines ++ r.failures.lines ++
    r.duration.lines ++ r.diagnostics.lines ++ r.patchesSkipped.lines ++ r.mistakes.lines)

end Registry

end Coach.Metrics
