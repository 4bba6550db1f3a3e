import Coach.Metrics.Label
import Coach.Service.Retry

/-!
# Counters

Totals that only grow, one for each set of labels, and their text form: comment lines with the help
and the kind, and a line for each series.

## Main definitions

* `Counter`, `Counter.inc`
* `Counter.get`, `Counter.byLabel`, `Counter.samples`
* `Counter.lines`: the text form

## Design notes

A total is a double. A series that was never counted reads as the integer zero.
-/

namespace Coach.Metrics

open Coach.Service

/-- What a metric is called, and what it says about itself. -/
structure Heading where
  name : String
  help : String := ""
  deriving DecidableEq, Repr

/-- The comment lines of a metric. -/
def Heading.lines (h : Heading) (kind : String) : List String :=
  (if h.help.isEmpty then [] else [s!"# HELP {h.name} {h.help}"]) ++ [s!"# TYPE {h.name} {kind}"]

/-- Why a number is not taken. -/
inductive MeasureFault where
  | negative
  | tooLarge
  | noBucket
  deriving DecidableEq, Repr

/-- The wording of a fault. -/
def MeasureFault.message : MeasureFault → String
  | .negative => "Counter can only increase"
  | .tooLarge => "int too large to convert to float"
  | .noBucket => "no bucket holds the value"

/-- A counter. -/
structure Counter where
  heading : Heading
  values : List (Labels × Float) := []

namespace Counter

/-- Adds an amount that is not negative. An amount past the range of doubles still opens the series. -/
def inc (c : Counter) (amount : Number) (labels : Labels) : Counter × Except MeasureFault Unit :=
  if amount.less (.int 0) then (c, .error .negative)
  else match amount.toFloat? with
    | some x => ({ c with values := adjust c.values labels 0 (· + x) }, .ok ())
    | none => ({ c with values := adjust c.values labels 0 id }, .error .tooLarge)

/-- The total of a series. -/
def get (c : Counter) (labels : Labels) : Number :=
  match valueAt? c.values labels with
  | some x => .float x
  | none => .int 0

/-- The totals by the values of one label; series without it count under the empty value. -/
def byLabel (c : Counter) (label : String) : List (String × Float) :=
  c.values.foldl (fun totals (labels, x) =>
    adjust totals ((labels.value? label).getD "") 0 (· + x)) []

/-- Every series with its total. -/
def samples (c : Counter) : List (Labels × Float) := c.values

/-- The text form. -/
def lines (c : Counter) : List String :=
  c.heading.lines "counter" ++
    c.values.map fun (labels, x) => s!"{c.heading.name}{labels.text} {briefFloat x}"

end Counter

end Coach.Metrics
