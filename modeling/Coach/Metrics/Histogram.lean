import Coach.Json.Basic
import Coach.Metrics.Counter

/-!
# Histograms

Distributions of measured values. Only aggregates are kept: how many values fell into each bucket,
and their count, sum, least and greatest.

## Main definitions

* `Series`: the aggregates of one set of labels
* `Histogram`, `Histogram.observe`
* `Histogram.stats`, `Histogram.buckets`, `Histogram.lines`

## Design notes

A value goes into the first bucket whose bound it does not exceed. The last bound is infinite, so only
a value that cannot be compared finds no bucket; it is counted and summed before that shows.
-/

namespace Coach.Metrics

open Coach.Service

/-- The aggregates of a series. -/
structure Series where
  bucketCounts : List Nat
  count : Nat := 0
  total : Float := 0
  low : Number := .float infinity
  high : Number := .float (-infinity)

/-- Upper bounds in seconds. -/
def defaultBounds : List Number :=
  [.float 0.01, .float 0.05, .float 0.1, .float 0.25, .float 0.5, .float 1, .float 2.5, .float 5,
    .float 10, .float 30, .float infinity]

/-- Sorted bounds with an infinite one at the end. -/
def soundBounds (bounds : List Number) : List Number :=
  let sorted := bounds.mergeSort fun a b => !b.less a
  if sorted.getLast?.any (·.same (.float infinity)) then sorted else sorted ++ [.float infinity]

/-- A histogram. -/
structure Histogram where
  heading : Heading
  bounds : List Number
  series : List (Labels × Series) := []

namespace Histogram

/-- A histogram with bounds of its own, or with the usual ones when there are none. -/
def make (heading : Heading) (bounds : List Number) : Histogram :=
  { heading, bounds := soundBounds (if bounds.isEmpty then defaultBounds else bounds) }

/-- The first bucket whose bound a value does not exceed. -/
def bucketIndex? (bounds : List Number) (value : Number) : Option Nat :=
  bounds.findIdx? fun bound => value.atMost bound

/-- Adds one to an item. -/
def increment (counts : List Nat) (index : Nat) : List Nat := counts.modify index (· + 1)

/-- A series without values. -/
def fresh (h : Histogram) : Series := { bucketCounts := h.bounds.map fun _ => 0 }

/-- A value in a series. -/
def record (bounds : List Number) (value : Number) (s : Series) : Series × Except MeasureFault Unit :=
  let s := { s with count := s.count + 1 }
  match value.toFloat? with
  | none => (s, .error .tooLarge)
  | some x =>
    let s := { s with
      total := s.total + x
      low := if value.less s.low then value else s.low
      high := if s.high.less value then value else s.high }
    match bucketIndex? bounds value with
    | some i => ({ s with bucketCounts := increment s.bucketCounts i }, .ok ())
    | none => (s, .error .noBucket)

/-- Takes a value in. -/
def observe (h : Histogram) (value : Number) (labels : Labels) :
    Histogram × Except MeasureFault Unit :=
  let (s, outcome) := record h.bounds value ((valueAt? h.series labels).getD h.fresh)
  ({ h with series := adjust h.series labels h.fresh fun _ => s }, outcome)

/-- Count, sum, least, greatest and mean. -/
structure Stats where
  count : Nat
  sum : Number
  low : Number
  high : Number
  mean : Number

/-- The statistics under their names. -/
def Stats.json (s : Stats) : Json :=
  .object [("count", .int s.count), ("sum", .number s.sum), ("min", .number s.low),
    ("max", .number s.high), ("mean", .number s.mean)]

/-- The statistics of a series; zeros when it has no values. -/
def stats (h : Histogram) (labels : Labels) : Stats :=
  match valueAt? h.series labels with
  | some s =>
    { count := s.count, sum := .float s.total, low := s.low, high := s.high
      mean := .float (s.total / Float.ofNat s.count) }
  | none => { count := 0, sum := .int 0, low := .int 0, high := .int 0, mean := .int 0 }

/-- Puts a count under a bound: at the place of an equal one, or else at the end. -/
def putBound (pairs : List (Number × Nat)) (bound : Number) (count : Nat) : List (Number × Nat) :=
  match pairs with
  | [] => [(bound, count)]
  | (b, n) :: rest => if b.same bound then (b, count) :: rest else (b, n) :: putBound rest bound count

/-- How many values fell into each bucket, by its bound. Of equal bounds the last counts. -/
def buckets (h : Histogram) (labels : Labels) : List (Number × Nat) :=
  let counts := ((valueAt? h.series labels).getD h.fresh).bucketCounts
  (h.bounds.zip counts).foldl (fun pairs (bound, count) => putBound pairs bound count) []

/-- A bound as the value of a label. -/
def boundText (bound : Number) : String :=
  if bound.same (.float infinity) then "+Inf" else briefNumber bound

/-- The lines of the buckets; each counts those below it, of which there are `below` so far. -/
def bucketLines (name : String) (labels : Labels) : Nat → List (Number × Nat) → List String
  | _, [] => []
  | below, (bound, count) :: rest =>
    let total := below + count
    let series := Labels.text (labels ++ [("le", boundText bound)])
    s!"{name}_bucket{series} {total}" ::
      bucketLines name labels total rest

/-- The lines of a series. -/
def seriesLines (h : Histogram) (labels : Labels) (s : Series) : List String :=
  let name := h.heading.name
  bucketLines name labels 0 (h.bounds.zip s.bucketCounts) ++
    [s!"{name}_sum{labels.text} {briefFloat s.total}", s!"{name}_count{labels.text} {s.count}"]

/-- The text form. -/
def lines (h : Histogram) : List String :=
  h.heading.lines "histogram" ++ h.series.flatMap fun (labels, s) => h.seriesLines labels s

end Histogram

end Coach.Metrics
