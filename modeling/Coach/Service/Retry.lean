import Coach.Number.Layout
import Coach.Service.Fault

/-!
# Second attempts and time limits

Faults of a connection are worth another attempt, since the request may never have arrived. The number
of attempts counts the first one.

## Main definitions

* `retry`: repeats an action while it fails in a way that is worth it
* `timeLimitMessage`: the wording when an operation took too long
-/

namespace Coach.Service

/-- The kinds of faults that are worth another attempt. -/
def transientKinds : List FaultKind := [.slowConnection, .network]

/-- Whether a fault is of one of the given kinds. -/
def Fault.isAny (f : Fault) (kinds : List FaultKind) : Bool := kinds.any f.isA

/-- Repeats an action up to `more` times after the first while its fault is of one of the given kinds.
What the last attempt gives is the answer. -/
def retry {σ α : Type} (kinds : List FaultKind) (action : σ → Except Fault α × σ) :
    Nat → σ → Except Fault α × σ
  | 0, s => action s
  | more + 1, s =>
    match action s with
    | (.ok a, s) => (.ok a, s)
    | (.error f, s) => if f.isAny kinds then retry kinds action more s else (.error f, s)

/-- A double with at most six digits. -/
def briefFloat (x : Float) : String :=
  String.ofList (({} : Layout).double .general false 6 x)

/-- A number with at most six digits; an integer counts as a double. -/
def briefNumber (n : Number) : String := briefFloat (n.toFloat?.getD infinity)

/-- The wording when an operation took longer than its limit. -/
def timeLimitMessage (limit : Number) : String := s!"Operation timed out after {briefNumber limit}s"

end Coach.Service
