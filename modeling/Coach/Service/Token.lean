import Coach.Service.Retry

/-!
# Cancellation and time limits

A token that a run looks at between two steps, and operations that are given up after some time.

## Main definitions

* `Token`: whether a run is to stop
* `withinLimit`: an operation with a time limit
-/

namespace Coach.Service

/-- Whether a run is to stop at its next step. -/
structure Token where
  cancelled : Bool := false
  deriving DecidableEq, Repr

namespace Token

/-- A run is to stop; it stays so. -/
def cancel (_ : Token) : Token := { cancelled := true }

/-- Fails when the run is to stop. -/
def check (t : Token) : Except Fault Unit := if t.cancelled then .error Fault.cancelled else .ok ()

@[simp] theorem cancelled_cancel (t : Token) : t.cancel.cancelled = true := rfl

end Token

/-- An operation that is given up after some time: what it comes to, which is nothing when it never
ends. An empty message stands for the usual one. -/
def withinLimit {α : Type} (limit : Number) (message : Option String) (kind : FaultKind)
    (outcome : Option (Except Fault α)) : Except Fault α :=
  match outcome with
  | some answer => answer
  | none =>
    .error { kind
             message := match message.filter (!·.isEmpty) with
               | some text => text
               | none => timeLimitMessage limit }

end Coach.Service
