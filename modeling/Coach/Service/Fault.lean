/-!
# Faults

What can go wrong between the tutor and its collaborators. A fault has a kind and a message; the kinds
form a hierarchy, and whoever handles faults names the most general kind that he can deal with.

## Main definitions

* `FaultKind`, `FaultKind.isA`: the kinds and their hierarchy
* `Fault`

## Design notes

The tiers, the explainer and the translator differ in what they recover from, and each says so by one
kind: `service` for a collaborator that was unavailable or answered badly, `security` for text that
must not be sent.
-/

namespace Coach.Service

/-- The kind of a fault. -/
inductive FaultKind where
  /-- Any fault of the tutor's own. -/
  | tutor
  /-- A collaborator was unavailable or answered badly. -/
  | service
  /-- Remote execution failed. -/
  | sandbox
  /-- Remote execution took too long. -/
  | sandboxTimeout
  /-- A model gateway answered with an error. -/
  | gateway
  /-- A model's reply was not usable. -/
  | reply
  /-- A model gateway had too many requests. -/
  | rateLimit
  /-- An operation took too long. -/
  | timeout
  /-- State was not persisted. -/
  | storage
  /-- The program is in another language. -/
  | foreignLanguage
  /-- A newer run took the place of this one. -/
  | superseded
  /-- Any fault of keeping secrets. -/
  | security
  /-- Secrets could not be taken out of a text. -/
  | redaction
  /-- Any fault of a connection. -/
  | transport
  /-- A connection broke or was refused. -/
  | network
  | connect
  | read
  /-- A connection took too long. -/
  | slowConnection
  | connectTimeout
  | readTimeout
  /-- A server did not keep to the protocol. -/
  | protocol
  /-- A task was cancelled. -/
  | cancelled
  /-- A value was out of the range of an operation. -/
  | value
  /-- A value was nested too deep. -/
  | nesting
  /-- An argument was given twice. -/
  | argument
  | runtime
  deriving DecidableEq, Repr

namespace FaultKind

/-- The kinds above a kind, the nearest first. -/
def above : FaultKind → List FaultKind
  | .service => [.tutor]
  | .sandbox => [.service, .tutor]
  | .sandboxTimeout => [.sandbox, .service, .tutor]
  | .gateway => [.service, .tutor]
  | .reply => [.service, .tutor]
  | .rateLimit => [.gateway, .service, .tutor]
  | .timeout => [.service, .tutor]
  | .storage => [.tutor]
  | .foreignLanguage => [.tutor]
  | .superseded => [.tutor]
  | .redaction => [.security]
  | .network => [.transport]
  | .connect => [.network, .transport]
  | .read => [.network, .transport]
  | .slowConnection => [.transport]
  | .connectTimeout => [.slowConnection, .transport]
  | .readTimeout => [.slowConnection, .transport]
  | .protocol => [.transport]
  | .nesting => [.runtime]
  | _ => []

/-- Whether a kind is the given one or below it. -/
def isA (k general : FaultKind) : Bool := k = general || k.above.contains general

@[simp] theorem isA_self (k : FaultKind) : k.isA k = true := by simp [isA]

end FaultKind

/-- A fault. A gateway with too many requests may say after how many seconds to come back. -/
structure Fault where
  kind : FaultKind
  message : String
  retryAfter : Option Int := none
  deriving DecidableEq, Repr

/-- Whether a fault is of a kind. -/
def Fault.isA (f : Fault) (general : FaultKind) : Bool := f.kind.isA general

/-- The program is in another language. -/
def Fault.foreignLanguage (language : String) : Fault :=
  { kind := .foreignLanguage, message := s!"Source was detected as {language}, not Java" }

/-- A newer run took the place of this one. -/
def Fault.superseded : Fault :=
  { kind := .superseded, message := "Run was superseded by a newer run" }

/-- A task was cancelled. -/
def Fault.cancelled : Fault := { kind := .cancelled, message := "Run was superseded" }

/-- A collaborator: what it answers to a question in a state, with the state after that. The state is
whatever its answers hang on, such as how often it was asked. -/
def Collaborator (σ Q A : Type) := Q → σ → Except Fault A × σ

/-- A collaborator that answers from a list of replies, one a question; the last one repeats. The
state counts the questions. -/
def Collaborator.ofReplies {Q A : Type} (silent : Fault) (replies : List (Except Fault A)) :
    Collaborator Nat Q A :=
  fun _ asked => ((replies[min asked (replies.length - 1)]?).getD (.error silent), asked + 1)

/-- A collaborator whose state is part of a larger one. -/
def Collaborator.within {σ τ Q A : Type} (get : τ → σ) (set : σ → τ → τ)
    (c : Collaborator σ Q A) : Collaborator τ Q A :=
  fun q t => let (answer, s) := c q (get t); (answer, set s t)

end Coach.Service
