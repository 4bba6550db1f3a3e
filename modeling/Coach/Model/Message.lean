import Coach.Json.Basic
import Coach.Service.Fault

/-!
# Conversations with a model

Messages that are sent to a model, and what a model answers.

## Main definitions

* `Role`, `Message`: a message with the role of its author
* `Question`: messages, with the wish for an object or for plain text
* `Model`: a collaborator that answers questions
-/

namespace Coach.Model

open Coach.Service

/-- The role of an author. -/
inductive Role where
  | system
  | user
  | assistant
  deriving DecidableEq, Repr

/-- The name of a role. -/
def Role.name : Role → String
  | .system => "system"
  | .user => "user"
  | .assistant => "assistant"

/-- A message. -/
structure Message where
  role : Role
  content : String
  deriving DecidableEq, Repr

/-- What a model is asked. -/
structure Question where
  messages : List Message
  wantsObject : Bool := true
  deriving DecidableEq, Repr

/-- A model. Its answer is an object, or a text when no object is wanted. -/
abbrev Model (σ : Type) := Collaborator σ Question Json

end Coach.Model
