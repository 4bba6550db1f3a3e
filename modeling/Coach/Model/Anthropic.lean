import Coach.Model.Groq

/-!
# Anthropic

The gateway of the Anthropic kind. It takes the system prompt apart from the conversation, and its
reply comes in blocks, of which those of text count.

## Main definitions

* `Anthropic.Request`, `Anthropic.request`: what is sent for a question
* `Anthropic.answer`: what the model answers, given what the gateway does
-/

namespace Coach.Model.Anthropic

open Coach.Config Coach.Security Coach.Service

/-- What is added to the system prompt when an object is wanted. -/
def objectSuffix : String := "\n\nRespond with a single JSON object and no other text."

/-- What is sent for a question. -/
structure Request where
  system : String
  messages : List Message

/-- What is sent for a question: the system messages joined, and the conversation without them. -/
def request (r : Redactor) (q : Question) : Except Fault Request := do
  let system ← (q.messages.filter (·.role = .system)).mapM fun m => r.redactOutbound m.content
  let messages ← Groq.redacted r (q.messages.filter (·.role ≠ .system))
  return { system := "\n\n".intercalate system ++ if q.wantsObject then objectSuffix else "", messages }

/-- A block of a reply. -/
structure Block where
  kind : String
  text : String

/-- What the gateway does. -/
inductive Response where
  | blocks (blocks : List Block)
  | tooMany (message : String) (header : Option String)
  | tooSlow (message : String)
  | failed (message : String)

/-- What a response of the gateway comes to. A text is cut at the limit for replies. -/
def answer (wantsObject : Bool) : Response → Except Fault Json
  | .blocks blocks =>
    let text := String.join ((blocks.filter (·.kind = "text")).map Block.text)
    if wantsObject then (readObject text).map .object
    else .ok (.string (String.ofList (text.toList.take replyLimit)))
  | .tooMany message header =>
    .error (Groq.rateLimited s!"Anthropic rate limit exceeded: {message}" header)
  | .tooSlow message =>
    .error { kind := .timeout, message := s!"Anthropic request timed out: {message}" }
  | .failed message => .error (Groq.gatewayFault s!"Anthropic API error: {message}")

/-- The model behind a gateway that takes requests. -/
def model {σ : Type} (r : Redactor) (send : Request → σ → Response × σ) : Model σ := fun q s =>
  match request r q with
  | .error fault => (.error fault, s)
  | .ok request =>
    let (response, s) := send request s
    (answer q.wantsObject response, s)

end Coach.Model.Anthropic
