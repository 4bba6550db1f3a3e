import Coach.Config.Settings
import Coach.Model.Message
import Coach.Model.Reply
import Coach.Security.Secret
import Coach.Service.Http
import Coach.Service.Retry

/-!
# Groq

The gateway of the Groq kind: a conversation goes out as one document, and the reply of the model is
the content of the first choice that comes back. Secrets are taken out of every message before it is
sent.

## Main definitions

* `Groq.document`: the document that is sent
* `Groq.content`: the text of the model in a reply
* `Groq.model`: the model behind the gateway

## Design notes

Whatever the gateway answers ends in a value, in one of the faults of services, or in the fault of a
number with more digits than the digit limit or of a value nested too deep.
-/

namespace Coach.Model.Groq

open Coach.Config Coach.Security Coach.Service

/-- The messages with their secrets taken out. -/
def redacted (r : Redactor) (messages : List Message) : Except Fault (List Message) :=
  messages.mapM fun m => do return { m with content := ← r.redactOutbound m.content }

/-- A message in a document. -/
def messageJson (m : Message) : Json :=
  .object [("role", .string m.role.name), ("content", .string m.content)]

/-- The document that is sent for a question whose messages are clean. -/
def documentOf (settings : GroqSettings) (messages : List Message) (wantsObject : Bool) : Json :=
  .object ([("model", .string settings.model),
    ("messages", .array (messages.map messageJson)),
    ("temperature", .float settings.temperature),
    ("max_tokens", .int settings.maxTokens)] ++
    if wantsObject then [("response_format", .object [("type", .string "json_object")])] else [])

/-- The document that is sent for a question. -/
def document (settings : GroqSettings) (r : Redactor) (q : Question) : Except Fault Json := do
  return documentOf settings (← redacted r q.messages) q.wantsObject

/-- Why a place in a reply cannot be reached. -/
inductive ShapeCause where
  | noMember (name : String)
  | noItem
  | noCharacter
  | namedItem
  | namedCharacter
  | scalar (kind : String)
  | numbered
  deriving DecidableEq, Repr

/-- The wording of a cause. -/
def ShapeCause.text : ShapeCause → String
  | .noMember name => String.ofList (Coach.Text.quoted name.toList)
  | .noItem => "list index out of range"
  | .noCharacter => "string index out of range"
  | .namedItem => "list indices must be integers or slices, not str"
  | .namedCharacter => "string indices must be integers, not 'str'"
  | .scalar kind => s!"'{kind}' object is not subscriptable"
  | .numbered => "0"

/-- A member of a value. -/
def member (name : String) : Json → Except ShapeCause Json
  | .object members => match lookupPair members name with
    | some j => .ok j
    | none => .error (.noMember name)
  | .array _ => .error .namedItem
  | .string _ => .error .namedCharacter
  | j => .error (.scalar (kindName j))

/-- The first item of a value. -/
def firstItem : Json → Except ShapeCause Json
  | .array (j :: _) => .ok j
  | .array [] => .error .noItem
  | .object _ => .error .numbered
  | .string s => match s.toList with
    | c :: _ => .ok (.string (String.ofList [c]))
    | [] => .error .noCharacter
  | j => .error (.scalar (kindName j))

/-- The content of the message of the first choice. -/
def content (j : Json) : Except ShapeCause Json := do
  let choice ← firstItem (← member "choices" j)
  member "content" (← member "message" choice)

/-- The fault of a reply that has another form. -/
def shapeFault (cause : String) : Fault := badReply s!"Unexpected Groq response shape: {cause}"

/-- The fault of a body that cannot be read. -/
def bodyFault : BodyFault → Fault
  | .unread .tooDeep => { kind := .nesting, message := Json.Fault.tooDeep.message }
  | fault => shapeFault fault.message

/-- The text of the model in a reply of the gateway. -/
def replyText (reply : WebReply) : Except Fault String :=
  match reply.json with
  | .error fault => .error (bodyFault fault)
  | .ok j => match content j with
    | .error cause => .error (shapeFault cause.text)
    | .ok (.string text) => .ok text
    | .ok _ => .error (badReply "Groq response content is not text")

/-- What the model answers, read off a text. -/
def answerOf (wantsObject : Bool) (text : String) : Except Fault Json :=
  if wantsObject then (readObject text).map .object
  else if replyLimit < text.length then
    .error (badReply s!"Response exceeds maximum length: {text.length}")
  else .ok (.string text)

/-- The fault of too many requests, with the time in the headers. -/
def rateLimited (message : String) (header : Option String) : Fault :=
  match retryAfter header with
  | .ok seconds => { kind := .rateLimit, message, retryAfter := seconds }
  | .error fault => fault

/-- A fault of the gateway. -/
def gatewayFault (message : String) : Fault := { kind := .gateway, message }

/-- What a reply of the gateway comes to. -/
def readReply (wantsObject : Bool) (reply : WebReply) : Except Fault Json :=
  if reply.status = 429 then
    .error (rateLimited "Groq rate limit exceeded" (reply.header? "retry-after"))
  else if 400 ≤ reply.status then
    let shown := String.ofList (reply.body.toList.take 200)
    .error (gatewayFault s!"Groq API error {reply.status}: {shown}")
  else (replyText reply).bind (answerOf wantsObject)

/-- A fault of the connection as a fault of the gateway. -/
def connectionFault (fault : Fault) : Fault :=
  if fault.isA .slowConnection then
    { kind := .timeout, message := s!"Groq request timed out: {fault.message}" }
  else if fault.isA .transport then gatewayFault s!"Groq transport error: {fault.message}"
  else fault

/-- The model behind the gateway. A connection that fails is tried again up to `more` times. -/
def model {σ : Type} (settings : GroqSettings) (r : Redactor) (more : Nat) (web : WebService σ) :
    Model σ := fun q s =>
  match document settings r q with
  | .error fault => (.error fault, s)
  | .ok document =>
    let request : WebRequest :=
      { address := settings.baseUrl, authorization := some s!"Bearer {settings.apiKey}", document }
    match retry transientKinds (web request) more s with
    | (.ok reply, s) => (readReply q.wantsObject reply, s)
    | (.error fault, s) => (.error (connectionFault fault), s)

end Coach.Model.Groq
