import Coach.Service.Fault
import Coach.Text.PatternText
import Coach.Text.Template

/-!
# Secrets in text

Programs, compiler output and replies may hold credentials. Whatever looks like one is replaced before
the text is sent or logged, and a replacement that fails fails as a whole: no text leaves half
redacted.

## Main definitions

* `SecretKind`, `secretKinds`: the kinds of credentials
* `Redactor`: kinds with a placeholder
* `Redactor.redact`, `Redactor.detect`
* `Redactor.redactOutbound`: redaction of text that is about to be sent

## Design notes

The kinds are replaced one after another, each in what the ones before it have left.
-/

namespace Coach.Security

open Coach.Text Coach.Service

/-- A kind of credential, with the number of groups of its pattern. -/
structure SecretKind where
  name : String
  pattern : Pattern
  groups : Nat := 0

/-- Letters of both cases and digits of ASCII. -/
def isAlphanumeric (c : Char) : Bool := c.isAlpha || c.isDigit

/-- A character of a key: a word character or a hyphen. -/
def isKeyChar (c : Char) : Bool := isWord c || c == '-'

/-- A character of an encoded key: an ASCII letter or digit, an underscore or a hyphen. -/
def isTokenChar (c : Char) : Bool := isAlphanumeric c || c == '_' || c == '-'

/-- A character that is not white space. -/
def isInk (c : Char) : Bool := !isSpace c

/-- A name that announces a secret, a sign, and at least sixteen characters of a key. -/
def genericSecret : Pattern :=
  .all [
    .group 1 (.anyPattern [
      .all [.textAnyCase "api", .optional (.anyOf "_-"), .textAnyCase "key"],
      .textAnyCase "secret", .textAnyCase "token", .textAnyCase "password",
      .textAnyCase "credential"]),
    .space, .anyOf "=:", .space, .optional (.anyOf "\"'"), .atLeast 16 (.one isKeyChar)]

/-- An authorization by a bearer token. -/
def bearerToken : Pattern :=
  .all [.textAnyCase "bearer", .space1, .atLeast 16 (.one fun c => isKeyChar c || c == '.')]

/-- Three parts between points, the first two of which begin like encoded objects. -/
def webToken : Pattern :=
  .all [.text "eyJ", .star (.one isTokenChar), .text ".eyJ", .star (.one isTokenChar), .char '.',
    .star (.one isTokenChar)]

/-- The address of a database with a user and a password. -/
def databaseAddress : Pattern :=
  .all [
    .group 1 (.anyPattern [
      .seq (.textAnyCase "postgres") (.optional (.textAnyCase "ql")),
      .textAnyCase "mysql",
      .seq (.textAnyCase "mongodb") (.optional (.textAnyCase "+srv")),
      .textAnyCase "redis"]),
    .text "://",
    .plus (.one fun c => c != ':' && isInk c), .char ':',
    .plus (.one fun c => c != '@' && isInk c), .char '@',
    .plus (.one isInk)]

/-- The line that opens a private key. -/
def privateKeyHeader : Pattern :=
  .all [.text "-----BEGIN ",
    .optional (.anyPattern [.text "RSA ", .text "EC ", .text "OPENSSH "]),
    .text "PRIVATE KEY-----"]

/-- The kinds that are always looked for, in the order in which they are replaced. -/
def secretKinds : List SecretKind :=
  [{ name := "Generic secret", pattern := genericSecret, groups := 1 },
   { name := "Bearer authorization", pattern := bearerToken },
   { name := "Groq API key", pattern := .seq (.text "gsk_") (.atLeast 20 (.one isAlphanumeric)) },
   { name := "Anthropic API key", pattern := .seq (.text "sk-ant-") (.atLeast 20 (.one isKeyChar)) },
   { name := "OpenAI project API key",
     pattern := .seq (.text "sk-proj-") (.atLeast 20 (.one isTokenChar)) },
   { name := "OpenAI legacy API key", pattern := .seq (.text "sk-") (.times 48 (.one isAlphanumeric)) },
   { name := "JWT", pattern := webToken },
   { name := "Database connection string", pattern := databaseAddress, groups := 1 },
   { name := "Private key header", pattern := privateKeyHeader }]

/-- The placeholder when no other is asked for. -/
def defaultPlaceholder : String := "[REDACTED]"

/-- Kinds of secrets with the template that replaces them. -/
structure Redactor where
  placeholder : String := defaultPlaceholder
  kinds : List SecretKind := secretKinds

/-- A pattern that somebody adds. -/
structure CustomSecret where
  name : String
  source : String
  anyCase : Bool := false

/-- The fault of a pattern that cannot be read. -/
def badPattern (name : String) (fault : PatternFault) : Fault :=
  { kind := .redaction
    message := "Invalid secret pattern " ++ String.ofList (quoted name.toList) ++ ": " ++ fault.message }

/-- The kind that a pattern stands for. -/
def CustomSecret.kind (c : CustomSecret) : Except Fault SecretKind :=
  match Pattern.ofText c.source c.anyCase with
  | .ok pattern => .ok { name := c.name, pattern }
  | .error fault => .error (badPattern c.name fault)

namespace Redactor

/-- A redactor with patterns of its own after the common ones. -/
def make (placeholder : String) (custom : List CustomSecret) : Except Fault Redactor := do
  return { placeholder, kinds := secretKinds ++ (← custom.mapM CustomSecret.kind) }

/-- The names of the kinds of secrets in a text. -/
def detect (r : Redactor) (text : String) : List String :=
  if text.isEmpty then []
  else (r.kinds.filter fun k => k.pattern.occursIn text.toList).map SecretKind.name

/-- Whether a text holds a secret. -/
def hasSecrets (r : Redactor) (text : String) : Bool := !(r.detect text).isEmpty

/-- Replaces the secrets of one kind. -/
def redactKind (placeholder : List Char) (text : List Char) (k : SecretKind) :
    Except TemplateFault (List Char) := do
  let template ← Template.ofText k.groups placeholder
  return k.pattern.replace template.fill text

/-- Replaces every secret by the placeholder. -/
def redact (r : Redactor) (text : String) : Except Fault String :=
  if text.isEmpty then .ok text
  else match r.kinds.foldlM (redactKind r.placeholder.toList) text.toList with
    | .ok clean => .ok (String.ofList clean)
    | .error fault =>
      .error { kind := .redaction
               message := "Redaction failed: " ++ fault.message r.placeholder.toList }

/-- Redacts text that is about to be sent; when that fails the text must not be sent. -/
def redactOutbound (r : Redactor) (text : String) : Except Fault String :=
  match r.redact text with
  | .ok clean => .ok clean
  | .error fault =>
    .error { kind := .security
             message := s!"Cannot send to LLM: redaction failed: {fault.message}" }

end Redactor

end Coach.Security
