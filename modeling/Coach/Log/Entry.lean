import Coach.Config.Settings
import Coach.Security.Secret

/-!
# Log entries

What is written to a log: an event with fields. Programs of learners and replies of models are often
among the fields, so secrets are taken out and long texts are cut before an entry goes anywhere.

## Main definitions

* `sanitized`: a value without secrets
* `clip`: a text cut to a length, with a note of how much is missing
* `prepared`: the fields of an entry as they are written
* `LogLevel.word`: the name of a level in an entry

## Design notes

Secrets are taken out before texts are cut, since a cut could leave half a secret that no pattern
recognizes.
-/

namespace Coach.Log

open Coach.Config Coach.Security

/-- The fields of an entry. -/
abbrev Fields := List (String × Json)

/-- The name under which the tutor logs. -/
def serviceName : String := "ai-code-tutor"

/-- The version of the tutor. -/
def version : String := "0.1.0"

/-- The length to which texts are cut. -/
def lengthLimit : Int := 2000

/-- A text without secrets. One that cannot be searched is withheld. -/
def sanitizedText (s : String) : String :=
  match ({} : Redactor).redact s with
  | .ok text => text
  | .error _ => defaultPlaceholder

mutual

/-- A value without secrets. The names of members stay. -/
def sanitized : Json → Json
  | .string s => .string (sanitizedText s)
  | .array items => .array (sanitizedItems items)
  | .object members => .object (sanitizedMembers members)
  | j => j

/-- Items without secrets. -/
def sanitizedItems : List Json → List Json
  | [] => []
  | item :: rest => sanitized item :: sanitizedItems rest

/-- Members without secrets. -/
def sanitizedMembers : List (String × Json) → List (String × Json)
  | [] => []
  | (name, value) :: rest => (name, sanitized value) :: sanitizedMembers rest

end

/-- The start of a text up to a limit. A negative limit counts from the end. -/
def startOf (limit : Int) (text : List Char) : List Char :=
  text.take (if limit < 0 then limit + text.length else limit).toNat

/-- A text cut to a limit, with a note of how much is missing. -/
def clip (text : String) (limit : Int := lengthLimit) : String :=
  if text.length ≤ limit then text
  else
    let missing := text.length - limit
    String.ofList (startOf limit text.toList) ++ s!"... [{missing} more chars]"

/-- The field that holds a trace, which is not cut. -/
def traceField : String := "exception"

/-- A field with its text cut. -/
def clipped : String × Json → String × Json
  | (name, .string text) => (name, .string (if name = traceField then text else clip text))
  | field => field

/-- Adds a field unless there is one of that name. -/
def addField (fields : Fields) (name value : String) : Fields :=
  if (lookupPair fields name).isSome then fields else putPair fields name (.string value)

/-- The fields with those that name the service. -/
def withService (fields : Fields) : Fields :=
  addField (addField fields "service" serviceName) "version" version

/-- The fields of an entry as they are written. -/
def prepared (fields : Fields) : Fields := (sanitizedMembers fields).map clipped

/-- The name of a level in an entry. -/
def levelWord : LogLevel → String
  | .debug => "debug"
  | .info => "info"
  | .warning => "warning"
  | .error => "error"
  | .critical => "critical"

end Coach.Log
