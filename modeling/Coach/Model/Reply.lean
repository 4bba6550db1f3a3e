import Coach.Json.Reader
import Coach.Service.Fault

/-!
# Replies of models

What a model answers is text. It may stand between code fences, and where an object is wanted it has to
be one JSON object.

## Main definitions

* `stripFences`: the text between code fences
* `readObject`: the object that a reply consists of
* `retryAfter`: the seconds in a header that asks to come back later
-/

namespace Coach.Model

open Coach.Text Coach.Service

/-- The length that a reply may have. -/
def replyLimit : Nat := 50000

/-- The line that closes a code fence. -/
def fence : List Char := ['\x60', '\x60', '\x60']

/-- Whether a line is a closing fence. -/
def isFence (line : List Char) : Bool := strip line == fence

/-- The lines before the last closing fence; all of them when there is none. -/
def beforeLastFence (lines : List (List Char)) : List (List Char) :=
  match lines.reverse.dropWhile (!isFence ·) with
  | [] => lines
  | _ :: before => before.reverse

/-- Takes the code fences off a text that begins with one. The opening line goes as a whole, and so
does everything from the last closing fence on. -/
def stripFences (text : List Char) : List Char :=
  let text := strip text
  if startsWith text fence then
    strip (joinWith ['\n'] (beforeLastFence (splitOn '\n' text).tail))
  else text

/-- The name of the kind of a value. -/
def kindName : Json → String
  | .null => "NoneType"
  | .bool _ => "bool"
  | .number (.int _) => "int"
  | .number (.float _) => "float"
  | .string _ => "str"
  | .array _ => "list"
  | .object _ => "dict"

/-- A reply that is not usable. -/
def badReply (message : String) : Fault := { kind := .reply, message }

/-- The fault of a text that is not JSON; `what` announces a fault of its form. -/
def jsonFault (kind : FaultKind) (what : String) : Json.Fault → Fault
  | .tooManyDigits count => { kind := .value, message := tooManyDigitsMessage count }
  | .tooDeep => { kind := .nesting, message := Json.Fault.tooDeep.message }
  | fault => { kind, message := what ++ fault.message }

/-- The object that a reply consists of. -/
def readObject (reply : String) : Except Fault (List (String × Json)) :=
  if replyLimit < reply.length then
    .error (badReply s!"Response exceeds maximum length: {reply.length}")
  else match Json.read (stripFences reply.toList) with
    | .error fault => .error (jsonFault .reply "Invalid JSON in LLM response: " fault)
    | .ok (.object members) => .ok members
    | .ok j => .error (badReply s!"Expected a JSON object, got {kindName j}")

/-- Digits that stand raised, lowered or in a circle. They are digits and yet no decimal digits. -/
def isFancyDigit (c : Char) : Bool := inRanges Tables.fancyDigits c.toNat

/-- The whole seconds in a header that asks to come back later; nothing when it is a date. -/
def retryAfter (header : Option String) : Except Fault (Option Int) :=
  let value := strip ((header.getD "").toList)
  if value.isEmpty || !value.all (fun c => isDecimal c || isFancyDigit c) then .ok none
  else match readInt value with
    | .ok n => .ok (some n)
    | .error fault => .error { kind := .value, message := fault.message }

end Coach.Model
