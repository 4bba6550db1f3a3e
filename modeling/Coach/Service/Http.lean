import Coach.Json.Reader
import Coach.Service.Encoding
import Coach.Service.Fault
import Coach.Text.Case

/-!
# Web services

Replies of web services, as far as the tutor looks at them: a status, headers and a body of text.

## Main definitions

* `WebReply`, with `WebReply.header?` and `WebReply.json`
* `BodyFault`: why there is no document in a body
* `WebService`: a service that answers documents

## Design notes

A body is a text.  How a connection makes a text of bytes, by what the headers say of them, is its own affair;
a document is read off the bytes of the text, which tell themselves how.
-/

namespace Coach.Service

open Coach.Text

/-- A reply of a web service. -/
structure WebReply where
  status : Nat := 200
  headers : List (String × String) := []
  body : String := ""

/-- Why there is no document in a body. -/
inductive BodyFault where
  | undecoded (fault : DecodingFault)
  | unread (fault : Json.Fault)
  deriving DecidableEq, Repr

/-- The wording of a fault. -/
def BodyFault.message : BodyFault → String
  | .undecoded fault => fault.message
  | .unread fault => fault.message

/-- A document that is sent, with the address and a header for authorization. -/
structure WebRequest where
  address : String
  authorization : Option String := none
  document : Json

/-- A web service. -/
abbrev WebService (σ : Type) := Collaborator σ WebRequest WebReply

namespace WebReply

/-- The value of a header, whose name is given in lower case and may be written in any; several
values are joined by commas. -/
def header? (r : WebReply) (name : String) : Option String :=
  match (r.headers.filter fun (key, _) => key.map Char.toLower = name).map (·.2) with
  | [] => none
  | value :: values => some (", ".intercalate (value :: values))

/-- Whether the status is one of success. -/
def isSuccess (r : WebReply) : Bool := 200 ≤ r.status && r.status < 300

/-- The JSON value in the body. -/
def json (r : WebReply) : Except BodyFault Json :=
  match documentText r.body.toList with
  | .error fault => .error (.undecoded fault)
  | .ok text => (Json.read text).mapError .unread

end WebReply

end Coach.Service
