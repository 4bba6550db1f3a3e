import Coach.Finding.Diagnostic
import Coach.Source.Document

/-!
# Rules

A rule looks at one line of a document in its surroundings and reports what it takes for a bug. It
knows nothing of grammar and may be wrong; it exists to teach.

## Main definitions

* `Context`: a line under scan, with access to the others
* `Hit`: a line number with a message
* `Rule`: a matcher with the category and the severity of all its hits
* `Rule.evaluate`: the findings of a rule at a line

## Design notes

A matcher answers nothing at all, in place of a list of hits, when a number in the text has more
digits than are read; the rule has then not fired.
-/

namespace Coach.Finding

open Coach.Source Coach.Text

/-- How much text a rule reads beside its own line: none, lines after it, or the whole document. -/
inductive Scope where
  | line
  | context
  | document
  deriving DecidableEq, Repr

/-- The name of a scope. -/
def Scope.name : Scope → String
  | .line => "line"
  | .context => "context"
  | .document => "document"

/-- One line of a document under scan, by its index from zero on. -/
structure Context where
  lines : List (List Char)
  index : Nat
  code : List Char

namespace Context

/-- The line under scan. -/
def line (c : Context) : List Char := c.lines.getD c.index []

/-- The number of the line under scan. -/
def lineNumber (c : Context) : Nat := c.index + 1

/-- The line at a distance, empty past either end. -/
def peek (c : Context) (offset : Int) : List Char :=
  let i := (c.index : Int) + offset
  if 0 ≤ i then c.lines.getD i.toNat [] else []

/-- The lines from the one under scan on. -/
def fromHere (c : Context) : List (List Char) := c.lines.drop c.index

/-- The lines after the one under scan, with their numbers. -/
def following (c : Context) : List (Nat × List Char) :=
  let rest := c.lines.drop (c.index + 1)
  (List.range' (c.index + 2) rest.length).zip rest

/-- The index of the first line of the document that satisfies a test. -/
def firstIndex? (c : Context) (p : List Char → Bool) : Option Nat := c.lines.findIdx? p

end Context

/-- What a matcher reports: a line number and a message. -/
abbrev Hit := Nat × String

/-- The hits of a rule at a line, or nothing when it could not be evaluated. -/
abbrev Hits := Option (List Hit)

/-- A bug signature. -/
structure Rule where
  name : String
  scope : Scope
  category : Category
  severity : Severity
  hits : Context → Hits

/-- The findings of a rule at a line; none when the rule could not be evaluated. -/
def Rule.evaluate (r : Rule) (c : Context) : List Diagnostic :=
  ((r.hits c).getD []).map fun (line, message) =>
    { line, message, severity := r.severity, category := r.category }

end Coach.Finding
