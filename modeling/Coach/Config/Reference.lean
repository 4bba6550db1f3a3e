import Coach.Json.Basic
import Coach.Text.Pattern

/-!
# References to variables

Places in a text that stand for the values of variables, such as `${NAME}` and `${NAME:-default}`.

## Main definitions

* `Environment`: variables with their values
* `reference`: the form of a reference
* `fillReferences`: a text with its references replaced

## Design notes

References in comment lines are left alone, so that an example in a comment may name a variable that
is not there. What a reference is replaced by is not looked at again.
-/

namespace Coach.Config

open Coach.Text

/-- Variables with their values. -/
abbrev Environment := List (String × String)

/-- Whether a character may begin a name. -/
def isNameStart (c : Char) : Bool := c.isAlpha || c == '_'

/-- Whether a character may stand in a name. -/
def isNamePart (c : Char) : Bool := c.isAlphanum || c == '_'

/-- A reference: the name is group 1 and the default, if there is one, is group 2. -/
def reference : Pattern :=
  .all [.text "$\x7b", .group 1 (.seq (.one isNameStart) (.star (.one isNamePart))),
    .optional (.all [.text ":-", .group 2 (.star (.noneOf "\x7d"))]), .char '\x7d']

/-- The value that a reference stands for; the name when there is neither a value nor a default. -/
def referenceValue (env : Environment) (m : Match) : Except String (List Char) :=
  let name := String.ofList (m.group 1)
  match lookupPair env name, m.group? 2 with
  | some value, _ => .ok value.toList
  | none, some default => .ok default
  | none, none => .error name

/-- A line with its references replaced. -/
def fillLine (env : Environment) (line : List Char) : Except String (List Char) :=
  if (stripLeft line).head? = some '#' then .ok line
  else reference.replaceM (referenceValue env) line

/-- A text with its references replaced, or the name of the first variable that is missing. -/
def fillReferences (env : Environment) (text : String) : Except String String := do
  let lines ← (linesWithBreaks text.toList).mapM fun (line, lineBreak) =>
    fillLine env (line ++ lineBreak)
  return String.ofList lines.flatten

end Coach.Config
