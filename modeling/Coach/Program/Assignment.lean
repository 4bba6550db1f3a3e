import Coach.Text.Pattern

/-!
# What a piece of source text may write to

Whether some text may change a variable, judged by the text alone: an assignment, an increment or
decrement, or an address taken. It is asked of code that is skipped.

## Main definitions

* `assigns`: whether a text may write to a name
* `usesMember`: whether a text uses a member of a name
* `callsScanf`: whether a text reads input through `scanf`
-/

namespace Coach.Program

open Coach.Text

/-- A character that an identifier or a member access before a name would end with. -/
def joinsName (c : Char) : Bool := isWord c || c == '$' || c == '.'

/-- A character that would go on with a name. -/
def extendsName (c : Char) : Bool := isWord c || c == '$'

/-- A character after which an ampersand is an operator between two values. -/
def endsValue (c : Char) : Bool := isWord c || c == '&' || c == '$' || c == ')' || c == ']'

/-- An equals sign, alone or with the operator of a compound assignment, that is not a comparison. -/
def assignmentSign : Pattern :=
  .all [
    .optional (.anyPattern [
      .text "<<", .all [.text ">>", .optional (.char '>')], .anyOf "-+*/%&|^"]),
    .char '=',
    .notBefore (· == '=')]

/-- An increment or a decrement. -/
def stepSign : Pattern := .alt (.text "++") (.text "--")

/-- Ways to write to a name: an assignment or a step behind it, a step or an address mark before it. -/
def assignmentTo (name : String) : Pattern :=
  let name := Pattern.text name
  .anyPattern [
    .all [.notAfter joinsName, name, .space, .alt assignmentSign stepSign],
    .all [stepSign, .space, name, .notBefore extendsName],
    .all [.notAfter endsValue, .char '&', .space, name, .notBefore extendsName]]

/-- Whether a text may write to a name. -/
def assigns (text : List Char) (name : String) : Bool := (assignmentTo name).occursIn text

/-- Whether a text uses a member of a name. -/
def usesMember (text : List Char) (name : String) : Bool :=
  (Pattern.all [.notAfter joinsName, .text name, .space, .char '.']).occursIn text

/-- Whether a text reads input through `scanf`. -/
def callsScanf (text : List Char) : Bool :=
  (Pattern.all [.boundary, .text "scanf", .space, .char '(']).occursIn text

end Coach.Program
