import Coach.Json.Basic
import Coach.Number.Decimal

/-!
# Writing JSON

Three layouts of the same values: on one line with blanks after commas and colons, on one line without
any, and indented. The first and the last write every character outside printable ASCII as an escape.

## Main definitions

* `Json.Style`: what a layout writes between items and which characters it escapes
* `Json.write`: the text of a value
* `Json.line`, `Json.compact`, `Json.indented`: the three layouts
-/

namespace Coach.Json

/-- Four hexadecimal digits. -/
def hex4 (n : Nat) : List Char :=
  let digits := Nat.toDigits 16 n
  List.replicate (4 - digits.length) '0' ++ digits

/-- An escape by code. -/
def codeEscape (n : Nat) : List Char := '\\' :: 'u' :: hex4 n

/-- A character of a string; those beyond ASCII as escapes when `ascii` is set, in two halves past
the first plane. -/
def escapeChar (ascii : Bool) (c : Char) : List Char :=
  let n := c.toNat
  if c = '"' then ['\\', '"']
  else if c = '\\' then ['\\', '\\']
  else if c = '\n' then ['\\', 'n']
  else if c = '\r' then ['\\', 'r']
  else if c = '\t' then ['\\', 't']
  else if c = '\x0c' then ['\\', 'f']
  else if c = '\x08' then ['\\', 'b']
  else if n < 0x20 then codeEscape n
  else if n < 0x7F || !ascii then [c]
  else if n < 0x10000 then codeEscape n
  else
    let m := n - 0x10000
    codeEscape (0xD800 + m / 0x400) ++ codeEscape (0xDC00 + m % 0x400)

/-- A string between quotes. -/
def quote (ascii : Bool) (s : String) : List Char :=
  '"' :: (s.toList.flatMap (escapeChar ascii)) ++ ['"']

/-- The text of a number. -/
def numberText : Number → List Char
  | .int n => intText n
  | .float x => match Binary64.ofFloat x with
    | .nan => ['N', 'a', 'N']
    | .infinite negative => (if negative then ['-'] else []) ++ "Infinity".toList
    | .finite .. => floatText x

/-- A layout: whether to escape beyond ASCII, what follows a comma and a colon, and by how much each
level is indented, on lines of its own, if at all. -/
structure Style where
  ascii : Bool
  afterComma : List Char
  afterColon : List Char
  indent : Option Nat

namespace Style

/-- A line break with the indentation of a level, or nothing. -/
def breakLine (s : Style) (level : Nat) : List Char :=
  match s.indent with
  | none => []
  | some width => '\n' :: List.replicate (width * level) ' '

end Style

mutual

/-- The text of a value at a level of nesting. -/
def writeAt (s : Style) (level : Nat) : Json → List Char
  | .null => "null".toList
  | .bool b => if b then "true".toList else "false".toList
  | .number n => numberText n
  | .string text => quote s.ascii text
  | .array [] => ['[', ']']
  | .array (item :: items) =>
    '[' :: s.breakLine (level + 1) ++ writeAt s (level + 1) item ++ writeItems s (level + 1) items ++
      s.breakLine level ++ [']']
  | .object [] => ['\x7b', '\x7d']
  | .object ((name, value) :: members) =>
    '\x7b' :: s.breakLine (level + 1) ++ quote s.ascii name ++ ':' :: s.afterColon ++
      writeAt s (level + 1) value ++ writeMembers s (level + 1) members ++
      s.breakLine level ++ ['\x7d']

/-- The items after the first, each behind a comma. -/
def writeItems (s : Style) (level : Nat) : List Json → List Char
  | [] => []
  | item :: items =>
    ',' :: s.afterComma ++ s.breakLine level ++ writeAt s level item ++ writeItems s level items

/-- The members after the first, each behind a comma. -/
def writeMembers (s : Style) (level : Nat) : List (String × Json) → List Char
  | [] => []
  | (name, value) :: members =>
    ',' :: s.afterComma ++ s.breakLine level ++ quote s.ascii name ++ ':' :: s.afterColon ++
      writeAt s level value ++ writeMembers s level members

end

/-- The text of a value. -/
def write (s : Style) (j : Json) : String := String.ofList (writeAt s 0 j)

/-- One line with blanks after commas and colons, in ASCII. -/
def lineStyle : Style := { ascii := true, afterComma := [' '], afterColon := [' '], indent := none }

/-- One line without blanks. -/
def compactStyle : Style := { ascii := false, afterComma := [], afterColon := [], indent := none }

/-- Two more blanks for each level, in ASCII. -/
def indentedStyle : Style :=
  { ascii := true, afterComma := [], afterColon := [' '], indent := some 2 }

/-- One line with blanks after commas and colons, in ASCII. -/
def line (j : Json) : String := j.write lineStyle

/-- One line without blanks. -/
def compact (j : Json) : String := j.write compactStyle

/-- Indented by two blanks a level, in ASCII. -/
def indented (j : Json) : String := j.write indentedStyle

end Coach.Json
