import Coach.Number.Reading
import Coach.Text.Pattern

/-!
# Array allocations

An array that a line allocates with a size that can be read off the line.

## Main definitions

* `Allocation`: name, size, and the rest of the line behind the allocation
* `allocation`: the allocation of a line
-/

namespace Coach.Finding

open Coach.Text

/-- An array of a known size, and what its line goes on with. -/
structure Allocation where
  name : List Char
  size : Nat
  rest : List Char

/-- A size between brackets: the name is group 1 and the digits are group 2. -/
def newArray : Pattern :=
  .all [.boundary, .group 1 .word, .space, .char '=', .space, .text "new", .space1, .word, .space,
    .char '[', .space, .group 2 .digits, .space, .char ']']

/-- Items between braces: the name is group 1 and the items are group 2. -/
def arrayLiteral : Pattern :=
  .all [.boundary, .word, .space, .char '[', .space, .char ']', .space, .group 1 .word, .space,
    .char '=', .space, .char '\x7b', .group 2 (.star (.noneOf "\x7b\x7d")), .char '\x7d']

/-- The natural number that a run of digits stands for, when there are not too many. -/
def readNatural (digits : List Char) : Option Nat :=
  match readInt digits with
  | .ok n => some n.toNat
  | .error _ => none

/-- The allocation of a line, if there is one; nothing at all when its size has too many digits. -/
def allocation (line : List Char) : Option (Option Allocation) :=
  match newArray.search? line with
  | some m => (readNatural (m.group 2)).map fun size =>
      some { name := m.group 1, size, rest := m.rest }
  | none => match arrayLiteral.search? line with
    | some m =>
      let filled := (splitOn ',' (m.group 2)).filter fun item => !(strip item).isEmpty
      some (some { name := m.group 1, size := filled.length, rest := m.rest })
    | none => some none

end Coach.Finding
