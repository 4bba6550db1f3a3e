import Coach.Text.Basic

/-!
# Standard input

The input of a simulated program, read by tokens and by lines.

## Main definitions

* `Input`: the lines that are left, and the rest of the line that has been begun
* `Input.ofValues`: the input that some values, one per line, make
* `Input.token?`, `Input.line?`: the next token, the next line
-/

namespace Coach.Program

open Coach.Text

/-- Lines still to come, and what is left of the line that a token has been read from. -/
structure Input where
  lines : List (List Char)
  current : Option (List Char) := none
  deriving DecidableEq, Repr

namespace Input

/-- The input of some values. A value of several lines counts as that many. -/
def ofValues (values : List String) : Input :=
  { lines := values.flatMap fun v => splitOn '\n' v.toList }

/-- The first token of some lines. -/
def firstToken? : List (List Char) → Option (List Char) × Input
  | [] => (none, { lines := [] })
  | line :: rest => match nextWord? line with
    | some (word, after) => (some word, { lines := rest, current := some after })
    | none => firstToken? rest

/-- The next token, over line ends, and the input behind it. -/
def token? (i : Input) : Option (List Char) × Input :=
  match i.current with
  | none => firstToken? i.lines
  | some current => match nextWord? current with
    | some (word, after) => (some word, { i with current := some after })
    | none => firstToken? i.lines

/-- The rest of the line that has been begun, or else the next line, and the input behind it. -/
def line? (i : Input) : Option (List Char) × Input :=
  match i.current with
  | some rest => (some rest, { i with current := none })
  | none => match i.lines with
    | [] => (none, i)
    | line :: lines => (some line, { i with lines })

end Input

end Coach.Program
