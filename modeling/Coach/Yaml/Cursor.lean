/-!
# Places in a YAML text

A cursor is the rest of a text with the line and the column at which it begins. Indentation and the
rules for keys depend on them.

## Main definitions

* `Fault`: what can be wrong with a text, by the step that finds it
* `Cursor`, `Cursor.next`, `Cursor.skip`
* `Cursor.lineBreak?`: a line break of any form
-/

namespace Coach.Yaml

/-- What is wrong with a text, by the step that finds it. -/
inductive Fault where
  /-- A character that is not printable. -/
  | character
  /-- No token can be read. -/
  | token
  /-- The tokens do not form a document. -/
  | grammar
  /-- An alias without an anchor, or a second document. -/
  | reference
  /-- A tag that says nothing, or a collection as a key. -/
  | construction
  /-- A number out of range. -/
  | number (message : String)
  deriving DecidableEq, Repr

/-- Whether a character ends a line. -/
def isBreak (c : Char) : Bool :=
  c == '\n' || c == '\r' || c == '\x85' || c == '\u2028' || c == '\u2029'

/-- Whether a character separates tokens. -/
def isGap (c : Char) : Bool := c == ' ' || c == '\t' || isBreak c

/-- Whether the next character, if there is one, separates tokens. -/
def endsToken (next : Option Char) : Bool := next.all isGap

/-- Whether a character may stand in a text. -/
def isPrintable (c : Char) : Bool :=
  c == '\t' || c == '\n' || c == '\r' || (' ' ≤ c && c ≤ '~') || c == '\x85' ||
    ('\xa0' ≤ c && c != '\ufffe' && c != '\uffff')

/-- The rest of a text and where it begins. -/
structure Cursor where
  rest : List Char
  index : Nat := 0
  line : Nat := 0
  column : Nat := 0
  deriving Repr

namespace Cursor

/-- The next character. -/
def peek (c : Cursor) : Option Char := c.rest.head?

/-- The character after the next one. -/
def peekSecond (c : Cursor) : Option Char := c.rest.tail.head?

/-- One character further. A byte order mark takes no column. -/
def next (c : Cursor) : Cursor :=
  match c.rest with
  | [] => c
  | x :: rest =>
    if isBreak x && !(x == '\r' && rest.head? == some '\n') then
      { rest, index := c.index + 1, line := c.line + 1, column := 0 }
    else
      { rest, index := c.index + 1, line := c.line
        column := if x == '\ufeff' then c.column else c.column + 1 }

/-- Several characters further. -/
def skip : Nat → Cursor → Cursor
  | 0, c => c
  | n + 1, c => skip n c.next

/-- The characters at the cursor that satisfy a test, and the cursor after them. -/
def span (p : Char → Bool) (c : Cursor) : List Char × Cursor :=
  let run := c.rest.takeWhile p
  (run, c.skip run.length)

/-- The cursor after the characters that satisfy a test. -/
def after (p : Char → Bool) (c : Cursor) : Cursor := (c.span p).2

/-- A line break, which reads as a newline unless it is one of its own kind. -/
def lineBreak? (c : Cursor) : Option (Char × Cursor) :=
  match c.rest with
  | '\r' :: '\n' :: _ => some ('\n', c.skip 2)
  | x :: _ =>
    if x == '\u2028' || x == '\u2029' then some (x, c.next)
    else if isBreak x then some ('\n', c.next)
    else none
  | [] => none

/-- Whether a mark of three characters stands at the cursor, apart from what follows. -/
def atMark (mark : Char) (c : Cursor) : Bool :=
  c.rest.take 3 == [mark, mark, mark] && endsToken (c.rest.drop 3).head?

/-- Whether a document begins or ends here. -/
def atDocumentMark (c : Cursor) : Bool := c.atMark '-' || c.atMark '.'

end Cursor

end Coach.Yaml
