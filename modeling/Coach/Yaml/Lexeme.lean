import Coach.Yaml.Cursor

/-!
# Written forms of YAML scalars

Plain text, text in quotes, and blocks of lines. Each reader starts at the first character of its form
and answers the text that is meant, with the cursor after it.

## Main definitions

* `plain`: text without quotes
* `quoted`: text in single or double quotes
* `block`: lines that are kept or folded

## Design notes

A line break within a scalar stands for a blank, and further ones stand for themselves. The readers
repeat at most as often as there are characters left.
-/

namespace Coach.Yaml

/-! ### Plain text -/

/-- A plain scalar with the cursor after it, and whether it ends below a line break. -/
structure PlainText where
  text : List Char
  cursor : Cursor
  endsLine : Bool := false

/-- Whether a colon before the given character ends a key. -/
def endsKey (inFlow : Bool) (next : Option Char) : Bool :=
  endsToken next || (inFlow && next.any ",[]\x7b\x7d".toList.contains)

/-- How many characters of plain text stand here on one line without a gap. -/
def plainLength (inFlow : Bool) : List Char → Nat
  | [] => 0
  | c :: rest =>
    if isGap c || (c == ':' && endsKey inFlow rest.head?) ||
        (inFlow && ",?[]\x7b\x7d".toList.contains c) then 0
    else plainLength inFlow rest + 1

/-- Line breaks with blanks between them; none at all when a document begins or ends there. -/
def breaks : Nat → Cursor → List Char → Option (List Char) × Cursor
  | 0, c, seen => (some seen.reverse, c)
  | n + 1, c, seen =>
    if c.peek == some ' ' then breaks n c.next seen
    else match c.lineBreak? with
      | some (b, c) => if c.atDocumentMark then (none, c) else breaks n c (b :: seen)
      | none => (some seen.reverse, c)

/-- What a first line break and those after it stand for. -/
def folded (first : Char) (others : List Char) : List Char :=
  if first != '\n' then first :: others else if others.isEmpty then [' '] else others

/-- A gap within plain text: what it stands for, which is nothing when the text ends with it. -/
def plainGap (c : Cursor) : PlainText :=
  let (blanks, c) := c.span (· == ' ')
  match c.lineBreak? with
  | none => { text := blanks, cursor := c }
  | some (b, c) =>
    if c.atDocumentMark then { text := [], cursor := c, endsLine := true }
    else match breaks c.rest.length c [] with
      | (none, c) => { text := [], cursor := c, endsLine := true }
      | (some others, c) => { text := folded b others, cursor := c, endsLine := true }

/-- Plain text after `done`. It goes on while it is indented, up to `rounds` times. -/
def plainFrom (inFlow : Bool) (indent : Int) : Nat → PlainText → PlainText
  | 0, p => p
  | rounds + 1, p =>
    let length := plainLength inFlow p.cursor.rest
    if p.cursor.peek == some '#' || length = 0 then p
    else
      let text := p.text ++ p.cursor.rest.take length
      let gap := plainGap (p.cursor.skip length)
      let stopped : PlainText := { text, cursor := gap.cursor, endsLine := gap.endsLine }
      let out := !inFlow && (gap.cursor.column : Int) < indent
      if gap.text.isEmpty || gap.cursor.peek == some '#' || out then stopped
      else
        let on := plainFrom inFlow indent rounds { stopped with text := text ++ gap.text }
        if on.text.length = text.length + gap.text.length then stopped else on

/-- A plain scalar. -/
def plain (inFlow : Bool) (indent : Int) (c : Cursor) : PlainText :=
  plainFrom inFlow indent c.rest.length { text := [], cursor := c }

/-! ### Text in quotes -/

/-- What a character after a backslash stands for. -/
def escaped? : Char → Option Char
  | '0' => some '\x00'
  | 'a' => some '\x07'
  | 'b' => some '\x08'
  | 't' => some '\t'
  | '\t' => some '\t'
  | 'n' => some '\n'
  | 'v' => some '\x0b'
  | 'f' => some '\x0c'
  | 'r' => some '\r'
  | 'e' => some '\x1b'
  | ' ' => some ' '
  | '"' => some '"'
  | '\\' => some '\\'
  | '/' => some '/'
  | 'N' => some '\x85'
  | '_' => some '\xa0'
  | 'L' => some '\u2028'
  | 'P' => some '\u2029'
  | _ => none

/-- How many hexadecimal digits follow a character after a backslash. -/
def codeLength? : Char → Option Nat
  | 'x' => some 2
  | 'u' => some 4
  | 'U' => some 8
  | _ => none

/-- The value of a hexadecimal digit. -/
def hexValue? (c : Char) : Option Nat :=
  if c.isDigit then some (c.toNat - 48)
  else if 'a' ≤ c && c ≤ 'f' then some (c.toNat - 87)
  else if 'A' ≤ c && c ≤ 'F' then some (c.toNat - 55)
  else none

/-- The character that the next digits name. -/
def charOfCode (digits : Nat) (c : Cursor) : Except Fault Char :=
  let run := c.rest.take digits
  match run.mapM hexValue? with
  | some values =>
    if run.length < digits then .error .token
    else
      let code := values.foldl (fun n d => 16 * n + d) 0
      if 0x10ffff < code then
        .error (.number "chr() arg not in range(0x110000)")
      else .ok (Char.ofNat code)
  | none => .error .token

/-- Line breaks within quotes, with blanks around them. -/
def quotedBreaks : Nat → Cursor → List Char → Except Fault (List Char × Cursor)
  | 0, c, seen => .ok (seen.reverse, c)
  | n + 1, c, seen =>
    if c.atDocumentMark then .error .token
    else
      let c := c.after fun x => x == ' ' || x == '\t'
      match c.lineBreak? with
      | some (b, c) => quotedBreaks n c (b :: seen)
      | none => .ok (seen.reverse, c)

/-- A gap within quotes. -/
def quotedGap (c : Cursor) : Except Fault (List Char × Cursor) := do
  let (blanks, c) := c.span fun x => x == ' ' || x == '\t'
  match c.lineBreak? with
  | some (b, c) =>
    let (others, c) ← quotedBreaks (c.rest.length + 1) c []
    return (folded b others, c)
  | none => if c.rest.isEmpty then .error .token else return (blanks, c)

/-- What a backslash within double quotes begins; the cursor is behind it. -/
def escape (c : Cursor) : Except Fault (List Char × Cursor) :=
  match c.peek with
  | none => .error .token
  | some x => match escaped? x, codeLength? x, c.lineBreak? with
    | some y, _, _ => .ok ([y], c.next)
    | none, some digits, _ =>
      (charOfCode digits c.next).map fun y => ([y], c.next.skip digits)
    | none, none, some (_, c) => quotedBreaks (c.rest.length + 1) c []
    | none, none, none => .error .token

/-- Text up to the closing quote, after `done` in reverse. -/
def quotedFrom (quote : Char) : Nat → List Char → Cursor → Except Fault (List Char × Cursor)
  | 0, _, _ => .error .token
  | rounds + 1, done, c =>
    match c.rest with
    | [] => .error .token
    | x :: rest =>
      if x == quote then
        if quote == '\'' && rest.head? == some '\'' then
          quotedFrom quote rounds ('\'' :: done) (c.skip 2)
        else .ok (done.reverse, c.next)
      else if quote == '"' && x == '\\' then
        match escape c.next with
        | .ok (part, c) => quotedFrom quote rounds (part.reverse ++ done) c
        | .error fault => .error fault
      else if isGap x then
        match quotedGap c with
        | .ok (part, c) => quotedFrom quote rounds (part.reverse ++ done) c
        | .error fault => .error fault
      else quotedFrom quote rounds (x :: done) c.next

/-- A scalar in quotes. -/
def quoted (quote : Char) (c : Cursor) : Except Fault (List Char × Cursor) :=
  quotedFrom quote (c.rest.length + 1) [] c.next

/-! ### Blocks of lines -/

/-- What becomes of the line breaks at the end of a block. -/
inductive Chomping where
  | strip
  | clip
  | keep
  deriving DecidableEq, Repr

/-- The chomping that a character asks for. -/
def chomping? : Option Char → Option Chomping
  | some '+' => some .keep
  | some '-' => some .strip
  | _ => none

/-- The indentation that a digit asks for. -/
def increment? (c : Option Char) : Option Nat :=
  (c.filter Char.isDigit).map fun d => d.toNat - 48

/-- The two indicators in the head of a block, in any order. -/
def blockIndicators (c : Cursor) : Chomping × Option Nat × Cursor :=
  match chomping? c.peek, increment? c.peek with
  | some chomping, _ => match increment? c.next.peek with
    | some n => (chomping, some n, c.skip 2)
    | none => (chomping, none, c.next)
  | none, some n => match chomping? c.next.peek with
    | some chomping => (chomping, some n, c.skip 2)
    | none => (.clip, some n, c.next)
  | none, none => (.clip, none, c)

/-- The head of a block up to its line break. -/
def blockHead (c : Cursor) : Except Fault (Chomping × Option Nat × Cursor) :=
  let (chomping, increment, c) := blockIndicators c
  if increment = some 0 || !(c.peek.all fun x => x == ' ' || isBreak x) then .error .token
  else
    let c := c.after (· == ' ')
    let c := if c.peek == some '#' then c.after (!isBreak ·) else c
    match c.lineBreak? with
    | some (_, c) => .ok (chomping, increment, c)
    | none => if c.rest.isEmpty then .ok (chomping, increment, c) else .error .token

/-- The line breaks before the first line, and the deepest column of a blank there. -/
def blockStart : Nat → Cursor → List Char → Nat → List Char × Nat × Cursor
  | 0, c, seen, deepest => (seen.reverse, deepest, c)
  | n + 1, c, seen, deepest =>
    if c.peek == some ' ' then blockStart n c.next seen (max deepest c.next.column)
    else match c.lineBreak? with
      | some (b, c) => blockStart n c (b :: seen) deepest
      | none => (seen.reverse, deepest, c)

/-- The cursor after the indentation of a line. -/
def indented (indent : Nat) (c : Cursor) : Cursor :=
  c.skip ((c.rest.takeWhile (· == ' ')).length.min (indent - c.column))

/-- The line breaks between two lines. -/
def blockBreaks (indent : Nat) : Nat → Cursor → List Char → List Char × Cursor
  | 0, c, seen => (seen.reverse, c)
  | n + 1, c, seen =>
    let c := indented indent c
    match c.lineBreak? with
    | some (b, c) => blockBreaks indent n c (b :: seen)
    | none => (seen.reverse, c)

/-- What ends a block. -/
def blockEnd (chomping : Chomping) (last : Option Char) (others : List Char) : List Char :=
  match chomping with
  | .strip => []
  | .clip => last.toList
  | .keep => last.toList ++ others

/-- The lines of a block with the given indentation; `before` are the breaks before the next one. -/
def blockLines (isFolded : Bool) (chomping : Chomping) (indent : Nat) :
    Nat → List Char → Cursor → List Char × Cursor
  | 0, _, c => ([], c)
  | rounds + 1, before, c =>
    let blankFirst := c.peek.any fun x => x == ' ' || x == '\t'
    let (line, c) := c.span (!isBreak ·)
    let (last, c) := match c.lineBreak? with
      | some (b, c) => (some b, c)
      | none => (none, c)
    let (others, c) := blockBreaks indent (c.rest.length + 1) c []
    if c.column = indent && !c.rest.isEmpty then
      let blankNext := c.peek.any fun x => x == ' ' || x == '\t'
      let joint := if isFolded && last == some '\n' && !blankFirst && !blankNext then
          (if others.isEmpty then [' '] else [])
        else last.toList
      let (more, c) := blockLines isFolded chomping indent rounds others c
      (before ++ line ++ joint ++ more, c)
    else (before ++ line ++ blockEnd chomping last others, c)

/-- A block of lines; the cursor is behind its first character. -/
def block (isFolded : Bool) (indent : Int) (c : Cursor) : Except Fault (List Char × Cursor) := do
  let (chomping, increment, c) ← blockHead c
  let least := max (indent + 1) 1
  let (before, depth, c) := match increment with
    | some n =>
      let depth := (least + n - 1).toNat
      let (before, c) := blockBreaks depth (c.rest.length + 1) c []
      (before, depth, c)
    | none =>
      let (before, deepest, c) := blockStart (c.rest.length + 1) c [] 0
      (before, max least.toNat deepest, c)
  if c.column = depth && !c.rest.isEmpty then
    return blockLines isFolded chomping depth (c.rest.length + 1) before c
  else return (blockEnd chomping none before, c)

end Coach.Yaml
