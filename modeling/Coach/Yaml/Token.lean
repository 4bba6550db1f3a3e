import Coach.Yaml.Lexeme

/-!
# Tokens of a YAML text

Indentation becomes tokens that open and close collections. A token that may turn out to be a key is
remembered until a colon follows it, or until it cannot be a key any more.

## Main definitions

* `Token`
* `Scanner`, `Scanner.round`: the state between two tokens, and one step
* `Tokens`, `tokensOf`: the tokens of a text up to the first fault

## Design notes

A fault is only met by a reader who gets that far. Tokens that wait for the decision whether they are
keys are not readable before it, so they are not among the tokens before a fault.
-/

namespace Coach.Yaml

/-- A token. -/
inductive Token where
  /-- A line about the document, and whether its version is one that can be read. -/
  | directive (isKnown : Bool)
  | documentStart
  | documentEnd
  | blockSequence
  | blockMapping
  | blockEnd
  | flowSequence
  | flowSequenceEnd
  | flowMapping
  | flowMappingEnd
  | blockEntry
  | flowEntry
  | key
  | value
  | alias (name : List Char)
  | anchor (name : List Char)
  | tag (handle : Option (List Char)) (suffix : List Char)
  | scalar (isPlain : Bool) (text : List Char)
  deriving DecidableEq, Repr

/-- A token that may turn out to be a key. -/
structure Candidate where
  level : Nat
  number : Nat
  required : Bool
  index : Nat
  line : Nat
  column : Nat

/-- The state between two tokens. -/
structure Scanner where
  cursor : Cursor
  tokens : Array Token := #[]
  indent : Int := -1
  indents : List Int := []
  level : Nat := 0
  candidates : List Candidate := []
  allowsKey : Bool := true
  ended : Bool := false

namespace Scanner

/-- Whether the text is within brackets or braces. -/
def inFlow (s : Scanner) : Bool := s.level != 0

/-- Adds a token. -/
def push (s : Scanner) (t : Token) : Scanner := { s with tokens := s.tokens.push t }

/-- Whether a candidate is too far behind to be a key. -/
def isStale (s : Scanner) (k : Candidate) : Bool :=
  k.line != s.cursor.line || 1024 < s.cursor.index - k.index

/-- Gives up the candidates that are too far behind. One that has to be a key is a fault. -/
def dropStale (s : Scanner) : Except Fault Scanner :=
  if s.candidates.any fun k => s.isStale k && k.required then .error .token
  else .ok { s with candidates := s.candidates.filter fun k => !s.isStale k }

/-- Gives up the candidate of the present level. One that has to be a key is a fault. -/
def dropCandidate (s : Scanner) : Except Fault Scanner :=
  if s.candidates.any fun k => k.level = s.level && k.required then .error .token
  else .ok { s with candidates := s.candidates.filter (·.level ≠ s.level) }

/-- Remembers that the next token may be a key. -/
def noteCandidate (s : Scanner) : Except Fault Scanner :=
  if !s.allowsKey then .ok s
  else do
    let s ← s.dropCandidate
    return { s with candidates :=
      { level := s.level, number := s.tokens.size
        required := !s.inFlow && s.indent = s.cursor.column
        index := s.cursor.index, line := s.cursor.line, column := s.cursor.column }
        :: s.candidates }

/-- Closes the block collections that are deeper than a column. -/
def closeBlocks (column : Int) : List Int → Scanner → Scanner
  | outer :: indents, s =>
    if column < s.indent then
      closeBlocks column indents ({ s with indent := outer, indents }.push .blockEnd)
    else s
  | [], s => s

/-- Closes the block collections that a column ends; within brackets it ends none. -/
def unwind (s : Scanner) (column : Int) : Scanner :=
  if s.inFlow then s else closeBlocks column s.indents s

/-- Opens a block collection at a column, unless one of that depth is open. Its token stands before
the token of the given number. -/
def openBlock (s : Scanner) (column : Nat) (number : Nat) (t : Token) : Scanner :=
  if s.indent < column then
    { s with indent := column, indents := s.indent :: s.indents
             tokens := s.tokens.insertIdxIfInBounds number t }
  else s

/-- Adds a token of some characters. -/
def take (s : Scanner) (length : Nat) (t : Token) : Scanner :=
  { s.push t with cursor := s.cursor.skip length }

/-! ### Blanks and comments -/

/-- Passes over blanks, comments and line breaks. A key may begin on a new line. -/
def skipBlanks : Nat → Scanner → Scanner
  | 0, s => s
  | rounds + 1, s =>
    let c := s.cursor.after (· == ' ')
    let c := if c.peek == some '#' then c.after (!isBreak ·) else c
    match c.lineBreak? with
    | some (_, c) => skipBlanks rounds { s with cursor := c, allowsKey := s.allowsKey || !s.inFlow }
    | none => { s with cursor := c }

/-! ### Single tokens -/

/-- Whether a character may stand in a name. -/
def isNameChar (c : Char) : Bool := c.isAlphanum || c == '-' || c == '_'

/-- Whether a character may stand in the suffix of a tag. -/
def isTagChar (c : Char) : Bool := c.isAlphanum || "-;/?:@&=+$,_.!~*'()[]%".toList.contains c

/-- The end of the text. -/
def finish (s : Scanner) : Except Fault Scanner := do
  let s ← (s.unwind (-1)).dropCandidate
  return { s with ended := true, allowsKey := false, candidates := [] }

/-- A mark between documents. -/
def documentMark (s : Scanner) (t : Token) : Except Fault Scanner := do
  let s ← (s.unwind (-1)).dropCandidate
  return { s.take 3 t with allowsKey := false }

/-- Whether the words of a directive can be read: a version is two numbers, the first of which is
one. -/
def directiveIsKnown (words : List (List Char)) : Except Fault Bool :=
  match words with
  | [['Y', 'A', 'M', 'L'], version] =>
    let major := version.takeWhile Char.isDigit
    match version.drop major.length with
    | '.' :: minor =>
      if major.isEmpty || minor.isEmpty || !minor.all Char.isDigit then .error .token
      else .ok (major.dropWhile (· == '0') == ['1'])
    | _ => .error .token
  | ['Y', 'A', 'M', 'L'] :: _ => .error .token
  | [] => .error .token
  | _ => .ok true

/-- The words of a line. -/
def wordsOf (line : List Char) : List (List Char) :=
  (line.splitBy fun a b => (a == ' ') == (b == ' ')).filter fun w => w.head? != some ' '

/-- A line about the document. -/
def directive (s : Scanner) : Except Fault Scanner := do
  let s ← (s.unwind (-1)).dropCandidate
  let (line, c) := s.cursor.next.span (!isBreak ·)
  let words := (wordsOf line).takeWhile fun w => w.head? != some '#'
  let known ← directiveIsKnown words
  return { s.push (.directive known) with cursor := c, allowsKey := false }

/-- An opening bracket or brace. -/
def openFlow (s : Scanner) (t : Token) : Except Fault Scanner := do
  let s ← s.noteCandidate
  return { s.take 1 t with level := s.level + 1, allowsKey := true }

/-- A closing bracket or brace. -/
def closeFlow (s : Scanner) (t : Token) : Except Fault Scanner := do
  let s ← s.dropCandidate
  return { s.take 1 t with level := s.level - 1, allowsKey := false }

/-- A comma. -/
def flowEntry (s : Scanner) : Except Fault Scanner := do
  let s ← s.dropCandidate
  return { s.take 1 .flowEntry with allowsKey := true }

/-- A dash before an entry. -/
def blockEntry (s : Scanner) : Except Fault Scanner := do
  if !s.inFlow && !s.allowsKey then .error .token
  else
    let s := if s.inFlow then s else s.openBlock s.cursor.column s.tokens.size .blockSequence
    let s ← s.dropCandidate
    return { s.take 1 .blockEntry with allowsKey := true }

/-- A question mark before a key. -/
def explicitKey (s : Scanner) : Except Fault Scanner := do
  if !s.inFlow && !s.allowsKey then .error .token
  else
    let s := if s.inFlow then s else s.openBlock s.cursor.column s.tokens.size .blockMapping
    let s ← s.dropCandidate
    return { s.take 1 .key with allowsKey := !s.inFlow }

/-- A colon before a value. The candidate of this level, if there is one, is its key. -/
def keyValue (s : Scanner) : Except Fault Scanner := do
  match s.candidates.find? (·.level = s.level) with
  | some k =>
    let s := { s with candidates := s.candidates.filter (·.level ≠ s.level)
                      tokens := s.tokens.insertIdxIfInBounds k.number .key }
    let s := if s.inFlow then s else s.openBlock k.column k.number .blockMapping
    return { s.take 1 .value with allowsKey := false }
  | none =>
    if !s.inFlow && !s.allowsKey then .error .token
    else
      let s := if s.inFlow then s else s.openBlock s.cursor.column s.tokens.size .blockMapping
      let s ← { s with allowsKey := !s.inFlow }.dropCandidate
      return s.take 1 .value

/-- A name after `&` or `*`. -/
def named (s : Scanner) (t : List Char → Token) : Except Fault Scanner := do
  let s ← s.noteCandidate
  let (name, c) := s.cursor.next.span isNameChar
  if name.isEmpty || !c.peek.all fun x => isGap x || "?:,]\x7d%@\x60".toList.contains x then .error .token
  else return { s.push (t name) with cursor := c, allowsKey := false }

/-- The suffix of a tag, which is not empty. -/
def tagSuffix (c : Cursor) : Except Fault (List Char × Cursor) :=
  let (suffix, c) := c.span isTagChar
  if suffix.isEmpty then .error .token else .ok (suffix, c)

/-- The handle and the suffix of a tag. -/
def tagParts (c : Cursor) : Except Fault (Option (List Char) × List Char × Cursor) :=
  match c.peekSecond with
  | some '<' => do
    let (suffix, c) ← tagSuffix (c.skip 2)
    if c.peek == some '>' then return (none, suffix, c.next) else .error .token
  | next =>
    if endsToken next then .ok (none, ['!'], c.next)
    else
      let word := c.rest.tail.takeWhile fun x => x != ' ' && !isBreak x
      if word.contains '!' then do
        let name := c.rest.tail.takeWhile isNameChar
        if (c.rest.tail.drop name.length).head? != some '!' then .error .token
        else
          let (suffix, c) ← tagSuffix (c.skip (name.length + 2))
          return (some ('!' :: name ++ ['!']), suffix, c)
      else do
        let (suffix, c) ← tagSuffix c.next
        return (some ['!'], suffix, c)

/-- A tag. -/
def tagged (s : Scanner) : Except Fault Scanner := do
  let s ← s.noteCandidate
  let (handle, suffix, c) ← tagParts s.cursor
  if !c.peek.all fun x => x == ' ' || isBreak x then .error .token
  else return { s.push (.tag handle suffix) with cursor := c, allowsKey := false }

/-- A block of lines. -/
def blockScalar (s : Scanner) (isFolded : Bool) : Except Fault Scanner := do
  let s ← s.dropCandidate
  let (text, c) ← block isFolded s.indent s.cursor.next
  return { s.push (.scalar false text) with cursor := c, allowsKey := true }

/-- A scalar in quotes. -/
def quotedScalar (s : Scanner) (quote : Char) : Except Fault Scanner := do
  let s ← s.noteCandidate
  let (text, c) ← quoted quote s.cursor
  return { s.push (.scalar false text) with cursor := c, allowsKey := false }

/-- A plain scalar. A key may follow it on a new line. -/
def plainScalar (s : Scanner) : Except Fault Scanner := do
  let s ← s.noteCandidate
  let p := plain s.inFlow (s.indent + 1) s.cursor
  return { s.push (.scalar true p.text) with cursor := p.cursor, allowsKey := p.endsLine }

/-- Whether plain text begins with these two characters. -/
def beginsPlain (inFlow : Bool) (c : Char) (next : Option Char) : Bool :=
  !(isGap c || "-?:,[]\x7b\x7d#&*!|>'\"%@\x60".toList.contains c) ||
    (!endsToken next && (c == '-' || (!inFlow && (c == '?' || c == ':'))))

/-- The next token, which is at the cursor. -/
def token (s : Scanner) : Except Fault Scanner :=
  let atGap := endsToken s.cursor.peekSecond
  let atStart := s.cursor.column = 0
  match s.cursor.peek with
  | none => s.finish
  | some c =>
    if atStart && c == '%' then s.directive
    else if atStart && s.cursor.atMark '-' then s.documentMark .documentStart
    else if atStart && s.cursor.atMark '.' then s.documentMark .documentEnd
    else match c with
    | '[' => s.openFlow .flowSequence
    | '\x7b' => s.openFlow .flowMapping
    | ']' => s.closeFlow .flowSequenceEnd
    | '\x7d' => s.closeFlow .flowMappingEnd
    | ',' => s.flowEntry
    | '*' => s.named .alias
    | '&' => s.named .anchor
    | '!' => s.tagged
    | '\'' => s.quotedScalar '\''
    | '"' => s.quotedScalar '"'
    | _ =>
      if c == '-' && atGap then s.blockEntry
      else if c == '?' && (s.inFlow || atGap) then s.explicitKey
      else if c == ':' && (s.inFlow || atGap) then s.keyValue
      else if c == '|' && !s.inFlow then s.blockScalar false
      else if c == '>' && !s.inFlow then s.blockScalar true
      else if beginsPlain s.inFlow c s.cursor.peekSecond then s.plainScalar
      else .error .token

/-- One step: blanks, the ends of blocks, and a token. -/
def round (s : Scanner) : Except Fault Scanner := do
  let s ← (skipBlanks (s.cursor.rest.length + 1) s).dropStale
  (s.unwind s.cursor.column).token

end Scanner

/-- The tokens of a text, and the fault that ends them if there is one. -/
structure Tokens where
  list : List Token
  fault : Option Fault := none

/-- The tokens that can be read before a fault. -/
def Scanner.readable (s : Scanner) : List Token :=
  let waiting := s.candidates.map (·.number)
  s.tokens.toList.take (waiting.foldl min s.tokens.size)

/-- The tokens after up to `rounds` steps. -/
def tokensFrom : Nat → Scanner → Tokens
  | 0, s => { list := s.tokens.toList }
  | rounds + 1, s =>
    if s.ended then { list := s.tokens.toList }
    else match s.dropStale with
      | .error fault => { list := s.readable, fault }
      | .ok s => match s.round with
        | .ok s => tokensFrom rounds s
        | .error fault => { list := s.readable, fault }

/-- The tokens of a text. -/
def tokensOf (text : List Char) : Tokens :=
  if text.all isPrintable then
    let start := match text with
      | '\ufeff' :: rest => rest
      | _ => text
    tokensFrom (start.length + 2) { cursor := { rest := start } }
  else { list := [], fault := some .character }

end Coach.Yaml
