import Coach.Number.Reading
import Coach.Text.Pattern
import Coach.Text.Quoted

/-!
# Replacement templates

What a match is replaced by: a text in which a backslash begins the number of a group, a group in angle
brackets, or an escaped character.

## Main definitions

* `Template`, `Template.ofText`: a template, and its reader for patterns with a number of groups
* `TemplateFault`: why a text is not a template
* `Template.fill`: the text that stands for a match
-/

namespace Coach.Text

/-- A piece of a template. -/
inductive TemplatePiece where
  | literal (c : Char)
  | group (number : Nat)
  deriving DecidableEq, Repr

/-- A template. -/
abbrev Template := List TemplatePiece

/-- Why a text is not a template. -/
inductive TemplateCause where
  | invalidGroup (number : Nat)
  | missingBracket
  | missingName
  | unclosedName
  | badName (name : List Char)
  | badEscape (c : Char)
  | endsInBackslash
  | octalRange (digits : List Char)
  deriving DecidableEq, Repr

/-- The wording of a cause. -/
def TemplateCause.text : TemplateCause → String
  | .invalidGroup number => s!"invalid group reference {number}"
  | .missingBracket => "missing <"
  | .missingName => "missing group name"
  | .unclosedName => "missing >, unterminated name"
  | .badName name => "bad character in group name " ++ String.ofList (quoted name)
  | .badEscape c => "bad escape \\" ++ String.ofList [c]
  | .endsInBackslash => "bad escape (end of pattern)"
  | .octalRange digits =>
    "octal escape value \\" ++ String.ofList digits ++ " outside of range 0-0o377"

/-- Why a text is not a template, and at how many characters before its end. -/
inductive TemplateFault where
  | at (cause : TemplateCause) (left : Nat)
  | unknownName (name : List Char)
  deriving DecidableEq, Repr

/-- The wording of a fault in a template. -/
def TemplateFault.message (source : List Char) : TemplateFault → String
  | .unknownName name => "unknown group name " ++ String.ofList (quoted name)
  | .at cause left =>
    let position := source.length - left
    let before := source.take position
    let place := s!"{cause.text} at position {position}"
    if source.contains '\n' then
      let row := before.count '\n' + 1
      let column := (before.reverse.takeWhile (· != '\n')).length + 1
      place ++ s!" (line {row}, column {column})"
    else place

/-- The character of an escape by one letter. -/
def templateEscape? : Char → Option Char
  | 'a' => some '\x07'
  | 'b' => some '\x08'
  | 'f' => some '\x0c'
  | 'n' => some '\n'
  | 'r' => some '\r'
  | 't' => some '\t'
  | 'v' => some '\x0b'
  | '\\' => some '\\'
  | _ => none

/-- Whether a text is a name: letters, digits and underscores, and no digit first. -/
def isName : List Char → Bool
  | [] => false
  | c :: rest => isWord c && !isDecimal c && rest.all isWord

/-- Whether a character is an octal digit. -/
def isOctal (c : Char) : Bool := '0' ≤ c && c ≤ '7'

/-- The number of octal digits. -/
def ofOctal (digits : List Char) : Nat := digits.foldl (fun n c => 8 * n + hexValue c) 0

/-- The digits of a group number or of an octal escape after the first digit, and whether they are
octal. -/
def numberEscape (first : Char) (rest : List Char) : List Char × List Char × Bool :=
  if first = '0' then
    let more := (rest.take 2).takeWhile isOctal
    (first :: more, rest.drop more.length, true)
  else match rest with
    | second :: third :: tail =>
      if !second.isDigit then ([first], rest, false)
      else if isOctal first && isOctal second && isOctal third then ([first, second, third], tail, true)
      else ([first, second], third :: tail, false)
    | [second] => if second.isDigit then ([first, second], [], false) else ([first], rest, false)
    | [] => ([first], [], false)

/-- A group, if the pattern has as many. `back` characters of the reference lie before the rest. -/
def groupPiece (groups number back left : Nat) : Except TemplateFault TemplatePiece :=
  if groups < number then .error (.at (.invalidGroup number) (left + back)) else .ok (.group number)

/-- Reads the name of a group in angle brackets behind the letter for it. -/
def namedGroup (groups : Nat) : List Char → Except TemplateFault (TemplatePiece × List Char)
  | '<' :: rest =>
    let name := rest.takeWhile (· != '>')
    match rest.dropWhile (· != '>') with
    | [] =>
      if name.isEmpty then .error (.at .missingName 0) else .error (.at .unclosedName name.length)
    | _ :: tail =>
      if name.isEmpty then .error (.at .missingName (tail.length + 1))
      else if isName name then .error (.unknownName name)
      else match readInt name with
        | .ok (.ofNat number) => do
          return (← groupPiece groups number (name.length + 1) tail.length, tail)
        | _ => .error (.at (.badName name) (tail.length + name.length + 1))
  | rest => .error (.at .missingBracket rest.length)

/-- Reads the pieces of a template for a pattern with so many groups; `bound` is at least the number
of characters. -/
def templatePieces (groups : Nat) : Nat → List Char → Except TemplateFault Template
  | 0, _ => .ok []
  | _, [] => .ok []
  | bound + 1, '\\' :: rest =>
    match rest with
    | [] => .error (.at .endsInBackslash 1)
    | c :: tail =>
      if c = 'g' then do
        let (piece, tail) ← namedGroup groups tail
        return piece :: (← templatePieces groups bound tail)
      else if c.isDigit then
        let (digits, tail, octal) := numberEscape c tail
        if octal then
          if 0o377 < ofOctal digits then
            .error (.at (.octalRange digits) (tail.length + digits.length + 1))
          else do
            return .literal (Char.ofNat (ofOctal digits)) :: (← templatePieces groups bound tail)
        else do
          let piece ← groupPiece groups (ofNatDigits digits) digits.length tail.length
          return piece :: (← templatePieces groups bound tail)
      else match templateEscape? c with
        | some x => do return .literal x :: (← templatePieces groups bound tail)
        | none =>
          if c.isAlpha then .error (.at (.badEscape c) (tail.length + 2))
          else do return .literal '\\' :: .literal c :: (← templatePieces groups bound tail)
  | bound + 1, c :: rest => do return .literal c :: (← templatePieces groups bound rest)

/-- Reads a template for a pattern with so many groups. -/
def Template.ofText (groups : Nat) (source : List Char) : Except TemplateFault Template :=
  templatePieces groups source.length source

/-- The text that stands for a match. -/
def Template.fill (t : Template) (m : Match) : List Char :=
  t.flatMap fun
    | .literal c => [c]
    | .group 0 => m.taken
    | .group number => m.group number

end Coach.Text
