import Coach.Config.Reference
import Coach.Text.Basic

/-!
# Files of variables

A file with one variable a line, such as `NAME=value`. Values may stand in quotes, and may refer to
other variables.

## Main definitions

* `bindings`: the variables of a file as they are written
* `resolveBindings`: the variables with their references replaced
* `readVariables`: the variables in the text of a file

## Design notes

A line that has no form is passed over. A name without a sign of equality has no value, which is not
the same as an empty one.
-/

namespace Coach.Config

open Coach.Text

/-- Variables of a file; some have no value. -/
abbrev Variables := List (String × Option String)

/-- Whether a character is a blank that does not end a line. -/
def isInnerBlank (c : Char) : Bool := isSpace c && c != '\n' && c != '\r'

/-- Whether a character ends a line of a file. -/
def endsLine (c : Char) : Bool := c == '\n' || c == '\r'

/-- Passes over blanks within a line. -/
def dropBlanks (text : List Char) : List Char := text.dropWhile isInnerBlank

/-- What follows the line that a text begins with. -/
def dropLine (text : List Char) : List Char :=
  match text.dropWhile (!endsLine ·) with
  | '\r' :: '\n' :: rest => rest
  | _ :: rest => rest
  | [] => []

/-- What follows a comment and the end of a line; nothing when something else stands there. -/
def dropLineEnd? (text : List Char) : Option (List Char) :=
  let text := match dropBlanks text with
    | '#' :: rest => rest.dropWhile (!endsLine ·)
    | _ => dropBlanks text
  match text with
  | [] => some []
  | '\r' :: '\n' :: rest => some rest
  | c :: rest => if endsLine c then some rest else none

/-- What follows the word that makes a variable visible, if it is there. -/
def dropExport (text : List Char) : List Char :=
  match dropStart? "export".toList text with
  | some rest => if rest.head?.any isInnerBlank then dropBlanks rest else text
  | none => text

/-- A name with the text after it; no name at all at a comment. -/
def variableName? (text : List Char) : Option (Option (List Char) × List Char) :=
  match text with
  | '#' :: _ => some (none, text)
  | '\'' :: rest =>
    let name := rest.takeWhile (· != '\'')
    if name.isEmpty || (rest.drop name.length).isEmpty then none
    else some (some name, rest.drop (name.length + 1))
  | _ =>
    let name := text.takeWhile fun c => c != '=' && c != '#' && !isSpace c
    if name.isEmpty then none else some (some name, text.drop name.length)

/-- What a character after a backslash stands for within double quotes. -/
def unescaped? : Char → Option Char
  | '\\' => some '\\'
  | '\'' => some '\''
  | '"' => some '"'
  | 'a' => some '\x07'
  | 'b' => some '\x08'
  | 'f' => some '\x0c'
  | 'n' => some '\n'
  | 'r' => some '\r'
  | 't' => some '\t'
  | 'v' => some '\x0b'
  | _ => none

/-- The place of the quote that ends a value, which is the first one without a backslash before it. When
all have one, it is the last of them. -/
def closingQuote? (quote : Char) : List Char → Option Nat
  | [] => none
  | '\\' :: c :: rest =>
    if c == quote then
      match closingQuote? quote rest with
      | some n => some (n + 2)
      | none => some 1
    else (closingQuote? quote (c :: rest)).map (· + 1)
  | c :: rest => if c == quote then some 0 else (closingQuote? quote rest).map (· + 1)

/-- A text without its backslashes; `unescape?` says what may follow one. -/
def unescape (unescape? : Char → Option Char) : List Char → List Char
  | '\\' :: c :: rest => match unescape? c with
    | some x => x :: unescape unescape? rest
    | none => '\\' :: unescape unescape? (c :: rest)
  | c :: rest => c :: unescape unescape? rest
  | [] => []

/-- A value in quotes with the text after it. -/
def quotedValue? (quote : Char) (unescape? : Char → Option Char) (text : List Char) :
    Option (List Char × List Char) :=
  (closingQuote? quote text).map fun n => (unescape unescape? (text.take n), text.drop (n + 1))

/-- A value without quotes: the line up to a comment, which has white space before it. -/
def bareValue (line : List Char) : List Char :=
  let comment : Pattern := .all [.space1, .char '#', .lineRest]
  stripRight (comment.replace (fun _ => []) line)

/-- A value with the text after it. -/
def variableValue? (text : List Char) : Option (List Char × List Char) :=
  match text with
  | '\'' :: rest =>
    quotedValue? '\'' (fun c => if c == '\\' || c == '\'' then some c else none) rest
  | '"' :: rest => quotedValue? '"' unescaped? rest
  | _ =>
    let line := text.takeWhile (!endsLine ·)
    some (bareValue line, text.drop line.length)

/-- A name and a value, with the text after their line. -/
def binding? (text : List Char) : Option (Option (String × Option String) × List Char) := do
  let (name, rest) ← variableName? (dropExport text)
  let rest := dropBlanks rest
  let (value, rest) ← match rest with
    | '=' :: more => (variableValue? (dropBlanks more)).map fun (v, rest) => (some v, rest)
    | _ => some (none, rest)
  let rest ← dropLineEnd? rest
  return (name.map fun n => (String.ofList n, value.map String.ofList), rest)

/-- The variables of a file as they are written, up to `rounds` lines. -/
def bindings : Nat → List Char → Variables
  | 0, _ => []
  | rounds + 1, text =>
    match text.dropWhile isSpace with
    | [] => []
    | start => match binding? start with
      | some (some pair, rest) => pair :: bindings rounds rest
      | some (none, rest) => bindings rounds rest
      | none => bindings rounds (dropLine start)

/-- A reference within a file of variables. -/
def looseReference : Pattern :=
  .all [.text "$\x7b", .group 1 (.star (.noneOf "\x7d:")),
    .optional (.all [.text ":-", .group 2 (.star (.noneOf "\x7d"))]), .char '\x7d']

/-- A value with its references replaced. A variable without a value counts as empty. -/
def resolveValue (known : Variables) (value : String) : String :=
  String.ofList (looseReference.replace (fun m =>
    match lookupPair known (String.ofList (m.group 1)) with
    | some value => (value.getD "").toList
    | none => m.group 2) value.toList)

/-- Replaces references from the first variable on; later variables see the earlier ones, which hide
those of the environment. -/
def resolveBindings (env : Environment) (done : Variables) : Variables → Variables
  | [] => done
  | (name, value) :: rest =>
    let known := done ++ env.map fun (k, v) => (k, some v)
    resolveBindings env (putPair done name (value.map (resolveValue known))) rest

/-- The variables in the text of a file. -/
def readVariables (env : Environment) (text : String) : Variables :=
  resolveBindings env [] (bindings (text.length + 1) text.toList)

end Coach.Config
