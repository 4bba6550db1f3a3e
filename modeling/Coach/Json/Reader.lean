import Coach.Json.Basic
import Coach.Number.Reading

/-!
# Reading JSON

A reader for JSON texts that says where and why it stops. Beyond the standard it takes `NaN`,
`Infinity` and `-Infinity` as numbers; a number past the range of doubles is infinite; of two members
of one name the later value counts, at the place of the earlier. An integer may have at most
`digitLimit` digits, and arrays and objects may be nested at most `nestingLimit` deep.

## Main definitions

* `Json.ReadFault`: a cause with the rest of the text at the point of failure
* `Json.Fault.message`: the wording, with line, column and offset
* `Json.read`: reads a whole text

## Design notes

A failure carries the text that was left, so the offset is a difference of lengths and no position is
counted along. The fuel is twice the length of the text: every call either consumes a character or
goes to a level below.
-/

namespace Coach.Json

open Coach.Text

/-- Why a text is not JSON. -/
inductive Cause where
  | expectedValue
  | expectedName
  | expectedColon
  | expectedComma
  | unterminatedString
  | controlCharacter
  | badEscape
  | badCodeEscape
  | extraData
  | byteOrderMark
  deriving DecidableEq, Repr

/-- The wording of a cause. -/
def Cause.text : Cause → String
  | .expectedValue => "Expecting value"
  | .expectedName => "Expecting property name enclosed in double quotes"
  | .expectedColon => "Expecting ':' delimiter"
  | .expectedComma => "Expecting ',' delimiter"
  | .unterminatedString => "Unterminated string starting at"
  | .controlCharacter => "Invalid control character at"
  | .badEscape => "Invalid \\escape"
  | .badCodeEscape => "Invalid \\uXXXX escape"
  | .extraData => "Extra data"
  | .byteOrderMark => "Unexpected UTF-8 BOM (decode using utf-8-sig)"

/-- How deep arrays and objects may be nested. -/
def nestingLimit : Nat := 990

/-- Where reading stopped: the cause with the length of the text from there on, an integer with too
many digits, or a value nested too deep. -/
inductive ReadFault where
  | syntaxError (cause : Cause) (left : Nat)
  | tooManyDigits (count : Nat)
  | tooDeep
  deriving DecidableEq, Repr

/-- Why a text was not read. -/
inductive Fault where
  | syntaxError (cause : Cause) (line column offset : Nat)
  | tooManyDigits (count : Nat)
  | tooDeep
  deriving DecidableEq, Repr

/-- The wording of a fault. -/
def Fault.message : Fault → String
  | .syntaxError cause line column offset =>
    s!"{cause.text}: line {line} column {column} (char {offset})"
  | .tooManyDigits count => tooManyDigitsMessage count
  | .tooDeep => s!"nested deeper than {nestingLimit} levels"

/-- A cause at the point where the rest of the text begins. -/
def stop {α : Type} (cause : Cause) (rest : List Char) : Except ReadFault α :=
  .error (.syntaxError cause rest.length)

/-- White space between tokens. -/
def isBlank (c : Char) : Bool := c == ' ' || c == '\t' || c == '\n' || c == '\r'

/-- Skips white space. -/
def skipBlanks (text : List Char) : List Char := text.dropWhile isBlank

/-- The value of four hexadecimal digits and the rest. -/
def hex4? : List Char → Option (Nat × List Char)
  | a :: b :: c :: d :: rest =>
    if isHexDigit a && isHexDigit b && isHexDigit c && isHexDigit d then
      some (((hexValue a * 16 + hexValue b) * 16 + hexValue c) * 16 + hexValue d, rest)
    else none
  | _ => none

/-- The character of a single-letter escape. -/
def shortEscape? : Char → Option Char
  | '"' => some '"'
  | '\\' => some '\\'
  | '/' => some '/'
  | 'b' => some '\x08'
  | 'f' => some '\x0c'
  | 'n' => some '\n'
  | 'r' => some '\r'
  | 't' => some '\t'
  | _ => none

/-- The low half of a surrogate pair, when an escape for one comes next. -/
def lowSurrogate? : List Char → Option (Nat × List Char)
  | '\\' :: 'u' :: rest => match hex4? rest with
    | some (n, tail) => if 0xDC00 ≤ n && n ≤ 0xDFFF then some (n, tail) else none
    | none => none
  | _ => none

/-- Reads the inside of a string up to its closing quote. `start` is the length of the text from the
opening quote on; `done` holds the characters so far, the last first. -/
def readString (start : Nat) : Nat → List Char → List Char → Except ReadFault (String × List Char)
  | 0, _, _ => .error (.syntaxError .unterminatedString start)
  | _ + 1, _, [] => .error (.syntaxError .unterminatedString start)
  | fuel + 1, done, c :: rest =>
    if c = '"' then .ok (String.ofList done.reverse, rest)
    else if c.toNat ≤ 0x1F then stop .controlCharacter (c :: rest)
    else if c ≠ '\\' then readString start fuel (c :: done) rest
    else match rest with
      | [] => .error (.syntaxError .unterminatedString start)
      | e :: tail =>
        if e = 'u' then
          -- a closing quote has to follow the four digits
          if (tail.drop 4).isEmpty then stop .badCodeEscape rest
          else match hex4? tail with
            | none => stop .badCodeEscape rest
            | some (n, after) =>
              if 0xD800 ≤ n && n ≤ 0xDBFF then
                match lowSurrogate? after with
                | some (low, after) =>
                  let code := 0x10000 + (n - 0xD800) * 0x400 + (low - 0xDC00)
                  readString start fuel (Char.ofNat code :: done) after
                | none => readString start fuel (Char.ofNat 0xFFFD :: done) after
              else if 0xDC00 ≤ n && n ≤ 0xDFFF then
                readString start fuel (Char.ofNat 0xFFFD :: done) after
              else readString start fuel (Char.ofNat n :: done) after
        else match shortEscape? e with
          | some x => readString start fuel (x :: done) tail
          | none => stop .badEscape (c :: rest)

/-- The digits of an exponent with its mark and sign, when there are any. -/
def exponentPart : List Char → List Char × List Char
  | [] => ([], [])
  | mark :: rest =>
    if mark = 'e' || mark = 'E' then
      let (sign, body) := match rest with
        | '+' :: body => (['+'], body)
        | '-' :: body => (['-'], body)
        | body => ([], body)
      let digits := body.takeWhile Char.isDigit
      if digits.isEmpty then ([], mark :: rest)
      else (mark :: sign ++ digits, body.dropWhile Char.isDigit)
    else ([], mark :: rest)

/-- The places after a point, the point included, when there are any. -/
def fractionPart : List Char → List Char × List Char
  | '.' :: rest =>
    let digits := rest.takeWhile Char.isDigit
    if digits.isEmpty then ([], '.' :: rest) else ('.' :: digits, rest.dropWhile Char.isDigit)
  | text => ([], text)

/-- Reads a number, which begins at `text`. -/
def readNumber (text : List Char) : Except ReadFault (Json × List Char) :=
  let (sign, body) := match text with
    | '-' :: body => (['-'], body)
    | body => ([], body)
  match body with
  | [] => stop .expectedValue text
  | first :: rest =>
    if !first.isDigit then stop .expectedValue text
    else
      let (whole, rest) :=
        if first = '0' then (['0'], rest)
        else (first :: rest.takeWhile Char.isDigit, rest.dropWhile Char.isDigit)
      let (places, rest) := fractionPart rest
      let (power, rest) := exponentPart rest
      if places.isEmpty && power.isEmpty then
        if digitLimit < whole.length then .error (.tooManyDigits whole.length)
        else
          let n : Int := ofNatDigits whole
          .ok (.int (if sign.isEmpty then n else -n), rest)
      else .ok (.float ((readFloat? (sign ++ whole ++ places ++ power)).getD 0), rest)

/-- Reads a name or a number. -/
def readScalar (text : List Char) : Except ReadFault (Json × List Char) :=
  match dropStart? "null".toList text with
  | some rest => .ok (.null, rest)
  | none => match dropStart? "true".toList text with
    | some rest => .ok (.bool true, rest)
    | none => match dropStart? "false".toList text with
      | some rest => .ok (.bool false, rest)
      | none => match dropStart? "NaN".toList text with
        | some rest => .ok (.float notANumber, rest)
        | none => match dropStart? "Infinity".toList text with
          | some rest => .ok (.float infinity, rest)
          | none => match dropStart? "-Infinity".toList text with
            | some rest => .ok (.float (-infinity), rest)
            | none => readNumber text

mutual

/-- Reads a value, which begins at the text. `depth` more levels may be nested in it. -/
def readValue : Nat → Nat → List Char → Except ReadFault (Json × List Char)
  | 0, _, text => stop .expectedValue text
  | _ + 1, _, [] => stop .expectedValue []
  | fuel + 1, depth, c :: rest =>
    if c = '"' then do
      let (s, rest) ← readString (rest.length + 1) (rest.length + 1) [] rest
      return (.string s, rest)
    else if c = '[' || c = '\x7b' then
      match depth with
      | 0 => .error .tooDeep
      | depth + 1 =>
        if c = '[' then match skipBlanks rest with
          | ']' :: rest => .ok (.array [], rest)
          | rest => readItems fuel depth [] rest
        else match skipBlanks rest with
          | '\x7d' :: rest => .ok (.object [], rest)
          | rest => readMembers fuel depth [] rest
    else readScalar (c :: rest)

/-- Reads the items of an array from the next one on; those before it are in `done`, the last
first. -/
def readItems : Nat → Nat → List Json → List Char → Except ReadFault (Json × List Char)
  | 0, _, _, text => stop .expectedValue text
  | fuel + 1, depth, done, text => do
    let (item, rest) ← readValue fuel depth text
    match skipBlanks rest with
    | ']' :: rest => return (.array (item :: done).reverse, rest)
    | ',' :: rest => readItems fuel depth (item :: done) (skipBlanks rest)
    | rest => stop .expectedComma rest

/-- Reads the members of an object from the next one on. -/
def readMembers :
    Nat → Nat → List (String × Json) → List Char → Except ReadFault (Json × List Char)
  | 0, _, _, text => stop .expectedName text
  | fuel + 1, depth, done, text =>
    match text with
    | '"' :: rest => do
      let (name, rest) ← readString (rest.length + 1) (rest.length + 1) [] rest
      match skipBlanks rest with
      | ':' :: rest =>
        let (value, rest) ← readValue fuel depth (skipBlanks rest)
        let members := putPair done name value
        match skipBlanks rest with
        | '\x7d' :: rest => return (.object members, rest)
        | ',' :: rest => readMembers fuel depth members (skipBlanks rest)
        | rest => stop .expectedComma rest
      | rest => stop .expectedColon rest
    | _ => stop .expectedName text

end

/-- The place of a fault in the text. -/
def ReadFault.locate (text : List Char) : ReadFault → Fault
  | .tooManyDigits count => .tooManyDigits count
  | .tooDeep => .tooDeep
  | .syntaxError cause left =>
    let before := text.take (text.length - left)
    .syntaxError cause (before.count '\n' + 1)
      ((before.reverse.takeWhile (· != '\n')).length + 1) before.length

/-- Reads a value and what follows it, without a look at what that is. -/
def readStart (text : List Char) : Except ReadFault (Json × List Char) :=
  match text with
  | '\ufeff' :: _ => stop .byteOrderMark text
  | _ => readValue (2 * text.length + 2) nestingLimit (skipBlanks text)

/-- Reads a whole text. -/
def read (text : List Char) : Except Fault Json :=
  match readStart text with
  | .error fault => .error (fault.locate text)
  | .ok (value, rest) => match skipBlanks rest with
    | [] => .ok value
    | rest => .error (ReadFault.locate text (.syntaxError .extraData rest.length))

end Coach.Json
