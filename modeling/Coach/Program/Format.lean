import Coach.Program.Value
import Coach.Number.Layout

/-!
# Format strings

Format strings of `printf` and `String.format`: texts with conversions, each of which takes the next
argument and lays it out in a field.

## Main definitions

* `Conversion`: flags, width, places and the letter of a conversion
* `Segment`, `segments`: a format string cut into characters and conversions
* `Conversion.apply`: the field of one argument
* `format`: a format string with its arguments

## Design notes

A format string is cut once, and formatting is recursion on the segments; a `%` that begins no
conversion stays a character. A length modifier is accepted and has no effect.
-/

namespace Coach.Program

open Coach.Text

/-- The letter of a conversion. -/
inductive ConversionKind where
  | percent
  | newline
  | decimal
  | radix (base : Nat) (capital : Bool)
  | float (style : Notation) (capital : Bool)
  | text (capital : Bool)
  | boolean (capital : Bool)
  | character
  deriving DecidableEq, Repr

/-- A conversion: its flags as written, the digits of width and places, its kind, and its own text. -/
structure Conversion where
  flags : Str
  width : List Nat
  places : Option (List Nat)
  kind : ConversionKind
  source : Str
  deriving DecidableEq, Repr

/-- A piece of a format string. -/
inductive Segment where
  | literal (code : Nat)
  | conversion (c : Conversion)
  deriving DecidableEq, Repr

/-! ### Cutting a format string -/

/-- The value of a decimal digit. -/
def codeDigit? (code : Nat) : Option Nat := digitValue? (Char.ofNat code)

/-- Whether a code point is a decimal digit. -/
def isCodeDigit (code : Nat) : Bool := (codeDigit? code).isSome

/-- Whether a code point is a flag. -/
def isFlag (code : Nat) : Bool := "-#+ 0,(".toList.contains (Char.ofNat code)

/-- The kind that a letter stands for. -/
def conversionKind? (code : Nat) : Option ConversionKind :=
  match Char.ofNat code with
  | '%' => some .percent
  | 'n' => some .newline
  | 'd' => some .decimal
  | 'i' => some .decimal
  | 'u' => some .decimal
  | 'o' => some (.radix 8 false)
  | 'x' => some (.radix 16 false)
  | 'X' => some (.radix 16 true)
  | 'f' => some (.float .fixed false)
  | 'F' => some (.float .fixed true)
  | 'e' => some (.float .scientific false)
  | 'E' => some (.float .scientific true)
  | 'g' => some (.float .general false)
  | 'G' => some (.float .general true)
  | 'c' => some .character
  | 's' => some (.text false)
  | 'S' => some (.text true)
  | 'b' => some (.boolean false)
  | 'B' => some (.boolean true)
  | _ => none

/-- The digits behind a point, when there are any, and the rest. -/
def takePlaces (text : Str) : Option (List Nat) × Str :=
  match text with
  | 46 :: rest =>
    if (rest.takeWhile isCodeDigit).isEmpty then (none, text)
    else (some ((rest.takeWhile isCodeDigit).filterMap codeDigit?), rest.dropWhile isCodeDigit)
  | _ => (none, text)

/-- Skips a length modifier: `hh`, `h`, `ll`, `l` or `L`. -/
def dropLengthModifier : Str → Str
  | 104 :: 104 :: rest => rest
  | 104 :: rest => rest
  | 108 :: 108 :: rest => rest
  | 108 :: rest => rest
  | 76 :: rest => rest
  | text => text

/-- The conversion behind a percent sign, and the rest. -/
def takeConversion? (text : Str) : Option (Conversion × Str) :=
  let afterFlags := text.dropWhile isFlag
  let afterWidth := afterFlags.dropWhile isCodeDigit
  match dropLengthModifier (takePlaces afterWidth).2 with
  | [] => none
  | letter :: rest =>
    match conversionKind? letter with
    | none => none
    | some kind =>
      some ({ flags := text.takeWhile isFlag
              width := (afterFlags.takeWhile isCodeDigit).filterMap codeDigit?
              places := (takePlaces afterWidth).1
              kind
              source := 37 :: text.take (text.length - rest.length) }, rest)

theorem length_dropWhile_le {α : Type} (p : α → Bool) (l : List α) :
    (l.dropWhile p).length ≤ l.length := (List.dropWhile_suffix p).length_le

theorem length_takePlaces_le (text : Str) : (takePlaces text).2.length ≤ text.length := by
  unfold takePlaces
  split
  · split
    · simp
    · next rest _ =>
      have := length_dropWhile_le isCodeDigit rest
      simp only [List.length_cons]
      omega
  · simp

theorem length_dropLengthModifier_le (text : Str) :
    (dropLengthModifier text).length ≤ text.length := by
  unfold dropLengthModifier
  split <;> simp <;> omega

theorem length_of_takeConversion? {text rest : Str} {c : Conversion}
    (h : takeConversion? text = some (c, rest)) : rest.length < text.length := by
  unfold takeConversion? at h
  have h₁ := length_dropWhile_le isFlag text
  have h₂ := length_dropWhile_le isCodeDigit (text.dropWhile isFlag)
  have h₃ := length_takePlaces_le ((text.dropWhile isFlag).dropWhile isCodeDigit)
  have h₄ := length_dropLengthModifier_le
    (takePlaces ((text.dropWhile isFlag).dropWhile isCodeDigit)).2
  simp only at h
  split at h
  · simp at h
  · next letter tail heq =>
    split at h
    · simp at h
    · simp only [Option.some.injEq, Prod.mk.injEq] at h
      rw [heq] at h₄
      simp only [List.length_cons] at h₄
      rw [← h.2]
      omega

/-- A format string cut into characters and conversions. -/
def segments (text : Str) : List Segment :=
  match text with
  | [] => []
  | code :: rest =>
    if code = 37 then
      match _h : takeConversion? rest with
      | some (c, after) => .conversion c :: segments after
      | none => .literal code :: segments rest
    else .literal code :: segments rest
termination_by text.length
decreasing_by
  · have := length_of_takeConversion? _h; simp only [List.length_cons]; omega
  · simp
  · simp

/-! ### Laying out arguments -/

namespace Conversion

/-- Whether a flag is given. -/
def hasFlag (c : Conversion) (flag : Char) : Bool := c.flags.contains flag.toNat

/-- The width of the field. -/
def fieldWidth (c : Conversion) : Except Fault Nat :=
  if ofDigits c.width < twoTo 63 then .ok (ofDigits c.width) else pastLimit .hugeWidth

/-- The number of places, six when none is given. -/
def placeCount (c : Conversion) : Except Fault Nat :=
  match c.places with
  | none => .ok 6
  | some digits => if ofDigits digits < twoTo 31 then .ok (ofDigits digits) else pastLimit .hugePrecision

/-- The field of a number. Commas are for decimal and fixed notation. -/
def layout (c : Conversion) (mayGroup : Bool) : Except Fault Layout := do
  return { leftAligned := c.hasFlag '-'
           sign := if c.hasFlag '+' then .plus else if c.hasFlag ' ' then .blank else .nothing
           zeroPadded := c.hasFlag '0' && !c.hasFlag '-'
           width := ← c.fieldWidth
           grouped := mayGroup && c.hasFlag ',' }

/-- A text cut to the number of places, in its field. -/
def textField (c : Conversion) (capital : Bool) (text : Str) : Except Fault Str := do
  let text ← match c.places with
    | none => pure text
    | some digits =>
      if digitLimit < digits.length then pastLimit .tooManyDigits
      else pure (text.take (ofDigits digits))
  let text := if capital then text.upper else text
  let width ← c.fieldWidth
  let blanks := List.replicate (width - text.length) 32
  return if c.hasFlag '-' then text ++ blanks else blanks ++ text

/-- What a value counts as where a truth value is printed. -/
def isTruthy : Value → Bool
  | .null => false
  | .bool b => b
  | .int n => n ≠ 0
  | .float x => !(Number.float x).same (.int 0)
  | .char s => !s.isEmpty
  | .str s => !s.isEmpty
  | .scanner => true

/-- The integer that a value counts as. -/
def integerOf (v : Value) : Except Fault Int := do toInt (← v.number)

/-- The field of one argument. The two kinds without an argument are not asked for here. -/
def apply (c : Conversion) (v : Value) : Except Fault Str :=
  match c.kind with
  | .percent => .ok [37]
  | .newline => .ok [10]
  | .decimal => do
    let n ← integerOf v
    let l ← c.layout true
    let _ ← decimal n
    return .ofChars (l.integer n)
  | .radix base capital => do
    let n ← integerOf v
    return .ofChars ((← c.layout false).radix base capital n)
  | .float style capital => do
    let x ← toFloat (← v.number)
    let l ← c.layout (style == .fixed)
    return .ofChars (l.double style capital (← c.placeCount) x)
  | .text capital => do c.textField capital (← v.show)
  | .boolean capital =>
    c.textField capital (.ofString (if isTruthy v then "true" else "false"))
  | .character => do
    let text ← match v with
      | .char s => pure s
      | .str s => pure s
      | v => do charOfCode (← integerOf v)
    c.textField false text

end Conversion

/-- The segments with their arguments: each value conversion takes the next one, and surplus
arguments are ignored. -/
def formatSegments : List Segment → List Value → Except Fault Str
  | [], _ => .ok []
  | .literal code :: rest, args => do return code :: (← formatSegments rest args)
  | .conversion c :: rest, args =>
    match c.kind with
    | .percent => do return 37 :: (← formatSegments rest args)
    | .newline => do return 10 :: (← formatSegments rest args)
    | _ => match args with
      | [] => throws (.missingFormatArgument c.source)
      | v :: args => do
        let field ← c.apply v
        return field ++ (← formatSegments rest args)

/-- A format string with its arguments. -/
def format (text : Str) (args : List Value) : Except Fault Str := formatSegments (segments text) args

end Coach.Program
