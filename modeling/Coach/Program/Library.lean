import Coach.Program.Format
import Coach.Program.Machine

/-!
# Library calls of simulated programs

The static functions and the methods that a simulated program may call, and the reads of a scanner.

## Main definitions

* `callStatic`: functions of `Math`, `Integer`, `Long`, `Double` and `String`
* `staticField?`: the constants
* `callString`: methods of strings
* `callScanner`: reads of the input
* `callMethod`: a method call on any value
-/

namespace Coach.Program

open Coach.Text

/-! ### Static members -/

/-- The classes whose static members are known. -/
def staticClasses : List String := ["Math", "Integer", "Long", "Double", "String", "Character"]

/-- The constants. -/
def staticField? (owner name : String) : Option Value :=
  match owner, name with
  | "Integer", "MAX_VALUE" => some (.int (twoTo 31 - 1))
  | "Integer", "MIN_VALUE" => some (.int (-(twoTo 31)))
  | "Long", "MAX_VALUE" => some (.int (twoTo 63 - 1))
  | "Long", "MIN_VALUE" => some (.int (-(twoTo 63)))
  | "Math", "PI" => some (.float (Float.ofBits 0x400921FB54442D18))
  | "Math", "E" => some (.float (Float.ofBits 0x4005BF0A8B145769))
  | _, _ => none

/-- A power of doubles. A result past the range is positive infinity; a power that is not defined,
those of zero to a negative exponent included, is not a number. -/
def power (x y : Float) : Float :=
  let r := Float.pow x y
  if x.isFinite && y.isFinite && !r.isFinite then
    if r.isNaN || (Number.float x).same (.int 0) then notANumber else infinity
  else r

/-- The greater or the lesser of two numbers, the first when neither is, as a double if one of them
is. -/
def extremum (greater : Bool) (a b : Number) : Except Fault Number :=
  let pick := if (if greater then a.less b else b.less a) then b else a
  if a.isFloat || b.isFloat then (toFloat pick).map .float else .ok pick

/-- A whole number as a double. -/
def wholeFloat (round : Float → Except RangeError Int) (x : Number) : Except Fault Value :=
  match x with
  | .int n => (intToFloat n).map .float
  | .float x => do return .float (← intToFloat (← toInt.ofRange (round x)))

/-- The functions of `Math` on numbers. -/
def callMath (name : String) (nums : List Number) : Except Fault Value :=
  match name, nums with
  | "abs", [.int n] => .ok (.int n.natAbs)
  | "abs", [.float x] => .ok (.float x.abs)
  | "max", [a, b] => (extremum true a b).map .ofNumber
  | "min", [a, b] => (extremum false a b).map .ofNumber
  | "pow", [a, b] => match a.toFloat?, b.toFloat? with
    | some x, some y => .ok (.float (power x y))
    | _, _ => .ok (.float infinity)
  | "sqrt", [a] =>
    if (Number.int 0).atMost a then do return .float (← toFloat a).sqrt
    else .ok (.float notANumber)
  | "floor", [a] => wholeFloat floor a
  | "ceil", [a] => wholeFloat ceiling a
  | "round", [a] => do
    let x ← toFloat a
    return .int (← toInt.ofRange (floor (x + 0.5)))
  | _, _ => unsupported (.noSuchMember "Math" name)

/-- A text as an integer: a sign and decimal digits. -/
def integerText? (text : List Char) : Option (Except Fault Int) :=
  let (_, digits) := splitSign text
  if digits.isEmpty || !digits.all isDecimal then none
  else some (match readInt text with
    | .ok n => .ok n
    | .error _ => pastLimit .tooManyDigits)

/-- What the message about a text that is not a double shows of a value. -/
def rawText : Value → Except Fault Str
  | .null => .ok (.ofString "None")
  | .bool b => .ok (.ofString (if b then "True" else "False"))
  | v => v.show

/-- The characters of a string, its halves of surrogate pairs as characters that are no digits. -/
def plainChars (s : Str) : List Char := s.map Char.ofNat

/-- Calls a static function. -/
def callStatic (owner name : String) (args : List Value) : Except Fault Value := do
  if owner = "Math" then
    let nums ← args.mapM Value.number
    callMath name nums
  else match owner, name, args with
  | "Integer", "parseInt", [v] => parseInteger v
  | "Long", "parseLong", [v] => parseInteger v
  | "Double", "parseDouble", [v] =>
    let text ← v.show
    match readFloat? (plainChars text) with
    | some x => return .float x
    | none => throws (.numberFormat (← rawText v))
  | "String", "valueOf", [v] => return .str (← v.show)
  | "Integer", "toString", [v] => return .str (← v.show)
  | "Long", "toString", [v] => return .str (← v.show)
  | "Double", "toString", [v] => return .str (← v.show)
  | "String", "format", v :: rest => return .str (← format (← v.show) rest)
  | _, _, _ => unsupported (.noSuchMember owner name)
where
  parseInteger (v : Value) : Except Fault Value := do
    let text ← v.show
    match integerText? (plainChars text) with
    | some n => return .int (← n)
    | none => throws (.numberFormat text)

/-! ### Methods of strings -/

/-- The integer that an index argument counts as. -/
def indexOf (v : Value) : Except Fault Int := do toInt (← v.number)

/-- Calls a method of a string. -/
def callString (s : Str) (name : String) (args : List Value) : Except Fault Value :=
  match name, args with
  | "length", [] => .ok (.int s.length)
  | "charAt", [v] => do
    let index ← indexOf v
    match (if 0 ≤ index then s[index.toNat]? else none) with
    | some code => return .char [code]
    | none =>
      let _ ← decimal index
      throws (.stringIndex index)
  | "toUpperCase", [] => .ok (.str s.upper)
  | "toLowerCase", [] => .ok (.str s.lower)
  | "trim", [] => .ok (.str s.trim)
  | "isEmpty", [] => .ok (.bool s.isEmpty)
  | "equals", [v] => .ok (.bool (match v with | .str t => s == t | _ => false))
  | "equalsIgnoreCase", [v] =>
    .ok (.bool (match v with | .str t => Str.lower s == Str.lower t | _ => false))
  | "contains", [v] => do
    let part ← v.show
    return .bool (Str.indexOf? part s).isSome
  | "startsWith", [v] => do
    let part ← v.show
    return .bool (part.isPrefixOf s)
  | "endsWith", [v] => do
    let part ← v.show
    return .bool (part.isSuffixOf s)
  | "indexOf", [v] => do
    let part ← v.show
    return .int (match Str.indexOf? part s with | some n => n | none => -1)
  | "concat", [v] => do
    let part ← v.show
    return .str (s ++ part)
  | "substring", [v] => do slice s (← indexOf v) s.length
  | "substring", [v, w] => do
    let first ← indexOf v
    slice s first (← indexOf w)
  | _, _ => unsupported (.noSuchMember "String" name)
where
  slice (s : Str) (first last : Int) : Except Fault Value :=
    if 0 ≤ first && first ≤ last && last ≤ s.length then
      .ok (.str ((s.take last.toNat).drop first.toNat))
    else do
      let _ ← decimal first
      let _ ← decimal last
      throws (.stringRange first last s.length)

/-! ### Reads of a scanner -/

/-- A token as the type that the name of a read asks for. -/
def readToken (name : String) (token : List Char) : Except Fault Value :=
  if name = "next" then .ok (.str (.ofChars token))
  else if name = "nextInt" || name = "nextLong" || name = "nextShort" || name = "nextByte" then
    match integerText? token with
    | some n => n.map .int
    | none => throws .inputMismatch
  else if name = "nextDouble" || name = "nextFloat" then
    match readFloat? token with
    | some x => .ok (.float x)
    | none => throws .inputMismatch
  else if name = "nextBoolean" then
    let word := Text.lower token
    if word = "true".toList then .ok (.bool true)
    else if word = "false".toList then .ok (.bool false)
    else throws .inputMismatch
  else unsupported (.noSuchMember "Scanner" name)

/-- Calls a method of a scanner. -/
def callScanner (m : Machine) (input : Input) (name : String) (args : List Value) :
    Except Fault (Value × Input) :=
  if !args.isEmpty then unsupported .scannerArguments
  else if m.inputUnknown && name ≠ "close" then unsupported .unknownInput
  else if name = "close" then .ok (.null, input)
  else if name = "nextLine" then
    match input.line? with
    | (some line, input) => .ok (.str (.ofChars line), input)
    | (none, _) => throws .noLine
  else match input.token? with
    | (none, _) => throws .noElement
    | (some token, input) => (readToken name token).map (·, input)

/-- Calls a method of a value. -/
def callMethod (m : Machine) (input : Input) (target : Value) (name : String) (args : List Value) :
    Except Fault (Value × Input) :=
  match target with
  | .scanner => callScanner m input name args
  | .null => throws .nullPointer
  | .str s => (callString s name args).map (·, input)
  | _ => unsupported (.method name)

end Coach.Program
