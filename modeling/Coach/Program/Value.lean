import Coach.Program.Str
import Coach.Number.Reading

/-!
# Values of simulated programs

The values that a simulated program computes with, how they print, the arithmetic on them, and how a
value is converted for a variable of a declared type.

## Main definitions

* `Value`, `Kind` (the declared types)
* `Fault`: why a statement fails, as unsupported, as past a limit, or by an exception of the program
* `Value.show`: the text a value prints as
* `Value.binary`: the binary operators
* `coerce`: conversion for storage

## Design notes

Integers are unbounded while an expression is evaluated and wrap only when they are stored, which is
where `coerce` is applied.
-/

namespace Coach.Program

/-! ### Types and values -/

/-- The types that a variable can be declared with. -/
inductive Kind where
  | int
  | long
  | short
  | byte
  | double
  | float
  | char
  | boolean
  | string
  | scanner
  deriving DecidableEq, Repr

/-- A value. A character is held as a string, which has one code point whenever the program made
it. -/
inductive Value where
  | null
  | bool (b : Bool)
  | int (n : Int)
  | float (x : Float)
  | char (s : Str)
  | str (s : Str)
  | scanner

namespace Kind

/-- The width in bits of the integer types. -/
def bits? : Kind → Option Nat
  | .int => some 32
  | .long => some 64
  | .short => some 16
  | .byte => some 8
  | _ => none

/-- The type of a name that can stand in a cast or a declaration. -/
def ofName? (name : String) : Option Kind :=
  match name with
  | "int" => some .int
  | "long" => some .long
  | "short" => some .short
  | "byte" => some .byte
  | "double" => some .double
  | "float" => some .float
  | "char" => some .char
  | "boolean" => some .boolean
  | "String" => some .string
  | _ => none

end Kind

/-! ### Faults -/

/-- Why a statement is outside the supported subset. -/
inductive Unsupported where
  | notNumber
  | notBoolean
  | notChar
  | notString
  | unknownKind (name : String)
  | badToken
  | unexpectedToken
  | expected (what : String)
  | badCharLiteral
  | stepInExpression
  | arrayAccess
  | noSuchMember (owner member : String)
  | call (name : String)
  | method (name : String)
  | scannerArguments
  | unknownVariable (name : String)
  | unknownValue (name : String)
  | unknownInput
  | notAssignable (name : String)
  | declarator
  | control
  | arity
  | tooDeep
  deriving DecidableEq, Repr

/-- What a value went past. -/
inductive Limit where
  /-- An integer has too many digits to be read or written in decimal. -/
  | tooManyDigits
  /-- An integer is too large for a double. -/
  | noDouble
  /-- An infinity has no integer part. -/
  | infiniteInteger
  /-- Not a number has no integer part. -/
  | nanInteger
  /-- No character has this code. -/
  | badCode
  /-- A character code is past the machine's integers. -/
  | hugeCode
  /-- A function has no value there. -/
  | outsideDomain
  /-- A character value does not have exactly one character. -/
  | notOneCharacter
  /-- A field is too wide. -/
  | hugeWidth
  /-- Too many places are asked for. -/
  | hugePrecision
  deriving DecidableEq, Repr

/-- An exception that the simulated program throws. -/
inductive Thrown where
  | divisionByZero
  | missingFormatArgument (specifier : Str)
  | numberFormat (text : Str)
  | nullPointer
  | stringIndex (index : Int)
  | stringRange (first last : Int) (length : Nat)
  | noLine
  | noElement
  | inputMismatch
  deriving DecidableEq, Repr

/-- Why a statement fails. -/
inductive Fault where
  | unsupported (why : Unsupported)
  | limit (why : Limit)
  | thrown (why : Thrown)
  deriving DecidableEq, Repr

/-- The wording of an exception. -/
def Thrown.message : Thrown → Str
  | .divisionByZero => .ofString "java.lang.ArithmeticException: / by zero"
  | .missingFormatArgument specifier =>
    .ofString "java.util.MissingFormatArgumentException: Format specifier '" ++ specifier ++
      .ofString "'"
  | .numberFormat text =>
    .ofString "java.lang.NumberFormatException: For input string: \"" ++ text ++ .ofString "\""
  | .nullPointer => .ofString "java.lang.NullPointerException"
  | .stringIndex index =>
    .ofString "java.lang.StringIndexOutOfBoundsException: String index out of range: " ++
      .ofChars (intText index)
  | .stringRange first last length =>
    .ofString "java.lang.StringIndexOutOfBoundsException: begin " ++ .ofChars (intText first) ++
      .ofString ", end " ++ .ofChars (intText last) ++ .ofString ", length " ++
      .ofChars (intText length)
  | .noLine => .ofString "java.util.NoSuchElementException: No line found"
  | .noElement => .ofString "java.util.NoSuchElementException"
  | .inputMismatch => .ofString "java.util.InputMismatchException"

/-- The wording of the reasons that a conversion can give. -/
def Unsupported.message : Unsupported → String
  | .notNumber => "not a number"
  | .notBoolean => "not a boolean"
  | .notChar => "not a char"
  | .notString => "not a String"
  | .unknownKind name => s!"type {name}"
  | .badToken => "cannot tokenize"
  | .unexpectedToken => "unexpected token"
  | .expected what => s!"expected {what}"
  | .badCharLiteral => "bad char literal"
  | .stepInExpression => "increment inside expression"
  | .arrayAccess => "array access"
  | .noSuchMember owner member => s!"{owner}.{member}"
  | .call name => s!"call to {name}"
  | .method name => s!"method {name}"
  | .scannerArguments => "Scanner method with arguments"
  | .unknownVariable name => s!"unknown variable {name}"
  | .unknownValue name => s!"{name} depends on skipped code"
  | .unknownInput => "input position depends on skipped code"
  | .notAssignable name => s!"cannot assign {name}"
  | .declarator => "declarator"
  | .control => "control flow"
  | .arity => "number of arguments"
  | .tooDeep => "too deeply nested"

/-- Fails as unsupported. -/
def unsupported {α : Type} (why : Unsupported) : Except Fault α := .error (.unsupported why)

/-- Fails at a limit. -/
def pastLimit {α : Type} (why : Limit) : Except Fault α := .error (.limit why)

/-- Fails by an exception of the program. -/
def throws {α : Type} (why : Thrown) : Except Fault α := .error (.thrown why)

/-! ### Numbers -/

/-- The double of an integer. -/
def intToFloat (n : Int) : Except Fault Float :=
  match floatOfInt? n with
  | some x => .ok x
  | none => pastLimit .noDouble

/-- The double of a number. -/
def toFloat : Number → Except Fault Float
  | .int n => intToFloat n
  | .float x => .ok x

/-- The integer part of a number, toward zero. -/
def toInt : Number → Except Fault Int
  | .int n => .ok n
  | .float x => ofRange (truncate x)
where
  ofRange : Except RangeError Int → Except Fault Int
    | .ok n => .ok n
    | .error .notANumber => pastLimit .nanInteger
    | .error .infinite => pastLimit .infiniteInteger
    | .error .tooLarge => pastLimit .noDouble

/-- The decimal text of an integer. -/
def decimal (n : Int) : Except Fault Str :=
  match intText? n with
  | some text => .ok (.ofChars text)
  | none => pastLimit .tooManyDigits

/-- The integer in the low `bits` bits, in two's complement. -/
def wrap (bits : Nat) (n : Int) : Int := (n + twoTo (bits - 1)) % twoTo bits - twoTo (bits - 1)

namespace Value

/-- The value of a number. -/
def ofNumber : Number → Value
  | .int n => .int n
  | .float x => .float x

/-- The number that a value counts as; a character counts as its code. -/
def number : Value → Except Fault Number
  | .int n => .ok (.int n)
  | .float x => .ok (.float x)
  | .char [code] => .ok (.int code)
  | .char _ => pastLimit .notOneCharacter
  | _ => unsupported .notNumber

/-- The truth value that a value counts as; a number is true unless it is zero. -/
def truth : Value → Except Fault Bool
  | .bool b => .ok b
  | .int n => .ok (n ≠ 0)
  | .float x => .ok (!(Number.float x).same (.int 0))
  | _ => unsupported .notBoolean

/-- Whether a value is a string. -/
def isStr : Value → Bool
  | .str _ => true
  | _ => false

/-- Whether a value is null. -/
def isNull : Value → Bool
  | .null => true
  | _ => false

/-- Scientific notation with a point and at least one place. -/
def scientific (negative : Bool) (d : Decimal) : List Char :=
  (if negative then ['-'] else []) ++ d.digits.take 1 ++ '.' ::
    (if (d.digits.drop 1).isEmpty then ['0'] else d.digits.drop 1) ++ 'E' :: intText d.exponent

/-- The text of a double: positional from 0.001 to below ten million, scientific otherwise. -/
def showFloat (x : Float) : List Char :=
  match Binary64.ofFloat x with
  | .nan => "NaN".toList
  | .infinite negative => (if negative then ['-'] else []) ++ "Infinity".toList
  | .finite negative mantissa exponent =>
    let d := Decimal.shortest mantissa exponent
    if mantissa == 0 || (-3 ≤ d.exponent && d.exponent < 7) then
      (if negative then ['-'] else []) ++ d.positional
    else scientific negative d

/-- The text that a value prints as. -/
def «show» : Value → Except Fault Str
  | .null => .ok (.ofString "null")
  | .bool b => .ok (.ofString (if b then "true" else "false"))
  | .int n => decimal n
  | .float x => .ok (.ofChars (showFloat x))
  | .char s => .ok s
  | .str s => .ok s
  | .scanner => .ok (.ofString "java.util.Scanner")

/-! ### Operators -/

/-- The quotient toward zero of two integers, or the remainder that goes with it. -/
def divideInts (remainder : Bool) (a b : Int) : Except Fault Int :=
  if b = 0 then throws .divisionByZero
  else .ok (if remainder then a.tmod b else a.tdiv b)

/-- The quotient or the remainder of two doubles. -/
def divideFloats (remainder : Bool) (a b : Float) : Except Fault Float :=
  let isZero (x : Float) : Bool := (Number.float x).same (.int 0)
  if remainder then
    if isZero b then .ok notANumber
    else match remainder? a b with
      | some r => .ok r
      | none => pastLimit .outsideDomain
  else if isZero b then
    if isZero a || a.isNaN then .ok notANumber
    else .ok (if signBit a != signBit b then -infinity else infinity)
  else .ok (a / b)

/-- Division and remainder: of integers toward zero, of doubles otherwise. -/
def divide (remainder : Bool) : Number → Number → Except Fault Number
  | .int a, .int b => (divideInts remainder a b).map .int
  | a, b => do return .float (← divideFloats remainder (← toFloat a) (← toFloat b))

/-- An operation of integers, or of doubles when one of the two is a double. -/
def arithmetic (ints : Int → Int → Int) (floats : Float → Float → Float) :
    Number → Number → Except Fault Number
  | .int a, .int b => .ok (.int (ints a b))
  | a, b => do return .float (floats (← toFloat a) (← toFloat b))

/-- The binary operators that do not short-circuit. -/
inductive Operator where
  | add
  | sub
  | mul
  | div
  | mod
  | less
  | greater
  | atMost
  | atLeast
  | equal
  | unequal
  deriving DecidableEq, Repr

/-- Equality: of strings and null by content, a character counting as its text; of booleans with
booleans; of other values as numbers. -/
def equal (left right : Value) : Except Fault Bool :=
  match left, right with
  | .str a, .str b => .ok (a == b)
  | .str a, .char b => .ok (a == b)
  | .char a, .str b => .ok (a == b)
  | .null, .null => .ok true
  | .str _, _ => .ok false
  | _, .str _ => .ok false
  | .null, _ => .ok false
  | _, .null => .ok false
  | .bool a, .bool b => .ok (a == b)
  | .bool _, _ => .ok false
  | _, .bool _ => .ok false
  | a, b => do
    let a ← a.number
    return a.same (← b.number)

/-- The value of a binary operator. A sum with a string joins texts. -/
def binary (op : Operator) (left right : Value) : Except Fault Value :=
  match op with
  | .equal => (equal left right).map .bool
  | .unequal => (equal left right).map fun b => .bool !b
  | .add =>
    if left.isStr || right.isStr then do
      let a ← left.show
      return .str (a ++ (← right.show))
    else numbers fun a b => (arithmetic (· + ·) (· + ·) a b).map ofNumber
  | .sub => numbers fun a b => (arithmetic (· - ·) (· - ·) a b).map ofNumber
  | .mul => numbers fun a b => (arithmetic (· * ·) (· * ·) a b).map ofNumber
  | .div => numbers fun a b => (divide false a b).map ofNumber
  | .mod => numbers fun a b => (divide true a b).map ofNumber
  | .less => numbers fun a b => .ok (.bool (a.less b))
  | .greater => numbers fun a b => .ok (.bool (b.less a))
  | .atMost => numbers fun a b => .ok (.bool (a.atMost b))
  | .atLeast => numbers fun a b => .ok (.bool (b.atMost a))
where
  numbers (f : Number → Number → Except Fault Value) : Except Fault Value := do
    let a ← left.number
    let b ← right.number
    f a b

/-- The negative of a number. -/
def negate (v : Value) : Except Fault Value := do
  match ← v.number with
  | .int n => return .int (-n)
  | .float x => return .float (-x)

/-- The number itself. -/
def plus (v : Value) : Except Fault Value := do return ofNumber (← v.number)

end Value

/-! ### Conversion for storage -/

/-- The character with a code, for codes in range. -/
def charOfCode (n : Int) : Except Fault Str :=
  if n < -(twoTo 31) || twoTo 31 ≤ n then pastLimit .hugeCode
  else if n < 0 || 0x110000 ≤ n then pastLimit .badCode
  else .ok [n.toNat]

/-- An integer for a variable of `bits` bits: doubles lose their places, infinities go to the ends of
the range, not a number is zero, and what is left wraps. -/
def coerceInt (bits : Nat) (v : Value) : Except Fault Int :=
  match v with
  | .float x => match Binary64.ofFloat x with
    | .nan => .ok 0
    | .infinite negative => .ok (if negative then -(twoTo (bits - 1)) else twoTo (bits - 1) - 1)
    | .finite negative mantissa exponent =>
      .ok (wrap bits (Binary64.truncateDyadic negative mantissa exponent))
  | v => do return wrap bits (← toInt (← v.number))

/-- Converts a value for storage in a variable of a type. -/
def coerce (kind : Kind) (v : Value) : Except Fault Value :=
  match kind with
  | .int => (coerceInt 32 v).map .int
  | .long => (coerceInt 64 v).map .int
  | .short => (coerceInt 16 v).map .int
  | .byte => (coerceInt 8 v).map .int
  | .double => do return .float (← toFloat (← v.number))
  | .float => do return .float (← toFloat (← v.number))
  | .char => match v with
    | .char s => .ok (.char s)
    | .int n => .ok (.char [(n % 0x10000).toNat])
    | _ => unsupported .notChar
  | .boolean => match v with
    | .bool b => .ok (.bool b)
    | .int n => .ok (.bool (n ≠ 0))
    | _ => unsupported .notBoolean
  | .string => match v with
    | .null => .ok .null
    | .str s => .ok (.str s)
    | _ => unsupported .notString
  | .scanner => unsupported (.unknownKind "Scanner")

/-- Converts a value for a type given by its name. -/
def coerceNamed (name : String) (v : Value) : Except Fault Value :=
  match Kind.ofName? name with
  | some kind => coerce kind v
  | none => unsupported (.unknownKind name)

end Coach.Program
