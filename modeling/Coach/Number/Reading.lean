import Coach.Number.Decimal
import Coach.Text.Basic
import Coach.Text.Quoted

/-!
# Numbers read from text

An integer or a double as people type them: white space around, a sign, decimal digits of any script,
and single underscores between two digits.

## Main definitions

* `readInt`: an integer, with a limit on the number of its digits
* `readFloat?`: a double, `inf`, `infinity` and `nan` included, rounded to nearest
* `nearestDecimal`: the double nearest to `digits · 10 ^ exponent`
-/

namespace Coach

open Coach.Text

/-- The double nearest to `n · 10 ^ exponent`, infinite past the range. -/
def nearestDecimal (negative : Bool) (n : Nat) (exponent : Int) : Float :=
  let signed (x : Float) : Float := if negative then -x else x
  if n == 0 then signed 0
  else
    let top := (natDigits n).length + exponent
    if top > 400 then signed infinity
    else if top < -400 then signed 0
    else
      let (num, den) :=
        if 0 ≤ exponent then (n * tenTo exponent.toNat, 1) else (n, tenTo (-exponent).toNat)
      (Binary64.nearest? negative num den).getD (signed infinity)

/-- Why a text is not read as an integer. -/
inductive IntFault where
  | malformed (text : List Char)
  | tooManyDigits (count : Nat)
  deriving DecidableEq, Repr

/-- The wording of the limit on digits. -/
def tooManyDigitsMessage (count : Nat) : String :=
  s!"Exceeds the limit ({digitLimit} digits) for integer string conversion: value has " ++
    s!"{count} digits; use sys.set_int_max_str_digits() to increase the limit"

/-- The wording of a fault. -/
def IntFault.message : IntFault → String
  | .malformed text =>
    "invalid literal for int() with base 10: " ++ String.ofList (quoted text)
  | .tooManyDigits count => tooManyDigitsMessage count

/-- White space that may stand around a number: the four separator controls do not count. -/
def isNumberBlank (c : Char) : Bool := isSpace c && !(28 ≤ c.toNat && c.toNat ≤ 31)

/-- Splits a sign off. -/
def splitSign : List Char → Bool × List Char
  | '-' :: rest => (true, rest)
  | '+' :: rest => (false, rest)
  | text => (false, text)

/-- A run of digits, in which one underscore may stand between two digits, and the rest. The run may
be empty. -/
def digitRun : List Char → List Nat × List Char
  | [] => ([], [])
  | [c] => match digitValue? c with
    | some d => ([d], [])
    | none => ([], [c])
  | c :: next :: rest => match digitValue? c with
    | none => ([], c :: next :: rest)
    | some d =>
      if next = '_' then
        match digitRun rest with
        | ([], _) => ([d], next :: rest)
        | (ds, tail) => (d :: ds, tail)
      else
        let (ds, tail) := digitRun (next :: rest)
        (d :: ds, tail)

/-- The number that digits stand for. -/
def ofDigits (digits : List Nat) : Nat := digits.foldl (fun n d => 10 * n + d) 0

/-- Reads an integer from a whole text. -/
def readInt (text : List Char) : Except IntFault Int :=
  let (negative, body) := splitSign (stripBy isNumberBlank text)
  match digitRun body with
  | ([], _) => .error (.malformed text)
  | (_, _ :: _) => .error (.malformed text)
  | (ds, []) =>
    if digitLimit < ds.length then .error (.tooManyDigits ds.length)
    else .ok (if negative then -(ofDigits ds : Int) else ofDigits ds)

/-- Reads an exponent mark with its digits, or nothing. -/
def readExponent? : List Char → Option Int
  | [] => some 0
  | c :: rest =>
    if c = 'e' || c = 'E' then
      let (negative, body) := splitSign rest
      match digitRun body with
      | ([], _) => none
      | (_, _ :: _) => none
      | (ds, []) =>
        -- past any double's range the exact exponent no longer matters
        let n : Int := if (ds.dropWhile (· == 0)).length > 9 then tenTo 9 else (ofDigits ds : Nat)
        some (if negative then -n else n)
    else none

/-- Reads a double from a whole text. -/
def readFloat? (text : List Char) : Option Float :=
  let (negative, body) := splitSign (stripBy isNumberBlank text)
  let lowered := body.map Char.toLower
  if lowered = "inf".toList || lowered = "infinity".toList then
    some (if negative then -infinity else infinity)
  else if lowered = "nan".toList then some notANumber
  else
    let (whole, rest) := digitRun body
    let (places, rest) : List Nat × List Char := match rest with
      | '.' :: tail => digitRun tail
      | _ => ([], rest)
    if whole.isEmpty && places.isEmpty then none
    else (readExponent? rest).map fun e =>
      nearestDecimal negative (ofDigits (whole ++ places)) (e - places.length)

end Coach
