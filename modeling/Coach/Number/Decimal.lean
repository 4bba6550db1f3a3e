import Coach.Number.Binary64

/-!
# Decimal digits of doubles

Which decimal digits stand for a double: the fewest that read back as the same double, or a given
number of them, correctly rounded. All of it is exact arithmetic on naturals.

## Main definitions

* `Decimal`: digits `d₁d₂…` and the exponent of the first, for `d₁.d₂… · 10 ^ exponent`
* `shortest`: the fewest digits whose decimal is nearest to the given double among all doubles
* `roundedTo`: a given number of significant digits, a tie to the even last digit
* `placed`: a given number of places after the point, a tie to the even last digit
-/

namespace Coach

/-- The decimal digits of a natural number. -/
def natDigits (n : Nat) : List Char := Nat.toDigits 10 n

/-- The natural number that digits stand for; other characters count by their distance from `0`. -/
def ofNatDigits (digits : List Char) : Nat :=
  digits.foldl (fun n c => 10 * n + (c.toNat - 0x30)) 0

/-- Significant digits and the power of ten of the first. -/
structure Decimal where
  digits : List Char
  exponent : Int
  deriving DecidableEq, Repr

namespace Decimal

/-- The greatest `p` with `10 ^ p ≤ num / den`, for positive numbers. -/
def log10Quotient (num den : Nat) : Int :=
  if den ≤ num then (natDigits (num / den)).length - 1
  else
    let places := (natDigits (den / num)).length
    if den ≤ num * tenTo (places - 1) then -((places - 1 : Nat) : Int) else -(places : Int)

/-- `num / den` in units of `10 ^ p`, as a quotient. -/
def inUnits (num den : Nat) (p : Int) : Nat × Nat :=
  if 0 ≤ p then (num, den * tenTo p.toNat) else (num * tenTo (-p).toNat, den)

/-- A finite positive value as a quotient. -/
def quotient (mantissa : Nat) (exponent : Int) : Nat × Nat :=
  if 0 ≤ exponent then (mantissa * twoTo exponent.toNat, 1) else (mantissa, twoTo (-exponent).toNat)

/-- Drops trailing zeros but keeps the first digit. -/
def trim (d : Decimal) : Decimal :=
  match d.digits with
  | [] => d
  | first :: rest => { d with digits := first :: (rest.reverse.dropWhile (· == '0')).reverse }

/-- Whether the integer `n`, in units of `10 ^ p`, lies in the interval of reals that round to
`mantissa · 2 ^ exponent`. The interval reaches half way to the neighbours, and contains its ends when
the mantissa is even. -/
def readsBack (mantissa : Nat) (exponent : Int) (n : Nat) (p : Int) : Bool :=
  -- everything times four, so that a quarter of the unit in the last place is whole
  let below := if mantissa == twoTo 52 && exponent > -1074 then 4 * mantissa - 1 else 4 * mantissa - 2
  let above := 4 * mantissa + 2
  let (ln, ld) := quotient below exponent
  let (un, ud) := quotient above exponent
  let (vn, vd) := if 0 ≤ p then (4 * n * tenTo p.toNat, 1) else (4 * n, tenTo (-p).toNat)
  if mantissa % 2 == 0 then ln * vd ≤ vn * ld && vn * ud ≤ un * vd
  else ln * vd < vn * ld && vn * ud < un * vd

/-- Tries grids of `17 - rounds + 1` to 17 digits for a neighbour of the value that reads back. -/
def shortestFrom (mantissa : Nat) (exponent : Int) (top : Int) : Nat → Nat → Decimal
  | rounds, count =>
    let (num, den) := quotient mantissa exponent
    let p := top + 1 - count
    let (n, d) := inUnits num den p
    let low := n / d
    let lowFits := readsBack mantissa exponent low p
    let highFits := readsBack mantissa exponent (low + 1) p
    let pick : Option Nat :=
      if lowFits && highFits then
        some (if 2 * (n % d) < d || (2 * (n % d) == d && low % 2 == 0) then low else low + 1)
      else if lowFits then some low
      else if highFits then some (low + 1)
      else none
    match pick with
    | some k =>
      let digits := natDigits k
      { digits, exponent := p + digits.length - 1 }
    | none =>
      match rounds with
      | 0 => { digits := natDigits low, exponent := top }
      | rounds + 1 => shortestFrom mantissa exponent top rounds (count + 1)

/-- The fewest digits that read back as the positive value `mantissa · 2 ^ exponent`, and of those the
nearest to it. -/
def shortest (mantissa : Nat) (exponent : Int) : Decimal :=
  if mantissa == 0 then { digits := ['0'], exponent := 0 }
  else
    let (num, den) := quotient mantissa exponent
    (shortestFrom mantissa exponent (log10Quotient num den) 16 1).trim

/-- The value rounded to `count` significant digits, at least one. -/
def roundedTo (count : Nat) (mantissa : Nat) (exponent : Int) : Decimal :=
  let count := max count 1
  if mantissa == 0 then { digits := List.replicate count '0', exponent := 0 }
  else
    let (num, den) := quotient mantissa exponent
    let top := log10Quotient num den
    let (n, d) := inUnits num den (top + 1 - count)
    let k := Binary64.roundQuotient n d
    -- a carry into a further digit leaves only zeros behind it
    if tenTo count ≤ k then { digits := natDigits (k / 10), exponent := top + 1 }
    else { digits := natDigits k, exponent := top }

/-- The value rounded to `places` digits after the point, as the digits before and after it. -/
def placed (places : Nat) (mantissa : Nat) (exponent : Int) : List Char × List Char :=
  let (num, den) := quotient mantissa exponent
  let k := Binary64.roundQuotient (num * tenTo places) den
  let digits := natDigits k
  let digits := List.replicate (places + 1 - digits.length) '0' ++ digits
  (digits.take (digits.length - places), digits.drop (digits.length - places))

/-- Digits with the point after the first `exponent + 1` of them, and at least one place. -/
def positional (d : Decimal) : List Char :=
  if d.exponent < 0 then
    '0' :: '.' :: (List.replicate (-d.exponent - 1).toNat '0' ++ d.digits)
  else
    let before := d.exponent.toNat + 1
    let padded := d.digits ++ List.replicate (before - d.digits.length) '0'
    padded.take before ++ '.' :: (if padded.length ≤ before then ['0'] else padded.drop before)

end Decimal

/-- The decimal text of an integer. -/
def intText (n : Int) : List Char :=
  if n < 0 then '-' :: natDigits n.natAbs else natDigits n.natAbs

/-- A decimal exponent with its sign and at least two digits. -/
def exponentText (e : Int) : List Char :=
  let digits := natDigits e.natAbs
  (if e < 0 then '-' else '+') :: (if digits.length < 2 then '0' :: digits else digits)

/-- The shortest text of a double that reads back: positional while the decimal exponent is at least
-4 and below 16, scientific otherwise, always with a point or an exponent. -/
def floatText (x : Float) : List Char :=
  match Binary64.ofFloat x with
  | .nan => ['n', 'a', 'n']
  | .infinite negative => if negative then ['-', 'i', 'n', 'f'] else ['i', 'n', 'f']
  | .finite negative mantissa exponent =>
    let d := Decimal.shortest mantissa exponent
    let body :=
      if -4 ≤ d.exponent && d.exponent < 16 then d.positional
      else match d.digits with
        | [] => []
        | first :: rest =>
          first :: (if rest.isEmpty then [] else '.' :: rest) ++ 'e' :: exponentText d.exponent
    if negative then '-' :: body else body

/-- The most digits a decimal text may have for an integer to be read from it or written to it. -/
def digitLimit : Nat := 4300

/-- The decimal text of an integer, unless it has too many digits. -/
def intText? (n : Int) : Option (List Char) :=
  if n.natAbs < tenTo digitLimit then some (intText n) else none

end Coach
