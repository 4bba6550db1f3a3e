import Coach.Number.Decimal

/-!
# Numbers and texts laid out in a field

How a number or a text fills a field of a given width: sign, padding with blanks or zeros, commas
between groups of three digits, and the fixed, scientific and general notations of doubles.

## Main definitions

* `Layout`: what a field asks for
* `Layout.text`: a text, padded
* `Layout.integer`, `Layout.radix`: an integer in decimal, in octal or hexadecimal
* `Layout.double`: a double in one of the notations
-/

namespace Coach

/-- What a number that is not negative shows in place of a sign. -/
inductive SignPlace where
  | nothing
  | plus
  | blank
  deriving DecidableEq, Repr

/-- What a field asks for. Zero padding goes between the sign and the digits. -/
structure Layout where
  leftAligned : Bool := false
  sign : SignPlace := .nothing
  zeroPadded : Bool := false
  width : Nat := 0
  grouped : Bool := false
  deriving DecidableEq, Repr

/-- How a double is written. -/
inductive Notation where
  | fixed
  | scientific
  | general
  deriving DecidableEq, Repr

namespace Layout

/-- Fills a text up to the width with blanks. -/
def pad (l : Layout) (text : List Char) : List Char :=
  let blanks := List.replicate (l.width - text.length) ' '
  if l.leftAligned then text ++ blanks else blanks ++ text

/-- A text in its field. Zeros are not used for texts. -/
def text (l : Layout) (s : List Char) : List Char := l.pad s

/-- Groups reversed digits by three and fills up with zeros, in groups as well, until `least`
characters are there. -/
def groupReversed : Nat → Nat → List Char → List Char
  | 0, _, reversed => reversed
  | rounds + 1, least, reversed =>
    let size := min 3 (max (max reversed.length least) 1)
    let chunk := reversed.take size
    let filled := chunk ++ List.replicate (size - chunk.length) '0'
    let rest := reversed.drop size
    let least := least - size
    if rest.isEmpty && least == 0 then filled
    else filled ++ ',' :: groupReversed rounds (least - 1) rest

/-- The digits with commas, and leading zeros up to `least` characters. -/
def groupDigits (least : Nat) (digits : List Char) : List Char :=
  (groupReversed (digits.length + least + 1) least digits.reverse).reverse

/-- What stands for the sign. -/
def signText (l : Layout) (negative : Bool) : List Char :=
  if negative then ['-'] else match l.sign with
    | .nothing => []
    | .plus => ['+']
    | .blank => [' ']

/-- A number of whole digits and a tail (places, exponent) in its field. -/
def number (l : Layout) (negative : Bool) (whole tail : List Char) : List Char :=
  let sign := l.signText negative
  let least := if l.zeroPadded then l.width - sign.length - tail.length else 0
  let whole :=
    if l.grouped then groupDigits least whole
    else List.replicate (least - whole.length) '0' ++ whole
  l.pad (sign ++ whole ++ tail)

/-- A word such as `inf` in the field of a number: zeros may fill it, commas do not. -/
def wordNumber (l : Layout) (negative : Bool) (word : List Char) : List Char :=
  number { l with grouped := false } negative word []

/-- An integer in decimal. -/
def integer (l : Layout) (n : Int) : List Char := l.number (n < 0) (natDigits n.natAbs) []

/-- An integer in another base up to sixteen, with capital letters if so asked. -/
def radix (l : Layout) (base : Nat) (capital : Bool) (n : Int) : List Char :=
  let digits := Nat.toDigits base n.natAbs
  l.number (n < 0) (if capital then digits.map Char.toUpper else digits) []

/-- The digits after a point, if there are any. -/
def pointed (places : List Char) : List Char := if places.isEmpty then [] else '.' :: places

/-- Drops trailing zeros. -/
def dropZeros (digits : List Char) : List Char := (digits.reverse.dropWhile (· == '0')).reverse

/-- The whole digits and the tail of a finite value in a notation. The general notation is positional
while the exponent is at least -4 and below the number of digits, and drops trailing zeros. -/
def notated (style : Notation) (precision : Nat) (mantissa : Nat) (exponent : Int) :
    List Char × List Char :=
  match style with
  | .fixed =>
    let (whole, places) := Decimal.placed precision mantissa exponent
    (whole, pointed places)
  | .scientific =>
    let d := Decimal.roundedTo (precision + 1) mantissa exponent
    (d.digits.take 1, pointed (d.digits.drop 1) ++ 'e' :: exponentText d.exponent)
  | .general =>
    let count := max precision 1
    let d := Decimal.roundedTo count mantissa exponent
    if -4 ≤ d.exponent && d.exponent < count then
      if 0 ≤ d.exponent then
        let before := d.exponent.toNat + 1
        (d.digits.take before, pointed (dropZeros (d.digits.drop before)))
      else
        (['0'], pointed (List.replicate (-d.exponent - 1).toNat '0' ++ dropZeros d.digits))
    else
      (d.digits.take 1, pointed (dropZeros (d.digits.drop 1)) ++ 'e' :: exponentText d.exponent)

/-- A double in a notation, with capital letters if so asked. -/
def double (l : Layout) (style : Notation) (capital : Bool) (precision : Nat) (x : Float) :
    List Char :=
  let cased (text : List Char) := if capital then text.map Char.toUpper else text
  match Binary64.ofFloat x with
  | .nan => l.wordNumber false (cased ['n', 'a', 'n'])
  | .infinite negative => l.wordNumber negative (cased ['i', 'n', 'f'])
  | .finite negative mantissa exponent =>
    let (whole, tail) := notated style precision mantissa exponent
    l.number negative whole (cased tail)

end Layout

end Coach
