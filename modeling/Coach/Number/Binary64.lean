import Coach.Number.Power

/-!
# Doubles as exact dyadic numbers

A finite double is an integer times a power of two. This module reads that form off the bits, rounds
a quotient of naturals back to the nearest double, and does what has to be exact with it: conversion
to and from integers, comparison with integers, the remainder.

## Main definitions

* `Binary64`: not a number, an infinity, or a signed `mantissa · 2 ^ exponent`
* `Binary64.ofFloat`: the form of a double
* `Binary64.nearest?`: the double nearest to a quotient, ties to even, or nothing past the range
* `floatOfInt?`, `truncate`, `floor`, `ceiling`: to and from integers
* `Number`: an integer of any size or a double, with exact comparison

## Design notes

Comparison goes through the dyadic form, so that an integer beyond `2 ^ 53` and a double differ
whenever their values do.
-/

namespace Coach

/-- What a double stands for. -/
inductive Binary64 where
  | nan
  | infinite (negative : Bool)
  /-- The value `mantissa · 2 ^ exponent`, negated when `negative`. -/
  | finite (negative : Bool) (mantissa : Nat) (exponent : Int)
  deriving DecidableEq, Repr

namespace Binary64

/-- Reads the form off sign, exponent field and fraction field. -/
def ofBits (bits : Nat) : Binary64 :=
  let negative := bits / twoTo 63 % 2 == 1
  let field : Nat := bits / twoTo 52 % twoTo 11
  let fraction := bits % twoTo 52
  if field == 0x7FF then
    if fraction == 0 then .infinite negative else .nan
  else if field == 0 then .finite negative fraction (-1074)
  else .finite negative (twoTo 52 + fraction) ((field : Int) - 1075)

/-- What a double stands for. -/
def ofFloat (x : Float) : Binary64 := ofBits x.toBits.toNat

/-- The quotient rounded to the nearest natural number, a tie to the even one. -/
def roundQuotient (num den : Nat) : Nat :=
  let q := num / den
  let r := num % den
  if 2 * r < den then q else if den < 2 * r then q + 1 else if q % 2 == 0 then q else q + 1

/-- The greatest `e` with `2 ^ e ≤ num / den`, for positive numbers. -/
def log2Quotient (num den : Nat) : Int :=
  let e : Int := (Nat.log2 num : Int) - Nat.log2 den
  let fits := if 0 ≤ e then den * twoTo e.toNat ≤ num else den ≤ num * twoTo (-e).toNat
  if fits then e else e - 1

/-- The bits of the positive double nearest to a quotient, without regard to its range. -/
def nearestBits (num den : Nat) : Nat :=
  if num == 0 then 0
  else
    let e := max (log2Quotient num den - 52) (-1074)
    let q :=
      if 0 ≤ e then roundQuotient num (den * twoTo e.toNat)
      else roundQuotient (num * twoTo (-e).toNat) den
    if q < twoTo 52 then q else (e + 1075).toNat * twoTo 52 + (q - twoTo 52)

/-- The double nearest to a quotient, ties to even; nothing when it would be infinite. -/
def nearest? (negative : Bool) (num den : Nat) : Option Float :=
  let bits := nearestBits num den
  if 0x7FF * twoTo 52 ≤ bits then none
  else some (Float.ofBits (UInt64.ofNat (bits + if negative then twoTo 63 else 0)))

/-- The value of a finite double as an integer over a power of two. -/
def scaled (negative : Bool) (mantissa : Nat) (exponent : Int) (at_ : Int) : Int :=
  let size : Int := mantissa * twoTo (exponent - at_).toNat
  if negative then -size else size

/-- The integer part of a value, toward zero. -/
def truncateDyadic (negative : Bool) (mantissa : Nat) (exponent : Int) : Int :=
  let size : Nat :=
    if 0 ≤ exponent then mantissa * twoTo exponent.toNat else mantissa / twoTo (-exponent).toNat
  if negative then -(size : Int) else size

/-- The greatest integer that is not above a value. -/
def floorDyadic (negative : Bool) (mantissa : Nat) (exponent : Int) : Int :=
  let signed : Int := if negative then -(mantissa : Int) else mantissa
  if 0 ≤ exponent then signed * twoTo exponent.toNat
  else signed.fdiv (twoTo (-exponent).toNat)

end Binary64

/-! ### Integers and doubles -/

/-- Why a double has no integer part, or an integer no double. -/
inductive RangeError where
  | notANumber
  | infinite
  | tooLarge
  deriving DecidableEq, Repr

/-- The double nearest to an integer, ties to even; nothing when it would be infinite. -/
def floatOfInt? (n : Int) : Option Float := Binary64.nearest? (n < 0) n.natAbs 1

/-- Applies an exact function to the value of a finite double. -/
def onDyadic (f : Bool → Nat → Int → Int) (x : Float) : Except RangeError Int :=
  match Binary64.ofFloat x with
  | .nan => .error .notANumber
  | .infinite _ => .error .infinite
  | .finite negative mantissa exponent => .ok (f negative mantissa exponent)

/-- The integer part of a double, toward zero. -/
def truncate (x : Float) : Except RangeError Int := onDyadic Binary64.truncateDyadic x

/-- The greatest integer not above a double. -/
def floor (x : Float) : Except RangeError Int := onDyadic Binary64.floorDyadic x

/-- The least integer not below a double. -/
def ceiling (x : Float) : Except RangeError Int :=
  onDyadic (fun negative mantissa exponent =>
    -(Binary64.floorDyadic (!negative) mantissa exponent)) x

/-- Positive infinity. -/
def infinity : Float := Float.ofBits 0x7FF0000000000000

/-- The quiet not-a-number. -/
def notANumber : Float := Float.ofBits 0x7FF8000000000000

/-- Whether the sign bit is set. -/
def signBit (x : Float) : Bool := x.toBits.toNat / twoTo 63 % 2 == 1

/-- The remainder of `x` by `y` with the sign of `x`, for a `y` that is not zero; nothing when `x` is
infinite. -/
def remainder? (x y : Float) : Option Float :=
  match Binary64.ofFloat x, Binary64.ofFloat y with
  | .nan, _ => some x
  | _, .nan => some y
  | .infinite _, _ => none
  | .finite .., .infinite _ => some x
  | .finite negative m e, .finite _ m' e' =>
    if m' == 0 then none
    else
      let at_ := min e e'
      let left := m * twoTo (e - at_).toNat
      let right := m' * twoTo (e' - at_).toNat
      let rest := left % right
      if 0 ≤ at_ then Binary64.nearest? negative (rest * twoTo at_.toNat) 1
      else Binary64.nearest? negative rest (twoTo (-at_).toNat)

/-! ### Numbers of two kinds -/

/-- A number as programs, documents and counters hold it: an integer of any size, or a double. -/
inductive Number where
  | int (n : Int)
  | float (x : Float)

namespace Number

/-- The dyadic form of a number. -/
def toBinary64 : Number → Binary64
  | .int n => .finite (n < 0) n.natAbs 0
  | .float x => .ofFloat x

/-- The order of two numbers by value; nothing when one is not a number. -/
def order? (a b : Number) : Option Ordering :=
  match a.toBinary64, b.toBinary64 with
  | .nan, _ => none
  | _, .nan => none
  | .infinite s, .infinite t => some (compare (if s then 0 else 1) (if t then 0 else 1))
  | .infinite s, .finite .. => some (if s then .lt else .gt)
  | .finite .., .infinite t => some (if t then .gt else .lt)
  | .finite s m e, .finite t n f =>
    let at_ := min e f
    some (compare (Binary64.scaled s m e at_) (Binary64.scaled t n f at_))

/-- Equality of values. -/
def same (a b : Number) : Bool := a.order? b == some .eq

/-- Strictly less. -/
def less (a b : Number) : Bool := a.order? b == some .lt

/-- Less or equal. -/
def atMost (a b : Number) : Bool := a.less b || a.same b

/-- The number as a double; nothing when it is an integer past the range. -/
def toFloat? : Number → Option Float
  | .int n => floatOfInt? n
  | .float x => some x

/-- Whether the number is a double. -/
def isFloat : Number → Bool
  | .int _ => false
  | .float _ => true

end Number

end Coach
