import Coach.Number.Binary64
import Mathlib.Data.Rat.Floor
import Mathlib.Tactic.Positivity
import Mathlib.Tactic.Ring

/-!
# Doubles as rational numbers

A finite double is a rational number, and what is done with its exact form is done with that number: its
integer part is the number rounded toward zero, and numbers are compared by their values.

## Main definitions

* `Binary64.value`: the rational number of a finite double
* `towardZero`: the integer part of a rational number, rounded toward zero
* `Binary64.AtMost`: the order of doubles by their values

## Main statements

* `Binary64.truncateDyadic_eq`: the integer part of a double
* `Number.atMost_iff`: the order of two numbers
* `towardZero_mono`: integer parts are in the order of their numbers
-/

namespace Coach

/-- The integer part of a rational number, rounded toward zero. -/
def towardZero (q : ℚ) : ℤ := if 0 ≤ q then ⌊q⌋ else ⌈q⌉

theorem towardZero_intCast (n : ℤ) : towardZero n = n := by
  unfold towardZero
  split
  · exact Int.floor_intCast n
  · exact Int.ceil_intCast n

theorem towardZero_neg (q : ℚ) : towardZero (-q) = -towardZero q := by
  unfold towardZero
  rcases lt_trichotomy q 0 with hq | rfl | hq
  · rw [if_pos (neg_nonneg.mpr hq.le), if_neg hq.not_ge, Int.floor_neg]
  · simp
  · rw [if_neg (neg_neg_of_pos hq).not_ge, if_pos hq.le, Int.ceil_neg]

/-- Integer parts are in the order of their numbers. -/
theorem towardZero_mono {p q : ℚ} (hpq : p ≤ q) : towardZero p ≤ towardZero q := by
  unfold towardZero
  split
  · next hp =>
    rw [if_pos (hp.trans hpq)]
    exact Int.floor_mono hpq
  · next hp =>
    split
    · next hq => exact (Int.ceil_le.mpr (by simpa using (not_le.mp hp).le)).trans (Int.floor_nonneg.mpr hq)
    · exact Int.ceil_mono hpq

theorem cast_twoTo (k : Nat) : ((twoTo k : Nat) : ℚ) = 2 ^ (k : ℤ) := by
  rw [zpow_natCast]
  exact Nat.cast_pow 2 k

namespace Binary64

/-- The rational number that a finite double stands for. -/
def value (negative : Bool) (mantissa : Nat) (exponent : Int) : ℚ :=
  (if negative then -1 else 1) * (mantissa * 2 ^ exponent)

/-- The integer part of a finite double is that of its number. -/
theorem truncateDyadic_eq (negative : Bool) (mantissa : Nat) (exponent : Int) :
    truncateDyadic negative mantissa exponent = towardZero (value negative mantissa exponent) := by
  have hsize : towardZero (mantissa * 2 ^ exponent) =
      ((if 0 ≤ exponent then mantissa * twoTo exponent.toNat
        else mantissa / twoTo (-exponent).toNat : Nat) : ℤ) := by
    split
    · next hpos =>
      have hvalue : (mantissa : ℚ) * 2 ^ exponent =
          ((mantissa * twoTo exponent.toNat : Nat) : ℤ) := by
        rw [Int.cast_natCast, Nat.cast_mul, cast_twoTo, Int.toNat_of_nonneg hpos]
      rw [hvalue, towardZero_intCast]
    · next hneg =>
      have hvalue : (mantissa : ℚ) * 2 ^ exponent = mantissa / (twoTo (-exponent).toNat : Nat) := by
        rw [cast_twoTo, Int.toNat_of_nonneg (by omega), zpow_neg, div_inv_eq_mul]
      rw [hvalue, towardZero, if_pos (by positivity), Rat.floor_natCast_div_natCast]
      rfl
  rw [truncateDyadic, ← hsize, value]
  cases negative with
  | true => simp [towardZero_neg]
  | false => simp

/-- The value of a double in units that are no larger than its own. -/
theorem scaled_eq {negative : Bool} {mantissa : Nat} {exponent unit : Int} (h : unit ≤ exponent) :
    (scaled negative mantissa exponent unit : ℚ) * 2 ^ unit = value negative mantissa exponent := by
  have hsize : ((mantissa * twoTo (exponent - unit).toNat : Nat) : ℚ) * 2 ^ unit =
      mantissa * 2 ^ exponent := by
    rw [Nat.cast_mul, cast_twoTo, Int.toNat_of_nonneg (by omega), mul_assoc, ← zpow_add₀ two_ne_zero,
      Int.sub_add_cancel]
  rw [scaled, value, ← hsize]
  cases negative with
  | true => simp
  | false => simp

/-- The order of what two doubles stand for: that of their numbers, between the two infinities. -/
def AtMost : Binary64 → Binary64 → Prop
  | .nan, _ => False
  | _, .nan => False
  | .infinite true, _ => True
  | _, .infinite false => True
  | .infinite false, _ => False
  | _, .infinite true => False
  | .finite s m e, .finite t n f => value s m e ≤ value t n f

end Binary64

namespace Number

theorem atMost_iff_order? {a b : Number} :
    a.atMost b = true ↔ a.order? b = some .lt ∨ a.order? b = some .eq := by
  simp [atMost, less, same]

/-- Numbers are compared by what they stand for. -/
theorem atMost_iff {a b : Number} : a.atMost b = true ↔ a.toBinary64.AtMost b.toBinary64 := by
  rw [atMost_iff_order?, order?]
  generalize a.toBinary64 = x
  generalize b.toBinary64 = y
  match x, y with
  | .nan, _ => simp [Binary64.AtMost]
  | .infinite s, .nan | .finite s m e, .nan => simp [Binary64.AtMost]
  | .infinite true, .infinite true | .infinite false, .infinite false =>
    exact iff_of_true (Or.inr rfl) trivial
  | .infinite true, .infinite false => exact iff_of_true (Or.inl rfl) trivial
  | .infinite false, .infinite true => exact iff_of_false (by decide) id
  | .infinite s, .finite t n f => cases s <;> simp [Binary64.AtMost]
  | .finite s m e, .infinite t => cases t <;> simp [Binary64.AtMost]
  | .finite s m e, .finite t n f =>
    have hunit : (0 : ℚ) < 2 ^ min e f := zpow_pos two_pos _
    rw [Binary64.AtMost, ← Binary64.scaled_eq (Int.min_le_left e f),
      ← Binary64.scaled_eq (Int.min_le_right e f), mul_le_mul_iff_left₀ hunit, Int.cast_le]
    simp only [Option.some.injEq, Int.compare_eq_lt, Int.compare_eq_eq]
    exact Int.le_iff_lt_or_eq.symm

end Number

end Coach
