import Coach.Number.Reading
import Coach.Proofs.Number.Digits
import Mathlib.Algebra.Group.Nat.Defs

/-!
# Quotients rounded to digits

A quotient of naturals is rounded to a double by its greatest power of two, and to decimal digits by its
greatest power of ten.  Both depend on the value of the quotient only, and the digits are as many as were
asked for.

## Main definitions

* `Reaches`: a quotient is at least a power

## Main statements

* `Binary64.reaches_log2Quotient`, `Decimal.reaches_log10Quotient`: the greatest power in a quotient
* `Binary64.nearest?_mul_right`: a common factor does not matter
* `nearestDecimal_mul_tenTo`: zeros at the end of a decimal go into its exponent
* `Decimal.length_digits_roundedTo`: the number of digits
-/

namespace Coach

/-- A quotient is at least the power `base ^ p`. -/
def Reaches (base : Nat) (p : Int) (num den : Nat) : Prop :=
  den * base ^ p.toNat ≤ num * base ^ (-p).toNat

section Reaches

variable {base num den : Nat} {p q : Int}

/-- Both sides may be taken in smaller units. -/
theorem reaches_iff_shift (hbase : 0 < base) {k : Nat} (hk : 0 ≤ p + k) :
    Reaches base p num den ↔ den * base ^ (p + k).toNat ≤ num * base ^ k := by
  obtain ⟨j, rfl⟩ : ∃ j, k = (-p).toNat + j := ⟨k - (-p).toNat, by omega⟩
  have hleft : (p + ((-p).toNat + j : Nat)).toNat = p.toNat + j := by omega
  rw [hleft, Nat.pow_add, Nat.pow_add, ← Nat.mul_assoc, ← Nat.mul_assoc]
  exact (Nat.mul_le_mul_right_iff (Nat.pow_pos hbase)).symm

theorem Reaches.mono (hbase : 0 < base) (h : Reaches base q num den) (hpq : p ≤ q) :
    Reaches base p num den := by
  have hp : 0 ≤ p + ((-p).toNat : Nat) := by omega
  have hq : 0 ≤ q + ((-p).toNat : Nat) := by omega
  rw [reaches_iff_shift hbase hp]
  refine Nat.le_trans (Nat.mul_le_mul_left den ?_) ((reaches_iff_shift hbase hq).mp h)
  exact Nat.pow_le_pow_right hbase (by omega)

/-- The greatest power that a quotient reaches is one number. -/
theorem eq_of_reaches (hbase : 0 < base) (hp : Reaches base p num den)
    (hp' : ¬ Reaches base (p + 1) num den) (hq : Reaches base q num den)
    (hq' : ¬ Reaches base (q + 1) num den) : p = q := by
  rcases Int.lt_trichotomy p q with hlt | heq | hgt
  · exact absurd (hq.mono hbase (by omega)) hp'
  · exact heq
  · exact absurd (hp.mono hbase (by omega)) hq'

/-- A common factor does not matter. -/
theorem reaches_mul_right {k : Nat} (hk : 0 < k) :
    Reaches base p (num * k) (den * k) ↔ Reaches base p num den := by
  rw [Reaches, Nat.mul_right_comm, Nat.mul_right_comm num]
  exact Nat.mul_le_mul_right_iff hk

/-- What is compared when one of the two powers is spelled out. -/
theorem reaches_iff_ite :
    Reaches base p num den ↔
      if 0 ≤ p then den * base ^ p.toNat ≤ num else den ≤ num * base ^ (-p).toNat := by
  rw [Reaches]
  split
  · next hp => rw [show (-p).toNat = 0 by omega, Nat.pow_zero, Nat.mul_one]
  · next hp => rw [show p.toNat = 0 by omega, Nat.pow_zero, Nat.mul_one]

theorem reaches_natCast {k : Nat} : Reaches base k num den ↔ den * base ^ k ≤ num := by
  rw [reaches_iff_ite, if_pos (Int.natCast_nonneg k), Int.toNat_natCast]

theorem reaches_neg_natCast {k : Nat} : Reaches base (-k) num den ↔ den ≤ num * base ^ k := by
  rw [Reaches, Int.neg_neg, Int.toNat_natCast, Int.toNat_neg_natCast, Nat.pow_zero, Nat.mul_one]

end Reaches

namespace Binary64

variable {num den k : Nat}

/-- The greatest power of two in a quotient. -/
theorem reaches_log2Quotient (hnum : num ≠ 0) (hden : den ≠ 0) :
    Reaches 2 (log2Quotient num den) num den ∧ ¬ Reaches 2 (log2Quotient num den + 1) num den := by
  have hn := Nat.log2_self_le hnum
  have hn' : num < 2 ^ (num.log2 + 1) := Nat.lt_log2_self
  have hd := Nat.log2_self_le hden
  have hd' : den < 2 ^ (den.log2 + 1) := Nat.lt_log2_self
  have hbelow : Reaches 2 ((num.log2 : Int) - den.log2 - 1) num den := by
    rw [reaches_iff_shift (by decide) (k := den.log2 + 1) (by omega),
      show ((num.log2 : Int) - den.log2 - 1 + (den.log2 + 1 : Nat)).toNat = num.log2 by omega]
    rw [Nat.mul_comm]
    exact Nat.mul_le_mul hn (Nat.le_of_lt hd')
  have habove : ¬ Reaches 2 ((num.log2 : Int) - den.log2 + 1) num den := by
    rw [reaches_iff_shift (by decide) (k := den.log2) (by omega),
      show ((num.log2 : Int) - den.log2 + 1 + den.log2).toNat = num.log2 + 1 by omega, Nat.not_le,
      Nat.mul_comm den]
    exact Nat.mul_lt_mul_of_lt_of_le hn' hd (Nat.pos_of_ne_zero hden)
  by_cases hreach : Reaches 2 ((num.log2 : Int) - den.log2) num den
  · have heq : log2Quotient num den = (num.log2 : Int) - den.log2 := if_pos (reaches_iff_ite.mp hreach)
    rw [heq]
    exact ⟨hreach, habove⟩
  · have heq : log2Quotient num den = (num.log2 : Int) - den.log2 - 1 :=
      if_neg (mt reaches_iff_ite.mpr hreach)
    rw [heq, Int.sub_add_cancel]
    exact ⟨hbelow, hreach⟩

theorem log2Quotient_mul_right (hnum : num ≠ 0) (hden : den ≠ 0) (hk : k ≠ 0) :
    log2Quotient (num * k) (den * k) = log2Quotient num den := by
  have hpos := Nat.pos_of_ne_zero hk
  obtain ⟨hreach, hnot⟩ := reaches_log2Quotient (Nat.mul_ne_zero hnum hk) (Nat.mul_ne_zero hden hk)
  obtain ⟨hreach', hnot'⟩ := reaches_log2Quotient hnum hden
  exact eq_of_reaches (by decide) ((reaches_mul_right hpos).mp hreach)
    (mt (reaches_mul_right hpos).mpr hnot) hreach' hnot'

theorem roundQuotient_mul_right (hk : k ≠ 0) :
    roundQuotient (num * k) (den * k) = roundQuotient num den := by
  have hpos := Nat.pos_of_ne_zero hk
  simp only [roundQuotient, Nat.mul_div_mul_right num den hpos, Nat.mul_mod_mul_right,
    ← Nat.mul_assoc, Nat.mul_lt_mul_right hpos]

/-- The nearest double depends on the value of a quotient only. -/
theorem nearest?_mul_right (negative : Bool) (hden : den ≠ 0) (hk : k ≠ 0) :
    nearest? negative (num * k) (den * k) = nearest? negative num den := by
  have hbits : nearestBits (num * k) (den * k) = nearestBits num den := by
    by_cases hnum : num = 0
    · simp [nearestBits, hnum]
    · have hnum' := Nat.mul_ne_zero hnum hk
      simp only [nearestBits, beq_iff_eq, hnum, hnum', if_false, log2Quotient_mul_right hnum hden hk,
        Nat.mul_right_comm _ k, roundQuotient_mul_right hk]
  simp only [nearest?, hbits]

/-- The range of the finite doubles. -/
theorem range_of_ofBits {bits mantissa : Nat} {negative : Bool} {exponent : Int}
    (h : ofBits bits = .finite negative mantissa exponent) :
    mantissa < twoTo 53 ∧ -1074 ≤ exponent ∧ exponent ≤ 971 := by
  have hfield : bits / twoTo 52 % twoTo 11 < twoTo 11 := Nat.mod_lt _ (by decide)
  have hfraction : bits % twoTo 52 < twoTo 52 := Nat.mod_lt _ (by decide)
  have htwo : twoTo 53 = twoTo 52 + twoTo 52 := by decide
  unfold ofBits at h
  dsimp only at h
  generalize bits / twoTo 52 % twoTo 11 = field at h hfield
  generalize bits % twoTo 52 = fraction at h hfraction
  have heleven : twoTo 11 = 2048 := by decide
  split at h
  · split at h <;> cases h
  · next hspecial =>
    rw [beq_iff_eq] at hspecial
    split at h
    · cases h
      exact ⟨by omega, by decide, by decide⟩
    · next hzero =>
      rw [beq_iff_eq] at hzero
      cases h
      exact ⟨by omega, by omega, by omega⟩

/-- What is at least a whole number is not rounded below it. -/
theorem le_roundQuotient {n : Nat} (hden : 0 < den) (h : n * den ≤ num) : n ≤ roundQuotient num den := by
  have hq : n ≤ num / den := (Nat.le_div_iff_mul_le hden).mpr h
  unfold roundQuotient
  dsimp only
  repeat' split
  all_goals omega

/-- What is below a whole number is not rounded above it. -/
theorem roundQuotient_le {n : Nat} (hden : 0 < den) (h : num < n * den) : roundQuotient num den ≤ n := by
  have hq : num / den < n := (Nat.div_lt_iff_lt_mul hden).mpr h
  unfold roundQuotient
  dsimp only
  repeat' split
  all_goals omega

end Binary64

/-! ### Decimals -/

theorem tenTo_ne_zero (z : Nat) : tenTo z ≠ 0 := Nat.ne_of_gt (Nat.pow_pos (by decide))

theorem tenTo_add (y z : Nat) : tenTo (y + z) = tenTo y * tenTo z := Nat.pow_add 10 y z

theorem natDigits_mul_ten {n : Nat} (hn : n ≠ 0) : natDigits (n * 10) = natDigits n ++ ['0'] := by
  have hsplit : natDigits (n * 10) =
      natDigits (n * 10 / 10) ++ [Nat.digitChar (n * 10 % 10)] :=
    Nat.toDigits_of_base_le (by decide) (by omega)
  rw [hsplit, Nat.mul_div_cancel n (by decide), Nat.mul_mod_left]
  rfl

theorem length_natDigits_mul_tenTo {n : Nat} (hn : n ≠ 0) (z : Nat) :
    (natDigits (n * tenTo z)).length = (natDigits n).length + z := by
  induction z with
  | zero => rw [show tenTo 0 = 1 from rfl, Nat.mul_one, Nat.add_zero]
  | succ z ih =>
    rw [show tenTo (z + 1) = tenTo z * 10 from rfl, ← Nat.mul_assoc,
      natDigits_mul_ten (Nat.mul_ne_zero hn (tenTo_ne_zero z)), List.length_append, ih]
    rfl

/-- The double nearest to a decimal other than zero, as the one nearest to a quotient. -/
theorem nearestDecimal_of_ne_zero {n : Nat} (negative : Bool) (hn : n ≠ 0) (e : Int) :
    nearestDecimal negative n e =
      let signed (x : Float) : Float := if negative then -x else x
      if (natDigits n).length + e > 400 then signed infinity
      else if (natDigits n).length + e < -400 then signed 0
      else (Binary64.nearest? negative (n * tenTo e.toNat) (tenTo (-e).toNat)).getD
        (signed infinity) := by
  have hzero : (n == 0) = false := beq_eq_false_iff_ne.mpr hn
  simp only [nearestDecimal, hzero, Bool.false_eq_true, if_false]
  by_cases he : 0 ≤ e
  · simp only [he, if_true, show (-e).toNat = 0 by omega, show tenTo 0 = 1 from rfl]
  · simp only [he, if_false, show e.toNat = 0 by omega, show tenTo 0 = 1 from rfl, Nat.mul_one]

/-- Zeros at the end of a decimal go into its exponent. -/
theorem nearestDecimal_mul_tenTo (negative : Bool) (n z : Nat) (e : Int) :
    nearestDecimal negative (n * tenTo z) (e - z) = nearestDecimal negative n e := by
  by_cases hn : n = 0
  · simp [nearestDecimal, hn]
  have hlength : ((natDigits (n * tenTo z)).length : Int) + (e - z) = (natDigits n).length + e := by
    rw [length_natDigits_mul_tenTo hn]
    omega
  obtain ⟨a, hnum, hden⟩ : ∃ a, z + (e - z).toNat = e.toNat + a ∧ (-(e - z)).toNat = (-e).toNat + a :=
    ⟨z + (e - z).toNat - e.toNat, by omega, by omega⟩
  have hnearest : Binary64.nearest? negative (n * tenTo z * tenTo (e - z).toNat) (tenTo (-(e - z)).toNat) =
      Binary64.nearest? negative (n * tenTo e.toNat) (tenTo (-e).toNat) := by
    rw [Nat.mul_assoc, ← tenTo_add, hnum, tenTo_add, ← Nat.mul_assoc, hden, tenTo_add]
    exact Binary64.nearest?_mul_right negative (tenTo_ne_zero _) (tenTo_ne_zero a)
  rw [nearestDecimal_of_ne_zero negative (Nat.mul_ne_zero hn (tenTo_ne_zero z)),
    nearestDecimal_of_ne_zero negative hn, hlength, hnearest]

/-- A number lies between the powers of ten that its digits count. -/
theorem tenTo_le_of_ne_zero {n : Nat} (hn : n ≠ 0) : tenTo ((natDigits n).length - 1) ≤ n := by
  have hpos := List.length_pos_iff.mpr (natDigits_ne_nil n)
  by_cases hone : (natDigits n).length = 1
  · rw [hone]
    exact Nat.pos_of_ne_zero hn
  · have hlt := mt (Nat.length_toDigits_le_iff (b := 10) (n := n) (k := (natDigits n).length - 1)
      (by decide) (by omega)).mpr (show ¬ (natDigits n).length ≤ (natDigits n).length - 1 by omega)
    exact Nat.not_lt.mp hlt

theorem lt_tenTo_length (n : Nat) : n < tenTo (natDigits n).length :=
  (Nat.length_toDigits_le_iff (by decide) (List.length_pos_iff.mpr (natDigits_ne_nil n))).mp
    (Nat.le_refl _)

theorem length_natDigits_eq {n l : Nat} (hlow : tenTo l ≤ n) (hhigh : n < tenTo (l + 1)) :
    (natDigits n).length = l + 1 := by
  have hle : (natDigits n).length ≤ l + 1 :=
    (Nat.length_toDigits_le_iff (by decide) (Nat.succ_pos l)).mpr hhigh
  have hlt : l < (natDigits n).length := by
    have hpow := Nat.lt_of_le_of_lt hlow (lt_tenTo_length n)
    exact (Nat.pow_lt_pow_iff_right (by decide)).mp hpow
  omega

namespace Decimal

variable {num den : Nat}

theorem inUnits_eq (num den : Nat) (p : Int) :
    inUnits num den p = (num * tenTo (-p).toNat, den * tenTo p.toNat) := by
  unfold inUnits
  split
  · next hp => rw [show (-p).toNat = 0 by omega, show tenTo 0 = 1 from rfl, Nat.mul_one]
  · next hp => rw [show p.toNat = 0 by omega, show tenTo 0 = 1 from rfl, Nat.mul_one]

theorem quotient_ne_zero {mantissa : Nat} (h : mantissa ≠ 0) (exponent : Int) :
    (quotient mantissa exponent).1 ≠ 0 ∧ (quotient mantissa exponent).2 ≠ 0 := by
  have htwo : ∀ k, twoTo k ≠ 0 := fun k => Nat.ne_of_gt (Nat.pow_pos (by decide))
  unfold quotient
  split
  · exact ⟨Nat.mul_ne_zero h (htwo _), Nat.one_ne_zero⟩
  · exact ⟨h, htwo _⟩

/-- The greatest power of ten in a quotient. -/
theorem reaches_log10Quotient (hnum : num ≠ 0) (hden : den ≠ 0) :
    Reaches 10 (log10Quotient num den) num den ∧ ¬ Reaches 10 (log10Quotient num den + 1) num den := by
  have hpos := Nat.pos_of_ne_zero hden
  have hpos' := Nat.pos_of_ne_zero hnum
  have hlength : ∀ n, ∃ l, (natDigits n).length = l + 1 := fun n =>
    Nat.exists_eq_add_one.mpr (List.length_pos_iff.mpr (natDigits_ne_nil n))
  unfold log10Quotient
  split
  · next hle =>
    -- the digits of the whole part count the power
    have hlow := tenTo_le_of_ne_zero (Nat.ne_of_gt (Nat.div_pos hle hpos))
    have hhigh := lt_tenTo_length (num / den)
    obtain ⟨l, hl⟩ := hlength (num / den)
    rw [hl] at hlow hhigh ⊢
    rw [show ((l + 1 : Nat) : Int) - 1 = l by omega, show (l : Int) + 1 = (l + 1 : Nat) by omega,
      reaches_natCast, reaches_natCast, Nat.mul_comm den, Nat.mul_comm den]
    exact ⟨(Nat.le_div_iff_mul_le hpos).mp hlow,
      Nat.not_le.mpr ((Nat.div_lt_iff_lt_mul hpos).mp hhigh)⟩
  · next hnot =>
    -- the digits of the whole part of the inverse count the places
    have hq : den / num ≠ 0 := Nat.ne_of_gt (Nat.div_pos (by omega) hpos')
    have hlow := (Nat.le_div_iff_mul_le hpos').mp (tenTo_le_of_ne_zero hq)
    have hhigh := (Nat.div_lt_iff_lt_mul hpos').mp (lt_tenTo_length (den / num))
    obtain ⟨l, hl⟩ := hlength (den / num)
    rw [hl, Nat.add_sub_cancel] at hlow
    rw [hl] at hhigh
    dsimp only
    rw [hl, Nat.add_sub_cancel]
    split
    · next hplaces =>
      refine ⟨reaches_neg_natCast.mpr hplaces, ?_⟩
      cases l with
      | zero =>
        rw [show -((0 : Nat) : Int) + 1 = (1 : Nat) by omega, reaches_natCast]
        omega
      | succ l =>
        rw [show -((l + 1 : Nat) : Int) + 1 = -(l : Nat) by omega, reaches_neg_natCast, Nat.not_le]
        refine Nat.lt_of_lt_of_le ?_ hlow
        rw [Nat.mul_comm num]
        exact Nat.mul_lt_mul_of_pos_right (Nat.pow_lt_pow_right (by decide) (Nat.lt_succ_self l)) hpos'
    · next hplaces =>
      rw [show -((l + 1 : Nat) : Int) + 1 = -(l : Nat) by omega, reaches_neg_natCast, reaches_neg_natCast,
        Nat.mul_comm num]
      exact ⟨Nat.le_of_lt hhigh, hplaces⟩

/-- The greatest power of ten between bounds of the two numbers. -/
theorem log10Quotient_bounds (hnum : num ≠ 0) (hden : den ≠ 0) {a b : Nat} (ha : num < tenTo a)
    (hb : den ≤ tenTo b) : -(b : Int) ≤ log10Quotient num den ∧ log10Quotient num den < a := by
  obtain ⟨hreach, hnot⟩ := reaches_log10Quotient hnum hden
  refine ⟨Int.not_lt.mp fun hlow => ?_, Int.not_le.mp fun hhigh => ?_⟩
  · have hsmall : Reaches 10 (-b) num den :=
      reaches_neg_natCast.mpr (Nat.le_trans hb (Nat.le_mul_of_pos_left _ (Nat.pos_of_ne_zero hnum)))
    exact hnot (hsmall.mono (by decide) (by omega))
  · have hlarge := reaches_natCast.mp (hreach.mono (by decide) hhigh)
    have hle := Nat.le_trans (Nat.le_mul_of_pos_left _ (Nat.pos_of_ne_zero hden)) hlarge
    exact absurd ha (Nat.not_lt.mpr hle)

/-- In units that leave a given number of digits, a quotient has that many digits before the point. -/
theorem inUnits_bounds (hnum : num ≠ 0) (hden : den ≠ 0) {n d l : Nat}
    (h : inUnits num den (log10Quotient num den - l) = (n, d)) :
    0 < d ∧ tenTo l * d ≤ n ∧ n < tenTo (l + 1) * d := by
  obtain ⟨hreach, hnot⟩ := reaches_log10Quotient hnum hden
  generalize log10Quotient num den = top at h hreach hnot
  rw [inUnits_eq] at h
  obtain ⟨rfl, rfl⟩ := Prod.mk.inj h
  have hshift : ∀ k, tenTo k * (den * tenTo (top - l).toNat) = den * 10 ^ ((top - l).toNat + k) := by
    intro k
    rw [Nat.mul_comm, Nat.mul_assoc, ← tenTo_add]
    rfl
  rw [reaches_iff_shift (by decide) (k := (-(top - l)).toNat) (by omega)] at hreach hnot
  rw [show (top + (-(top - l)).toNat).toNat = (top - l).toNat + l by omega, ← hshift] at hreach
  rw [show (top + 1 + (-(top - l)).toNat).toNat = (top - l).toNat + (l + 1) by omega, ← hshift] at hnot
  exact ⟨Nat.mul_pos (Nat.pos_of_ne_zero hden) (Nat.pos_of_ne_zero (tenTo_ne_zero _)), hreach,
    Nat.not_le.mp hnot⟩

/-- The digits are as many as were asked for. -/
theorem length_digits_roundedTo (count mantissa : Nat) (exponent : Int) :
    (roundedTo count mantissa exponent).digits.length = max count 1 := by
  obtain ⟨l, hl⟩ : ∃ l, max count 1 = l + 1 := Nat.exists_eq_add_one.mpr (by omega)
  unfold roundedTo
  dsimp only
  rw [hl]
  split
  · exact List.length_replicate
  · next hmantissa =>
    have hmantissa : mantissa ≠ 0 := by simpa using hmantissa
    obtain ⟨hnum, hden⟩ := quotient_ne_zero hmantissa exponent
    generalize hunits : inUnits _ _ _ = units
    obtain ⟨n, d⟩ := units
    rw [show log10Quotient (quotient mantissa exponent).1 (quotient mantissa exponent).2 + 1 - (l + 1 : Nat) =
      log10Quotient (quotient mantissa exponent).1 (quotient mantissa exponent).2 - l by omega] at hunits
    obtain ⟨hd, hlow, hhigh⟩ := inUnits_bounds hnum hden hunits
    have hlow := Binary64.le_roundQuotient hd hlow
    have hhigh := Binary64.roundQuotient_le hd hhigh
    split
    · next hcarry =>
      have hk : Binary64.roundQuotient n d = tenTo l * 10 := Nat.le_antisymm hhigh hcarry
      rw [hk, Nat.mul_div_cancel _ (by decide)]
      exact length_natDigits_eq (Nat.le_refl _) (Nat.pow_lt_pow_right (by decide) (Nat.lt_succ_self l))
    · next hcarry => exact length_natDigits_eq hlow (Nat.not_le.mp hcarry)

end Decimal

end Coach
