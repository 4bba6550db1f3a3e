import Coach.Program.Value
import Mathlib.Data.Int.ModEq
import Mathlib.Tactic.Ring

/-!
# Words of bits

An integer that is stored in a word keeps its place among the integers up to multiples of a power of two,
and the word picks the one of them that it can hold.

## Main definitions

* `InWord`: the integers that a word of some bits holds

## Main statements

* `inWord_wrap`, `wrap_eq_self`: what is stored is held by the word, and what it holds is stored as it is
* `wrap_eq_wrap_iff`: what is stored is the same for integers that differ by a multiple of a power of two
* `wrap_wrap`: a word that is wide enough may come between
-/

namespace Coach.Program

/-- The integers of a word of some bits, in two's complement. -/
def InWord (bits : Nat) (n : Int) : Prop := -(twoTo (bits - 1) : Int) ≤ n ∧ n < twoTo (bits - 1)

instance (bits : Nat) (n : Int) : Decidable (InWord bits n) :=
  inferInstanceAs (Decidable (-(twoTo (bits - 1) : Int) ≤ n ∧ n < twoTo (bits - 1)))

variable {bits wider : Nat} {a b n : Int}

theorem twoTo_pos (bits : Nat) : (0 : Int) < twoTo bits := mod_cast Nat.two_pow_pos bits

/-- A word holds as many integers below zero as from there on. -/
theorem twoTo_eq_add (h : 0 < bits) : (twoTo bits : Int) = twoTo (bits - 1) + twoTo (bits - 1) := by
  obtain ⟨k, rfl⟩ := Nat.exists_eq_add_one.mpr h
  have hdouble : twoTo (k + 1) = twoTo k + twoTo k := by simp only [twoTo, Nat.pow_eq]; ring
  rw [Nat.add_sub_cancel]
  exact mod_cast hdouble

theorem inWord_wrap (h : 0 < bits) (n : Int) : InWord bits (wrap bits n) := by
  have hlow := Int.emod_nonneg (n + twoTo (bits - 1)) (twoTo_pos bits).ne'
  have hhigh := Int.emod_lt_of_pos (n + twoTo (bits - 1)) (twoTo_pos bits)
  have hdouble := twoTo_eq_add h
  unfold InWord wrap
  omega

theorem wrap_eq_self (h : 0 < bits) (hn : InWord bits n) : wrap bits n = n := by
  have hdouble := twoTo_eq_add h
  obtain ⟨hlow, hhigh⟩ := hn
  rw [wrap, Int.emod_eq_of_lt (by omega) (by omega), Int.add_sub_cancel]

theorem wrap_modEq (bits : Nat) (n : Int) : wrap bits n ≡ n [ZMOD twoTo bits] := by
  have h := (Int.mod_modEq (n + twoTo (bits - 1)) (twoTo bits)).sub_right (twoTo (bits - 1) : Int)
  rwa [Int.add_sub_cancel] at h

theorem wrap_eq_wrap_iff : wrap bits a = wrap bits b ↔ a ≡ b [ZMOD twoTo bits] := by
  constructor
  · intro h
    exact (wrap_modEq bits a).symm.trans (h ▸ wrap_modEq bits b)
  · intro h
    have hsum : (a + twoTo (bits - 1)) % twoTo bits = (b + twoTo (bits - 1)) % twoTo bits :=
      h.add_right _
    rw [wrap, wrap, hsum]

/-- What is the same in a word is the same in a narrower one. -/
theorem modEq_of_wider (h : bits ≤ wider) (hab : a ≡ b [ZMOD twoTo wider]) :
    a ≡ b [ZMOD twoTo bits] :=
  hab.of_dvd (mod_cast Nat.pow_dvd_pow 2 h)

/-- A value that is stored in a wider word first is stored as if it came at once. -/
theorem wrap_wrap (h : bits ≤ wider) (n : Int) : wrap bits (wrap wider n) = wrap bits n :=
  wrap_eq_wrap_iff.mpr (modEq_of_wider h (wrap_modEq wider n))

end Coach.Program
