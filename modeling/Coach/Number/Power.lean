/-!
# Powers

The powers that numbers are made of: those of two for doubles and machine words, and those of ten for
decimal digits.

## Main definitions

* `twoTo`, `tenTo`
-/

namespace Coach

/-- A power of two. -/
abbrev twoTo (exponent : Nat) : Nat := Nat.pow 2 exponent

/-- A power of ten. -/
abbrev tenTo (exponent : Nat) : Nat := Nat.pow 10 exponent

end Coach
