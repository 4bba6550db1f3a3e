import Mathlib.Data.List.Basic

/-!
# Lists

What taking the first items, sorting and dropping repeated items do to one another.

## Main statements

* `take_cons_take`, `take_cons_filter_take`: the first items when a new one is put in front
* `filter_mergeSort`: sorting is stable
* `eraseDups_filter`, `nodup_eraseDups`: each item once
* `pairwise_idxOf_lt`: the places of items
-/

namespace Coach

variable {α : Type}

/-! ### The first items -/

/-- Putting an item in front of the first few of a list, and of the whole list, makes no difference
for the first few. -/
theorem take_cons_take (limit : Nat) (a : α) (items : List α) :
    (a :: items.take limit).take limit = (a :: items).take limit := by
  cases limit with
  | zero => rfl
  | succ k => rw [List.take_succ_cons, List.take_succ_cons, List.take_take, Nat.min_eq_left (Nat.le_succ k)]

/-- The same when the item is taken out from where it stands. -/
theorem take_cons_filter_take [DecidableEq α] (a : α) {xs : List α} (h : xs.Nodup) (n : Nat) :
    (a :: (xs.take n).filter (· ≠ a)).take n = (a :: xs.filter (· ≠ a)).take n := by
  cases n with
  | zero => rfl
  | succ n =>
    rw [List.take_succ_cons, List.take_succ_cons]
    congr 1
    induction xs generalizing n with
    | nil => rfl
    | cons x rest ih =>
      obtain ⟨hx, hrest⟩ := List.nodup_cons.mp h
      rw [List.take_succ_cons]
      by_cases hxa : x = a
      · subst hxa
        have hne : ∀ y ∈ rest, y ≠ x := fun y hy heq => hx (heq ▸ hy)
        have hall : ∀ ys : List α, (∀ y ∈ ys, y ≠ x) → ys.filter (· ≠ x) = ys := fun ys hys =>
          List.filter_eq_self.mpr fun y hy => decide_eq_true (hys y hy)
        simp only [ne_eq, not_true_eq_false, decide_false, Bool.false_eq_true, not_false_eq_true,
          List.filter_cons_of_neg]
        rw [hall rest hne, hall _ fun y hy => hne y (List.mem_of_mem_take hy), List.take_take,
          Nat.min_self]
      · simp only [ne_eq, hxa, not_false_eq_true, decide_true, List.filter_cons_of_pos]
        cases n with
        | zero => rfl
        | succ n => rw [List.take_succ_cons, List.take_succ_cons, ih hrest n]

/-! ### Sorting -/

/-- Sorting leaves items that may stand in any order as they stood. -/
theorem filter_mergeSort {le : α → α → Bool}
    (htrans : ∀ a b c, le a b = true → le b c = true → le a c = true)
    (htotal : ∀ a b, (le a b || le b a) = true) {p : α → Bool}
    (hle : ∀ a b, p a = true → p b = true → le a b = true) (items : List α) :
    (items.mergeSort le).filter p = items.filter p := by
  have hpairwise : (items.filter p).Pairwise fun a b => le a b = true :=
    List.pairwise_of_forall_mem_list fun a ha b hb =>
      hle a b (List.mem_filter.mp ha).2 (List.mem_filter.mp hb).2
  have hsub := (List.sublist_mergeSort htrans htotal hpairwise List.filter_sublist).filter p
  simp only [List.filter_filter, Bool.and_self] at hsub
  have hlength := ((List.mergeSort_perm items le).filter p).length_eq
  exact (hsub.eq_of_length hlength.symm).symm

/-! ### Each item once -/

/-- Items of which each stands once stand in the order of their places. -/
theorem pairwise_idxOf_lt [BEq α] [LawfulBEq α] {items : List α} (h : items.Nodup) :
    items.Pairwise fun a b => items.idxOf a < items.idxOf b := by
  refine List.pairwise_iff_getElem.mpr fun i j hi hj hij => ?_
  rwa [h.idxOf_getElem i hi, h.idxOf_getElem j hj]

variable [DecidableEq α]

theorem eraseDups_filter (p : α → Bool) (xs : List α) :
    (xs.filter p).eraseDups = xs.eraseDups.filter p := by
  match xs with
  | [] => rfl
  | a :: rest =>
    have hrest := eraseDups_filter p (rest.filter fun b => !b == a)
    rw [List.eraseDups_cons]
    by_cases ha : p a
    · rw [List.filter_cons_of_pos ha, List.filter_cons_of_pos ha, List.eraseDups_cons, ← hrest,
        List.filter_filter, List.filter_filter]
      simp only [Bool.and_comm]
    · have hnone : (rest.filter fun b => !b == a).filter p = rest.filter p := by
        rw [List.filter_filter]
        refine List.filter_congr fun b _ => ?_
        by_cases hb : b = a
        · simp [hb, ha]
        · simp [hb]
      rw [List.filter_cons_of_neg ha, List.filter_cons_of_neg ha, ← hrest, hnone]
termination_by xs.length
decreasing_by exact Nat.lt_succ_of_le (List.length_filter_le ..)

theorem nodup_eraseDups (xs : List α) : xs.eraseDups.Nodup := by
  match xs with
  | [] => exact List.nodup_nil
  | a :: rest =>
    rw [List.eraseDups_cons, List.nodup_cons]
    exact ⟨by simp, nodup_eraseDups _⟩
termination_by xs.length
decreasing_by exact Nat.lt_succ_of_le (List.length_filter_le ..)

end Coach
