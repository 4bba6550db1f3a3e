import Coach.Metrics.Histogram
import Coach.Proofs.Number.Exact

/-!
# What the aggregates of a histogram say

A series counts its values, and each value that can be measured goes into one bucket, which stands at or
before every infinite bound.  So the buckets add up to the measured values, and so does what is exported up
to an infinite bound.  A value that cannot be measured is counted before it turns out that no bucket takes
it; the series is then one ahead of its buckets for good.

## Main definitions

* `isMeasured`: whether a value can be compared with the bounds and added
* `bucketOf?`: the bucket that a value is counted in
* `Tallied`: the aggregates of a series that took some values
* `Histogram.observed`, `valuesUnder`: a histogram after calls, and the values of the calls under some labels
* `cumulative`: how many values the buckets hold up to each bound
* `Histogram.Accounts`: what a series, and its export, say of the values that were observed

## Main statements

* `Tallied.record`: what one more value adds to a series
* `Histogram.tallied_observed`: each series is that of the values under its labels
* `Histogram.observed_accounts`: the aggregates after any calls, and when they fit together
-/

namespace Coach.Metrics

open Coach.Service

/-- Whether a value can be compared with the bounds and added: it is a number, and has a double. -/
def isMeasured (value : Number) : Bool := value.toBinary64 != .nan && value.toFloat?.isSome

/-- The bucket that a value is counted in, if it is counted in one. -/
def bucketOf? (bounds : List Number) (value : Number) : Option Nat :=
  if value.toFloat?.isSome then Histogram.bucketIndex? bounds value else none

/-- How many values are in a bucket or before it, when `below` are before the first. -/
def cumulative (below : Nat) : List Nat → List Nat
  | [] => []
  | count :: counts => (below + count) :: cumulative (below + count) counts

/-- The values of the calls under some labels. -/
def valuesUnder (labels : Labels) (calls : List (Number × Labels)) : List Number :=
  (calls.filter (·.2 = labels)).map (·.1)

/-! ### Infinite bounds -/

/-- A bound that equals positive infinity, so that no number exceeds it. -/
def IsInfinite (bound : Number) : Prop := bound.same (.float infinity) = true

theorem isInfinite_iff {bound : Number} : IsInfinite bound ↔ bound.toBinary64 = .infinite false := by
  have hinfinity : (Number.float infinity).toBinary64 = .infinite false := by decide +kernel
  rw [IsInfinite, Number.same, Number.order?, hinfinity, beq_iff_eq]
  cases bound.toBinary64 with
  | nan => simp
  | infinite negative => cases negative <;> simp
  | finite negative mantissa exponent => simp

/-- What is a number is at most infinite. -/
theorem atMost_of_infinite {value bound : Number} (hvalue : value.toBinary64 ≠ .nan)
    (hbound : IsInfinite bound) : value.atMost bound = true := by
  rw [Number.atMost_iff, isInfinite_iff.mp hbound]
  cases hform : value.toBinary64 with
  | nan => exact absurd hform hvalue
  | infinite negative => cases negative <;> trivial
  | finite => trivial

/-- What is no number is at most nothing. -/
theorem not_atMost_of_nan {value : Number} (h : value.toBinary64 = .nan) (bound : Number) :
    value.atMost bound = false := by
  rw [← Bool.not_eq_true, Number.atMost_iff, h]
  exact id

/-- Whatever bounds are asked for, there is an infinite one at the end. -/
theorem exists_getLast?_soundBounds (bounds : List Number) :
    ∃ bound, (soundBounds bounds).getLast? = some bound ∧ IsInfinite bound := by
  simp only [soundBounds]
  split
  · next h => exact (Option.any_eq_true _ _).mp h
  · exact ⟨_, List.getLast?_concat .., isInfinite_iff.mpr (by decide +kernel)⟩

/-! ### The bucket of a value -/

section Bucket

variable {bounds : List Number} {value bound : Number} {p : Nat}

/-- A value that can be measured goes into a bucket at or before every infinite bound. -/
theorem bucketOf?_of_measured (hvalue : isMeasured value = true) (hget : bounds[p]? = some bound)
    (hbound : IsInfinite bound) : ∃ i ≤ p, bucketOf? bounds value = some i := by
  obtain ⟨hnumber, hdouble⟩ := Bool.and_eq_true_iff.mp hvalue
  have hfits : value.atMost bound = true := atMost_of_infinite (bne_iff_ne.mp hnumber) hbound
  rw [bucketOf?, if_pos hdouble]
  cases hfound : Histogram.bucketIndex? bounds value with
  | none =>
    have hnone := List.findIdx?_eq_none_iff.mp hfound bound (List.mem_of_getElem? hget)
    rw [hfits] at hnone
    cases hnone
  | some i =>
    obtain ⟨hlength, -, hbefore⟩ := List.findIdx?_eq_some_iff_getElem.mp hfound
    refine ⟨i, not_lt.mp fun hp => hbefore p hp ?_, rfl⟩
    obtain ⟨hp, rfl⟩ := List.getElem?_eq_some_iff.mp hget
    exact hfits

theorem bucketOf?_of_not_measured (h : isMeasured value = false) : bucketOf? bounds value = none := by
  rw [bucketOf?]
  split
  · next hdouble =>
    have hnan : value.toBinary64 = .nan := by simpa [isMeasured, hdouble] using h
    exact List.findIdx?_eq_none_iff.mpr fun bound _ => not_atMost_of_nan hnan bound
  · rfl

/-- Where the last bound is infinite, the values with a bucket are those that can be measured. -/
theorem isSome_bucketOf?_iff (hlast : bounds.getLast? = some bound) (hbound : IsInfinite bound) :
    (bucketOf? bounds value).isSome = true ↔ isMeasured value = true := by
  constructor
  · intro hsome
    by_contra hvalue
    rw [bucketOf?_of_not_measured (Bool.not_eq_true _ ▸ hvalue)] at hsome
    cases hsome
  · intro hvalue
    obtain ⟨i, -, hi⟩ := bucketOf?_of_measured hvalue (List.getLast?_eq_getElem? ▸ hlast) hbound
    rw [hi]
    rfl

theorem bucketOf?_lt {i : Nat} (h : bucketOf? bounds value = some i) : i < bounds.length := by
  rw [bucketOf?] at h
  split at h
  · exact (List.findIdx?_eq_some_iff_getElem.mp h).1
  · cases h

end Bucket

/-- One more value in a bucket is one more in every sum that reaches it. -/
theorem sum_take_increment {counts : List Nat} {i n : Nat} (hi : i < counts.length) (hn : i < n) :
    ((Histogram.increment counts i).take n).sum = (counts.take n).sum + 1 := by
  induction counts generalizing i n with
  | nil => cases hi
  | cons count counts ih =>
    obtain ⟨n, rfl⟩ := Nat.exists_eq_succ_of_ne_zero (Nat.ne_zero_of_lt hn)
    cases i with
    | zero => simp [Histogram.increment, Nat.add_right_comm]
    | succ i =>
      have hrest := ih (Nat.lt_of_succ_lt_succ hi) (Nat.lt_of_succ_lt_succ hn)
      simp only [Histogram.increment, List.modify_succ_cons, List.take_succ_cons, List.sum_cons] at hrest ⊢
      rw [hrest, Nat.add_assoc]

/-! ### One value -/

section Record

variable (bounds : List Number) (value : Number) (s : Series)

theorem count_record : (Histogram.record bounds value s).1.count = s.count + 1 := by
  simp only [Histogram.record]
  split
  · rfl
  · split <;> rfl

/-- The buckets change by the value's own, if there is one. -/
theorem bucketCounts_record : (Histogram.record bounds value s).1.bucketCounts =
    match bucketOf? bounds value with
    | some i => Histogram.increment s.bucketCounts i
    | none => s.bucketCounts := by
  simp only [Histogram.record, bucketOf?]
  cases value.toFloat? with
  | none => rfl
  | some x => cases Histogram.bucketIndex? bounds value <;> rfl

/-- A value is taken if there is a bucket for it. -/
theorem record_ok_iff :
    (Histogram.record bounds value s).2 = .ok () ↔ (bucketOf? bounds value).isSome = true := by
  simp only [Histogram.record, bucketOf?]
  cases value.toFloat? with
  | none => simp
  | some x => cases Histogram.bucketIndex? bounds value <;> simp

end Record

/-- The aggregates of a series that took some values, whether or not each of them was measured. -/
structure Tallied (bounds : List Number) (values : List Number) (s : Series) : Prop where
  /-- Every value is counted. -/
  count_eq : s.count = values.length
  /-- There is a bucket for each bound. -/
  length_eq : s.bucketCounts.length = bounds.length
  /-- The buckets up to an infinite bound hold the values that were measured. -/
  total_eq : ∀ (p : Nat) (bound : Number), bounds[p]? = some bound → IsInfinite bound →
    (s.bucketCounts.take (p + 1)).sum = values.countP isMeasured

namespace Tallied

variable {bounds values : List Number} {s : Series}

/-- A series without values. -/
theorem fresh (h : Histogram) : Tallied h.bounds [] h.fresh where
  count_eq := rfl
  length_eq := List.length_map ..
  total_eq p bound _ _ := by
    simp [Histogram.fresh, List.map_const', List.take_replicate]

/-- One more value. -/
theorem record (h : Tallied bounds values s) (value : Number) :
    Tallied bounds (values ++ [value]) (Histogram.record bounds value s).1 where
  count_eq := by rw [count_record, h.count_eq, List.length_append, List.length_singleton]
  length_eq := by
    rw [bucketCounts_record]
    split
    · rw [Histogram.increment, List.length_modify, h.length_eq]
    · exact h.length_eq
  total_eq p bound hget hbound := by
    have htotal := h.total_eq p bound hget hbound
    rw [bucketCounts_record, List.countP_append, List.countP_singleton, ← htotal]
    cases hvalue : isMeasured value with
    | true =>
      obtain ⟨i, hip, hi⟩ := bucketOf?_of_measured hvalue hget hbound
      rw [hi, if_pos rfl]
      exact sum_take_increment (h.length_eq ▸ bucketOf?_lt hi) (Nat.lt_succ_of_le hip)
    | false =>
      rw [bucketOf?_of_not_measured hvalue, if_neg Bool.false_ne_true]
      rfl

/-- All buckets together hold the values that were measured. -/
theorem sum_eq (h : Tallied bounds values s) {bound : Number} (hlast : bounds.getLast? = some bound)
    (hbound : IsInfinite bound) : s.bucketCounts.sum = values.countP isMeasured := by
  have hne : bounds ≠ [] := by
    rintro rfl
    cases hlast
  have htotal := h.total_eq _ bound (List.getLast?_eq_getElem? ▸ hlast) hbound
  rwa [Nat.sub_add_cancel (List.length_pos_iff.mpr hne), ← h.length_eq, List.take_length] at htotal

/-- The buckets add up to the count when every value was measured. -/
theorem sum_eq_count_iff (h : Tallied bounds values s) {bound : Number}
    (hlast : bounds.getLast? = some bound) (hbound : IsInfinite bound) :
    s.bucketCounts.sum = s.count ↔ ∀ value ∈ values, isMeasured value = true := by
  rw [h.sum_eq hlast hbound, h.count_eq, List.countP_eq_length]

end Tallied

/-! ### What is exported -/

section Cumulative

variable (below : Nat) (counts : List Nat)

theorem length_cumulative : (cumulative below counts).length = counts.length := by
  induction counts generalizing below with
  | nil => rfl
  | cons count counts ih => exact congrArg (· + 1) (ih _)

/-- The number up to a bound is the sum of the buckets up to there. -/
theorem getElem?_cumulative {p : Nat} (h : p < counts.length) :
    (cumulative below counts)[p]? = some (below + (counts.take (p + 1)).sum) := by
  induction counts generalizing below p with
  | nil => cases h
  | cons count counts ih =>
    cases p with
    | zero => simp [cumulative]
    | succ p =>
      rw [cumulative, List.getElem?_cons_succ, ih _ (Nat.lt_of_succ_lt_succ h), List.take_succ_cons,
        List.sum_cons, Nat.add_assoc]

theorem le_of_mem_cumulative {total : Nat} (h : total ∈ cumulative below counts) : below ≤ total := by
  induction counts generalizing below with
  | nil => cases h
  | cons count counts ih =>
    rcases List.mem_cons.mp h with rfl | h
    · exact Nat.le_add_right ..
    · exact (Nat.le_add_right ..).trans (ih _ h)

/-- The numbers up to the bounds never decrease. -/
theorem pairwise_cumulative : (cumulative below counts).Pairwise (· ≤ ·) := by
  induction counts generalizing below with
  | nil => exact List.Pairwise.nil
  | cons count counts ih =>
    exact List.pairwise_cons.mpr ⟨fun total => le_of_mem_cumulative _ counts, ih _⟩

end Cumulative

/-- The line of a bucket, with the number of values up to its bound. -/
def bucketLine (name : String) (labels : Labels) (bound : Number) (total : Nat) : String :=
  let series := Labels.text (labels ++ [("le", Histogram.boundText bound)])
  s!"{name}_bucket{series} {total}"

/-- The lines of the buckets show the number of values up to each bound. -/
theorem bucketLines_zip (name : String) (labels : Labels) (below : Nat) (bounds : List Number)
    (counts : List Nat) : Histogram.bucketLines name labels below (bounds.zip counts) =
      List.zipWith (bucketLine name labels) bounds (cumulative below counts) := by
  induction bounds generalizing below counts with
  | nil => rfl
  | cons bound bounds ih =>
    cases counts with
    | nil => rfl
    | cons count counts => exact congrArg (_ :: ·) (ih _ counts)

namespace Histogram

/-- What a series and its lines say of the values that it took. -/
structure Accounts (h : Histogram) (labels : Labels) (values : List Number) (s : Series) : Prop where
  /-- Every value is counted. -/
  count_eq : s.count = values.length
  /-- The values that were measured are each in one bucket. -/
  sum_eq : s.bucketCounts.sum = values.countP isMeasured
  /-- There is a line for each bound, with the number of values up to it, and the sum and the count. -/
  lines_eq : h.seriesLines labels s =
    List.zipWith (bucketLine h.heading.name labels) h.bounds (cumulative 0 s.bucketCounts) ++
      [s!"{h.heading.name}_sum{labels.text} {briefFloat s.total}",
        s!"{h.heading.name}_count{labels.text} {s.count}"]
  length_eq : (cumulative 0 s.bucketCounts).length = h.bounds.length
  /-- The numbers on the lines never decrease. -/
  increasing : (cumulative 0 s.bucketCounts).Pairwise (· ≤ ·)
  /-- The number up to an infinite bound is that of all buckets. -/
  infinite_eq : ∀ (p : Nat) (bound : Number), h.bounds[p]? = some bound → IsInfinite bound →
    (cumulative 0 s.bucketCounts)[p]? = some s.bucketCounts.sum

/-- A series that took some values accounts for them. -/
theorem accounts_of_tallied {h : Histogram} {values : List Number} {s : Series}
    (htallied : Tallied h.bounds values s) {last : Number} (hlast : h.bounds.getLast? = some last)
    (hinfinite : IsInfinite last) (labels : Labels) : h.Accounts labels values s where
  count_eq := htallied.count_eq
  sum_eq := htallied.sum_eq hlast hinfinite
  lines_eq := congrArg (· ++ _) (bucketLines_zip ..)
  length_eq := (length_cumulative ..).trans htallied.length_eq
  increasing := pairwise_cumulative ..
  infinite_eq p bound hget hbound := by
    have hp : p < s.bucketCounts.length := htallied.length_eq ▸ (List.getElem?_eq_some_iff.mp hget).1
    rw [getElem?_cumulative _ _ hp, Nat.zero_add, htallied.total_eq p bound hget hbound,
      htallied.sum_eq hlast hinfinite]

/-! ### Calls -/

/-- A histogram after calls, in whatever way they ended. -/
def observed (h : Histogram) (calls : List (Number × Labels)) : Histogram :=
  calls.foldl (fun h call => (h.observe call.1 call.2).1) h

/-- The series under some labels, without values when there is none. -/
def seriesUnder (h : Histogram) (labels : Labels) : Series := (valueAt? h.series labels).getD h.fresh

theorem observed_append (h : Histogram) (calls : List (Number × Labels)) (call : Number × Labels) :
    h.observed (calls ++ [call]) = ((h.observed calls).observe call.1 call.2).1 :=
  List.foldl_append ..

section Observe

variable (h : Histogram) (value : Number) (labels : Labels)

/-- A call puts its value into the series under its labels. -/
theorem valueAt?_observe : valueAt? (h.observe value labels).1.series labels =
    some (record h.bounds value (h.seriesUnder labels)).1 :=
  valueAt?_adjust ..

theorem seriesUnder_observe : (h.observe value labels).1.seriesUnder labels =
    (record h.bounds value (h.seriesUnder labels)).1 :=
  congrArg (Option.getD · _) (valueAt?_observe ..)

/-- A call leaves the series under other labels. -/
theorem seriesUnder_observe_of_ne {other : Labels} (hne : other ≠ labels) :
    (h.observe value labels).1.seriesUnder other = h.seriesUnder other :=
  congrArg (Option.getD · _) (valueAt?_adjust_of_ne _ _ _ hne)

end Observe

theorem bounds_observed (h : Histogram) (calls : List (Number × Labels)) :
    (h.observed calls).bounds = h.bounds := by
  induction calls generalizing h with
  | nil => rfl
  | cons call calls ih => exact ih _

theorem nodup_labels_observed {h : Histogram} (hnodup : (h.series.map (·.1)).Nodup)
    (calls : List (Number × Labels)) : ((h.observed calls).series.map (·.1)).Nodup := by
  induction calls generalizing h with
  | nil => exact hnodup
  | cons call calls ih => exact ih (nodup_keys_adjust hnodup ..)

/-- Each series is that of the values under its labels. -/
theorem tallied_observed {h : Histogram} (hempty : h.series = []) (calls : List (Number × Labels))
    (labels : Labels) :
    Tallied h.bounds (valuesUnder labels calls) ((h.observed calls).seriesUnder labels) := by
  induction calls using List.reverseRecOn with
  | nil =>
    rw [observed, List.foldl_nil, seriesUnder, hempty]
    exact Tallied.fresh h
  | append_singleton calls call ih =>
    rw [observed_append]
    by_cases hlabels : call.2 = labels
    · have hvalues : valuesUnder labels (calls ++ [call]) = valuesUnder labels calls ++ [call.1] := by
        simp [valuesUnder, hlabels]
      rw [← hlabels, seriesUnder_observe, bounds_observed, hlabels, hvalues]
      exact ih.record call.1
    · have hvalues : valuesUnder labels (calls ++ [call]) = valuesUnder labels calls := by
        simp [valuesUnder, hlabels]
      rw [seriesUnder_observe_of_ne _ _ _ (Ne.symm hlabels), hvalues]
      exact ih

/-- Whatever is observed, a series counts all its values, and its buckets and lines those that were
measured; the two agree when that is every one.  A call that finds no bucket still counts its value. -/
theorem observed_accounts (heading : Heading) (bounds : List Number) (calls : List (Number × Labels)) :
    let h := (make heading bounds).observed calls
    (∃ last, h.bounds.getLast? = some last ∧ IsInfinite last) ∧
    (∀ labels s, (labels, s) ∈ h.series →
      h.Accounts labels (valuesUnder labels calls) s ∧
      (s.bucketCounts.sum = s.count ↔ ∀ value ∈ valuesUnder labels calls, isMeasured value = true)) ∧
    ∀ value labels,
      ((h.observe value labels).2 = .ok () ↔ isMeasured value = true) ∧
      ((h.observe value labels).2 ≠ .ok () →
        ∃ s, valueAt? (h.observe value labels).1.series labels = some s ∧
          s.count = (h.seriesUnder labels).count + 1 ∧
          s.bucketCounts = (h.seriesUnder labels).bucketCounts) := by
  intro h
  obtain ⟨last, hlast, hinfinite⟩ : ∃ last, h.bounds.getLast? = some last ∧ IsInfinite last := by
    rw [bounds_observed]
    exact exists_getLast?_soundBounds _
  have hbounds : h.bounds = (make heading bounds).bounds := bounds_observed ..
  refine ⟨⟨last, hlast, hinfinite⟩, fun labels s hmem => ?_, fun value labels => ?_⟩
  · have htallied : Tallied h.bounds (valuesUnder labels calls) s := by
      have hnone : ((make heading bounds).series.map (·.1)).Nodup := List.nodup_nil
      have hnodup : (h.series.map (·.1)).Nodup := nodup_labels_observed hnone calls
      have hseries : h.seriesUnder labels = s := congrArg (Option.getD · _) (valueAt?_of_mem hnodup hmem)
      rw [← hseries, hbounds]
      exact tallied_observed rfl calls labels
    exact ⟨accounts_of_tallied htallied hlast hinfinite labels,
      htallied.sum_eq_count_iff hlast hinfinite⟩
  · have hok : (h.observe value labels).2 = .ok () ↔ isMeasured value = true :=
      (record_ok_iff ..).trans (isSome_bucketOf?_iff hlast hinfinite)
    refine ⟨hok, fun hfailed => ⟨_, valueAt?_observe .., count_record .., ?_⟩⟩
    rw [bucketCounts_record, bucketOf?_of_not_measured (Bool.not_eq_true _ ▸ mt hok.mpr hfailed)]

/-- A value that is no number is counted, and goes into no bucket. -/
theorem observed_notANumber :
    let h := (make { name := "h" } [.float infinity]).observed [(.float 1, [])]
    let next := h.observe (.float notANumber) []
    h.series.map (fun p => (p.1, p.2.count, p.2.bucketCounts)) = [([], 1, [1])] ∧
      next.2 = .error .noBucket ∧
      next.1.series.map (fun p => (p.1, p.2.count, p.2.bucketCounts)) = [([], 2, [1])] := by
  decide +kernel

end Histogram

end Coach.Metrics
