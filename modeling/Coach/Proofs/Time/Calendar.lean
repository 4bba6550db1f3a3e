import Coach.Time.Stamp

/-!
# The dates of the calendar

The point in time that is some microseconds after the beginning of 1970 has a date of the calendar and a
time of day, as long as its year is written with four digits.

## Main definitions

* `IsDate`, `Stamp.IsUniversal`: a date of the calendar, and one with a time of day in universal time
* `Clock.InRange`: a clock that is about to show such a time

## Main statements

* `isDate_dateOfDay`: the date of a day
* `isUniversal_ofMicroseconds`

## Design notes

Years are counted from March.  A day of an era of 400 years is found in two steps: in a century, where
every fourth year has a leap day, and then in its year.
-/

namespace Coach.Time

/-- A date of the calendar in a year that is written with four digits. -/
structure IsDate (year month day : Nat) : Prop where
  one_le_year : 1 ≤ year
  year_le : year ≤ 9999
  one_le_month : 1 ≤ month
  month_le : month ≤ 12
  one_le_day : 1 ≤ day
  day_le : day ≤ daysOfMonth year month

/-- A date of the calendar with a time of day, in universal time. -/
structure Stamp.IsUniversal (s : Stamp) : Prop where
  date : IsDate s.year s.month s.day
  hour_lt : s.hour < 24
  minute_lt : s.minute < 60
  second_lt : s.second < 60
  microsecond_lt : s.microsecond < 1000000
  offset_eq : s.offset = some 0

/-- A day of a century: the year is one of a hundred, and the last day of a year of 366 days is one of
a fourth year. -/
theorem day_of_century {century day : Nat} (hcentury : century ≤ 3) (hday : day < 36524) :
    let year := (day - (24 * century + day) / 1460) / 365
    year ≤ 99 ∧ 365 * year + year / 4 ≤ day ∧ day ≤ 365 * year + year / 4 + 365 ∧
      (day = 365 * year + year / 4 + 365 → year % 4 = 3 ∧ year ≠ 99) := by
  intro year
  obtain rfl | rfl | rfl | rfl : century = 0 ∨ century = 1 ∨ century = 2 ∨ century = 3 := by omega
  all_goals refine ⟨?_, ?_, ?_, ?_⟩ <;> omega

/-- A day of an era. -/
theorem day_of_era {day : Nat} (hday : day < 146097) :
    let year := (day - day / 1460 + day / 36524 - day / 146096) / 365
    year ≤ 399 ∧ 365 * year + year / 4 - year / 100 ≤ day ∧
      day - (365 * year + year / 4 - year / 100) ≤ 365 ∧
      (day - (365 * year + year / 4 - year / 100) = 365 → isLeapYear (year + 1) = true) := by
  intro year
  by_cases hlast : day = 146096
  · have hyear : year = 399 := by omega
    rw [hyear, hlast]
    decide
  · obtain ⟨century, rest, hcentury, hrest, rfl⟩ :
        ∃ century rest, century ≤ 3 ∧ rest < 36524 ∧ day = 36524 * century + rest :=
      ⟨day / 36524, day % 36524, by omega, by omega, by omega⟩
    obtain ⟨hle, hbegin, hend, hleap⟩ := day_of_century hcentury hrest
    generalize hsmall : (rest - (24 * century + rest) / 1460) / 365 = small at hle hbegin hend hleap
    have hyear : year = 100 * century + small := by
      have hfirst : (36524 * century + rest) / 1460 = 25 * century + (24 * century + rest) / 1460 := by
        omega
      have hsecond : (36524 * century + rest) / 36524 = century := by omega
      have hthird : (36524 * century + rest) / 146096 = 0 := by omega
      have hnumber : 36524 * century + rest - (25 * century + (24 * century + rest) / 1460) + century
          - 0 = 365 * (100 * century) + (rest - (24 * century + rest) / 1460) := by omega
      change (36524 * century + rest - (36524 * century + rest) / 1460
        + (36524 * century + rest) / 36524 - (36524 * century + rest) / 146096) / 365 = _
      rw [hfirst, hsecond, hthird, hnumber, ← hsmall, Nat.mul_add_div (by decide)]
    clear_value year
    subst hyear
    have hbefore : 365 * (100 * century + small) + (100 * century + small) / 4
        - (100 * century + small) / 100 = 36524 * century + (365 * small + small / 4) := by
      have hfourths : (100 * century + small) / 4 = 25 * century + small / 4 := by omega
      have hcenturies : (100 * century + small) / 100 = century := by omega
      rw [hfourths, hcenturies]
      omega
    rw [hbefore]
    refine ⟨by omega, by omega, by omega, fun hday => ?_⟩
    obtain ⟨hfour, hne⟩ := hleap (by omega)
    have hfour' : (100 * century + small + 1) % 4 = 0 := by omega
    have hhundred : (100 * century + small + 1) % 100 ≠ 0 := by omega
    simp [isLeapYear, hfour', hhundred]

/-- A day of a year that begins with March. -/
theorem day_of_year : ∀ day < 366,
    let month := if (5 * day + 2) / 153 < 10 then (5 * day + 2) / 153 + 3 else (5 * day + 2) / 153 - 9
    let inMonth := day - (153 * ((5 * day + 2) / 153) + 2) / 5 + 1
    1 ≤ month ∧ month ≤ 12 ∧ (month ≤ 2 ↔ 306 ≤ day) ∧ 1 ≤ inMonth ∧
      inMonth ≤ if month = 2 then (if day = 365 then 29 else 28)
        else if [4, 6, 9, 11].contains month then 30 else 31 := by
  decide +kernel

theorem isLeapYear_add_eras (year era : Nat) : isLeapYear (year + 400 * era) = isLeapYear year := by
  have hfour : (year + 400 * era) % 4 = year % 4 := by omega
  have hhundred : (year + 400 * era) % 100 = year % 100 := by omega
  have hera : (year + 400 * era) % 400 = year % 400 := by omega
  rw [isLeapYear, isLeapYear, hfour, hhundred, hera]

/-- The date of a day from the first of the year 1 to the last of the year 9999. -/
theorem isDate_dateOfDay (day : Int) (hfirst : -719162 ≤ day) (hlast : day ≤ 2932896) :
    IsDate (Stamp.dateOfDay day).1 (Stamp.dateOfDay day).2.1 (Stamp.dateOfDay day).2.2 := by
  obtain ⟨era, inEra, hinEra, hday⟩ :
      ∃ era inEra : Nat, inEra < 146097 ∧ day + 719468 = 146097 * era + inEra :=
    ⟨((day + 719468) / 146097).toNat, ((day + 719468) % 146097).toNat, by omega, by omega⟩
  have hera : ((day + 719468) / 146097 * 400).toNat = 400 * era := by omega
  have hin : ((day + 719468) % 146097).toNat = inEra := by omega
  obtain ⟨hyear, hbegin, hend, hleap⟩ := day_of_era hinEra
  simp only [Stamp.dateOfDay, hera, hin]
  generalize (inEra - inEra / 1460 + inEra / 36524 - inEra / 146096) / 365 = year at *
  generalize hinYear : inEra - (365 * year + year / 4 - year / 100) = inYear at *
  obtain ⟨hone, htwelve, hmonth, hfirstDay, hlastDay⟩ := day_of_year inYear (by omega)
  generalize (if (5 * inYear + 2) / 153 < 10 then (5 * inYear + 2) / 153 + 3
    else (5 * inYear + 2) / 153 - 9) = month at *
  generalize inYear - (153 * ((5 * inYear + 2) / 153) + 2) / 5 + 1 = inMonth at *
  refine ⟨?_, ?_, hone, htwelve, hfirstDay, ?_⟩
  · split <;> omega
  · split <;> omega
  · rw [daysOfMonth]
    split at hlastDay
    · next hfebruary =>
      have heras : isLeapYear (400 * era + year + 1) = isLeapYear (year + 1) := by
        rw [Nat.add_assoc, Nat.add_comm, isLeapYear_add_eras]
      rw [if_pos hfebruary, if_pos (by omega : month ≤ 2), heras]
      split at hlastDay
      · next hleapDay =>
        rw [hleap hleapDay]
        exact hlastDay
      · refine Nat.le_trans hlastDay ?_
        split <;> decide
    · next hother =>
      rw [if_neg hother]
      exact hlastDay

/-- The points from the beginning of the year 1 to the end of the year 9999. -/
theorem isUniversal_ofMicroseconds {count : Int} (hfirst : -62135596800000000 ≤ count)
    (hlast : count < 253402300800000000) : (Stamp.ofMicroseconds count).IsUniversal where
  date := isDate_dateOfDay (count / 1000000 / 86400) (by omega) (by omega)
  hour_lt := by
    change (count / 1000000 % 86400).toNat / 3600 < 24
    omega
  minute_lt := Nat.mod_lt _ (by decide)
  second_lt := Nat.mod_lt _ (by decide)
  microsecond_lt := by
    change (count % 1000000).toNat < 1000000
    omega
  offset_eq := rfl

/-- A clock that is about to show a time of the years 1 to 9999. -/
def Clock.InRange (c : Clock) : Prop := -62135596800000000 ≤ c.next ∧ c.next < 253402300800000000

theorem Clock.InRange.isUniversal_read {c : Clock} (h : c.InRange) : c.read.1.IsUniversal :=
  isUniversal_ofMicroseconds h.1 h.2

end Coach.Time
