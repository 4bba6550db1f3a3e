import Coach.Proofs.Number.Digits
import Coach.Proofs.Time.Calendar

/-!
# Points in time are read back

A point in universal time is read back from both of its written forms.

## Main statements

* `number?_padded`, `date?_padded`, `seconds?_padded`: the parts of a point in time
* `ofText?_text`, `ofText?_zuluText`
-/

namespace Coach

theorem length_paddedDigits {width n : Nat} (hwidth : 0 < width) (h : n < tenTo width) :
    (paddedDigits 10 width n).length = width := by
  have hlength := (Nat.length_toDigits_le_iff (by decide : 1 < 10) hwidth).mpr h
  rw [paddedDigits, List.length_append, List.length_replicate]
  omega

theorem isDigit_of_mem_paddedDigits {width n : Nat} {c : Char} (h : c ∈ paddedDigits 10 width n) :
    c.isDigit = true := by
  rcases List.mem_append.mp h with h | h
  · rw [List.eq_of_mem_replicate h]
    rfl
  · exact isDigit_of_mem_natDigits h

theorem ofNatDigits_paddedDigits (width n : Nat) : ofNatDigits (paddedDigits 10 width n) = n := by
  have happend := Nat.ofDigitChars_append (b := 10)
    (l := List.replicate (width - (natDigits n).length) '0') (m := natDigits n) 0
  rw [Nat.ofDigitChars_replicate_zero, Nat.mul_zero] at happend
  exact happend.trans (ofNatDigits_natDigits n)

namespace Time.Stamp

/-- A number of a fixed width is read back, whatever follows. -/
theorem number?_padded {width n : Nat} (hwidth : 0 < width) (h : n < tenTo width) (rest : List Char) :
    number? width ((padded width n).toList ++ rest) = some (n, rest) := by
  have hpadded : (padded width n).toList = paddedDigits 10 width n := String.toList_ofList
  have hlength := length_paddedDigits hwidth h
  have hdigits : (paddedDigits 10 width n).all Char.isDigit = true :=
    List.all_eq_true.mpr fun _ hc => isDigit_of_mem_paddedDigits hc
  rw [hpadded, number?, List.take_left' hlength, List.drop_left' hlength, hlength, hdigits,
    ofNatDigits_paddedDigits]
  simp

/-- What may stand behind the time of day. -/
def EndsFraction (rest : List Char) : Prop :=
  ∀ c, rest.head? = some c → c.isDigit = false ∧ c ≠ '.' ∧ c ≠ ','

theorem fraction?_padded {microsecond : Nat} (h : microsecond < tenTo 6) {rest : List Char}
    (hrest : EndsFraction rest) :
    fraction? ((padded 6 microsecond).toList ++ rest) = some (microsecond, rest) := by
  have hpadded : (padded 6 microsecond).toList = paddedDigits 10 6 microsecond := String.toList_ofList
  have hlength := length_paddedDigits (by decide) h
  have hdigits : ∀ c ∈ paddedDigits 10 6 microsecond, c.isDigit = true :=
    fun _ hc => isDigit_of_mem_paddedDigits hc
  have htake : (paddedDigits 10 6 microsecond ++ rest).takeWhile Char.isDigit =
      paddedDigits 10 6 microsecond := by
    rw [List.takeWhile_append_of_pos hdigits]
    cases rest with
    | nil => exact List.append_nil _
    | cons c tail => rw [List.takeWhile_cons_of_neg (by simp [(hrest c rfl).1]), List.append_nil]
  have hdrop : (paddedDigits 10 6 microsecond ++ rest).dropWhile Char.isDigit = rest := by
    rw [List.dropWhile_append_of_pos hdigits]
    cases rest with
    | nil => rfl
    | cons c tail => rw [List.dropWhile_cons_of_neg (by simp [(hrest c rfl).1])]
  have hempty : (paddedDigits 10 6 microsecond).isEmpty = false := by
    rw [← Bool.not_eq_true, List.isEmpty_iff_length_eq_zero, hlength]
    decide
  rw [hpadded, fraction?]
  simp only [htake, hdrop, hempty, List.take_of_length_le (Nat.le_of_eq hlength), hlength, ofNatDigits_paddedDigits]
  simp [tenTo]

/-- The seconds with their fraction, if they have one. -/
theorem seconds?_padded {second microsecond : Nat} (hsecond : second < 60)
    (hmicrosecond : microsecond < tenTo 6) {rest : List Char} (hrest : EndsFraction rest) :
    seconds? (':' :: ((padded 2 second).toList ++
      ((if microsecond = 0 then "" else s!".{padded 6 microsecond}").toList ++ rest))) =
      some ((second, microsecond), rest) := by
  have hfits : ¬ second > 59 := by omega
  rw [seconds?, number?_padded (by decide) (Nat.lt_trans hsecond (by decide)), Option.bind_eq_bind,
    Option.bind_some]
  dsimp only
  rw [if_neg hfits]
  by_cases hzero : microsecond = 0
  · rw [if_pos hzero, hzero]
    cases rest with
    | nil => rfl
    | cons c tail =>
      obtain ⟨-, hpoint, hcomma⟩ := hrest c rfl
      simp [hpoint, hcomma]
  · have htext : (s!".{padded 6 microsecond}").toList = '.' :: (padded 6 microsecond).toList := by
      simp [toString]
    rw [if_neg hzero, htext, List.cons_append]
    dsimp only
    rw [if_pos (by decide), fraction?_padded hmicrosecond hrest]
    rfl

theorem daysOfMonth_le (year month : Nat) : daysOfMonth year month ≤ 31 := by
  rw [daysOfMonth]
  split
  · split <;> decide
  · split <;> decide

/-- A date of the calendar is read back, whatever follows. -/
theorem date?_padded {year month day : Nat} (h : IsDate year month day) (rest : List Char) :
    date? ((padded 4 year).toList ++ ('-' :: ((padded 2 month).toList ++
      ('-' :: ((padded 2 day).toList ++ rest))))) = some ({ year, month, day }, rest) := by
  obtain ⟨hyear, hyear', hmonth, hmonth', hday, hday'⟩ := h
  have hfour : tenTo 4 = 10000 := rfl
  have htwo : tenTo 2 = 100 := rfl
  have hlongest := daysOfMonth_le year month
  have hyearFits : year < tenTo 4 := by omega
  have hmonthFits : month < tenTo 2 := by omega
  have hdayFits : day < tenTo 2 := by omega
  simp only [date?, number?_padded (by decide : 0 < 4) hyearFits,
    number?_padded (by decide : 0 < 2) hmonthFits, number?_padded (by decide : 0 < 2) hdayFits,
    skip?, if_true, Option.bind_eq_bind, Option.bind_some]
  simp [hyear, hmonth, hmonth', hday, hday']

theorem toList_localText (s : Stamp) (zone : List Char) : s.localText.toList ++ zone =
    (padded 4 s.year).toList ++ ('-' :: ((padded 2 s.month).toList ++ ('-' :: ((padded 2 s.day).toList ++
      ('T' :: ((padded 2 s.hour).toList ++ (':' :: ((padded 2 s.minute).toList ++
        (':' :: ((padded 2 s.second).toList ++
          ((if s.microsecond = 0 then "" else s!".{padded 6 s.microsecond}").toList ++ zone))))))))))) := by
  have hdash : "-".toList = ['-'] := rfl
  have hmark : "T".toList = ['T'] := rfl
  have hcolon : ":".toList = [':'] := rfl
  simp only [localText, toString, String.toList_append, List.append_assoc, hdash, hmark, hcolon,
    List.cons_append, List.nil_append]

variable {s : Stamp}

/-- A date and a time of day are read back, with what follows for an offset. -/
theorem dateTime?_localText (h : s.IsUniversal) {zone : List Char} (hzone : EndsFraction zone)
    (hoffset : offset? zone = some (some 0, [])) : dateTime? (s.localText.toList ++ zone) = some s := by
  have htwo : tenTo 2 = 100 := rfl
  have hhour := h.hour_lt
  have hminute := h.minute_lt
  have hhourFits : s.hour < tenTo 2 := by omega
  have hminuteFits : s.minute < tenTo 2 := by omega
  rw [toList_localText, dateTime?, date?_padded h.date]
  simp only [number?_padded (by decide : 0 < 2) hhourFits,
    number?_padded (by decide : 0 < 2) hminuteFits, skip?, if_true,
    seconds?_padded h.second_lt h.microsecond_lt hzone, hoffset, Option.bind_eq_bind, Option.bind_some]
  rw [if_pos (by decide), if_pos (by simp [hhour, hminute]), ← h.offset_eq]

theorem ofText?_localText (h : s.IsUniversal) {zone : String} (hzone : EndsFraction zone.toList)
    (hoffset : offset? zone.toList = some (some 0, [])) :
    ofText? (s.localText ++ zone).toList = some s := by
  rw [String.toList_append, ofText?, dateTime?_localText h hzone hoffset]

/-- A point in universal time is read back when it is written with a `Z`. -/
theorem ofText?_zuluText (h : s.IsUniversal) : ofText? s.zuluText.toList = some s := by
  rw [zuluText, h.offset_eq]
  exact ofText?_localText h (by rintro c ⟨⟩; decide) (by decide)

end Time.Stamp

end Coach
