import Coach.Json.Reader
import Coach.Json.Writer
import Coach.Proofs.Number.Digits

/-!
# Strings survive being written as JSON

Whatever characters a string has, and whether those beyond ASCII are escaped or not, the reader gives
back the string between the quotes.

## Main statements

* `hex4?_hex4`: four hexadecimal digits stand for their number
* `readString_escapeChar`: one written character is read as that character
* `readString_escaped`: so is a whole string

## Design notes

A character past the first plane is written as two escapes, and the reader takes them for one
character only when the second follows at once.  The two halves are put together in
`readString_codeEscapes`; no other character is written as an escape that the reader would take for
such a half, because no character lies between the planes (`not_surrogate`).
-/

namespace Coach.Json

open Coach.Text

/-! ### Hexadecimal digits -/

theorem hexDigit_digitChar :
    ∀ d < 16, isHexDigit (Nat.digitChar d) = true ∧ hexValue (Nat.digitChar d) = d := by
  decide

theorem hex4_eq {n : Nat} (h : n < 0x10000) :
    hex4 n = [Nat.digitChar (n / 4096), Nat.digitChar (n / 256 % 16), Nat.digitChar (n / 16 % 16),
      Nat.digitChar (n % 16)] := by
  have hpadded : hex4 n = paddedDigits 16 4 n := rfl
  have htop : n / 16 / 16 / 16 < 16 := by omega
  rw [hpadded, paddedDigits_succ (by decide) (by decide), paddedDigits_succ (by decide) (by decide),
    paddedDigits_succ (by decide) (by decide), paddedDigits_one htop]
  simp [Nat.div_div_eq_div_mul]

/-- Four hexadecimal digits stand for their number. -/
theorem hex4?_hex4 {n : Nat} (h : n < 0x10000) (rest : List Char) :
    hex4? (hex4 n ++ rest) = some (n, rest) := by
  obtain ⟨h₁, v₁⟩ := hexDigit_digitChar (n / 4096) (by omega)
  obtain ⟨h₂, v₂⟩ := hexDigit_digitChar (n / 256 % 16) (by omega)
  obtain ⟨h₃, v₃⟩ := hexDigit_digitChar (n / 16 % 16) (by omega)
  obtain ⟨h₄, v₄⟩ := hexDigit_digitChar (n % 16) (by omega)
  have hvalue : ((n / 4096 * 16 + n / 256 % 16) * 16 + n / 16 % 16) * 16 + n % 16 = n := by omega
  rw [hex4_eq h]
  simp only [List.cons_append, List.nil_append, hex4?, h₁, h₂, h₃, h₄, v₁, v₂, v₃, v₄, hvalue,
    Bool.and_self, if_true]

theorem length_hex4 {n : Nat} (h : n < 0x10000) : (hex4 n).length = 4 := by
  rw [hex4_eq h]
  rfl

/-! ### Steps of the reader -/

section Steps

variable {start fuel : Nat} {done : List Char} {rest : List Char}

theorem readString_plain {c : Char} (hquote : c ≠ '"') (hslash : c ≠ '\\')
    (hcontrol : ¬ c.toNat ≤ 0x1F) :
    readString start (fuel + 1) done (c :: rest) = readString start fuel (c :: done) rest := by
  rw [readString.eq_def]
  dsimp only
  rw [if_neg hquote, if_neg hcontrol, if_pos hslash]

theorem readString_shortEscape {e c : Char} (hu : e ≠ 'u') (h : shortEscape? e = some c) :
    readString start (fuel + 1) done ('\\' :: e :: rest) = readString start fuel (c :: done) rest := by
  rw [readString, if_neg (by decide), if_neg (by decide), if_neg (by decide)]
  simp only [if_neg hu, h]

theorem not_isEmpty_drop_hex4 {n : Nat} (hn : n < 0x10000) (hrest : rest ≠ []) :
    ((hex4 n ++ rest).drop 4).isEmpty = false := by
  rw [← length_hex4 hn, List.drop_left]
  exact List.isEmpty_eq_false_iff.mpr hrest

/-- An escape by code, which stands for no half of a character. -/
theorem readString_codeEscape {n : Nat} (hn : n < 0x10000) (hbelow : n < 0xD800 ∨ 0xDFFF < n)
    (hrest : rest ≠ []) :
    readString start (fuel + 1) done (codeEscape n ++ rest) =
      readString start fuel (Char.ofNat n :: done) rest := by
  have hhigh : (decide (0xD800 ≤ n) && decide (n ≤ 0xDBFF)) = false := by
    rw [Bool.and_eq_false_iff, decide_eq_false_iff_not, decide_eq_false_iff_not]
    omega
  have hlow : (decide (0xDC00 ≤ n) && decide (n ≤ 0xDFFF)) = false := by
    rw [Bool.and_eq_false_iff, decide_eq_false_iff_not, decide_eq_false_iff_not]
    omega
  rw [codeEscape, List.cons_append, List.cons_append, readString, if_neg (by decide),
    if_neg (by decide), if_neg (by decide)]
  simp only [if_true, not_isEmpty_drop_hex4 hn hrest, Bool.false_eq_true, if_false,
    hex4?_hex4 hn rest, hhigh, hlow]

/-- Two escapes that stand for the halves of a character past the first plane. -/
theorem readString_codeEscapes {m : Nat} (hm : m < 0x100000) :
    readString start (fuel + 1) done
        (codeEscape (0xD800 + m / 0x400) ++ (codeEscape (0xDC00 + m % 0x400) ++ rest)) =
      readString start fuel (Char.ofNat (0x10000 + m) :: done) rest := by
  have hfirst : 0xD800 + m / 0x400 < 0x10000 := by omega
  have hsecond : 0xDC00 + m % 0x400 < 0x10000 := by omega
  have hhigh : (decide (0xD800 ≤ 0xD800 + m / 0x400) && decide (0xD800 + m / 0x400 ≤ 0xDBFF)) = true := by
    rw [Bool.and_eq_true, decide_eq_true_iff, decide_eq_true_iff]
    omega
  have hlow : (decide (0xDC00 ≤ 0xDC00 + m % 0x400) && decide (0xDC00 + m % 0x400 ≤ 0xDFFF)) = true := by
    rw [Bool.and_eq_true, decide_eq_true_iff, decide_eq_true_iff]
    omega
  have hpair : lowSurrogate? (codeEscape (0xDC00 + m % 0x400) ++ rest) =
      some (0xDC00 + m % 0x400, rest) := by
    simp only [codeEscape, List.cons_append, lowSurrogate?, hex4?_hex4 hsecond rest, hlow, if_true]
  have hcode : 0x10000 + (0xD800 + m / 0x400 - 0xD800) * 0x400 + (0xDC00 + m % 0x400 - 0xDC00) =
      0x10000 + m := by omega
  have htail : codeEscape (0xDC00 + m % 0x400) ++ rest ≠ [] := by simp [codeEscape]
  rw [codeEscape, List.cons_append, List.cons_append, readString, if_neg (by decide),
    if_neg (by decide), if_neg (by decide)]
  simp only [if_true, not_isEmpty_drop_hex4 hfirst htail, Bool.false_eq_true, if_false,
    hex4?_hex4 hfirst, hhigh, hpair, hcode]

/-- No character lies among the halves of others. -/
theorem not_surrogate (c : Char) : c.toNat < 0xD800 ∨ 0xDFFF < c.toNat ∧ c.toNat < 0x110000 :=
  c.valid

/-- One written character is read as that character. -/
theorem readString_escapeChar (ascii : Bool) (c : Char) (hrest : rest ≠ []) :
    readString start (fuel + 1) done (escapeChar ascii c ++ rest) =
      readString start fuel (c :: done) rest := by
  have hvalid := not_surrogate c
  have hcode : c.toNat < 0x10000 → readString start (fuel + 1) done (codeEscape c.toNat ++ rest) =
      readString start fuel (c :: done) rest := fun hplane => by
    rw [readString_codeEscape hplane (by omega) hrest, Char.ofNat_toNat]
  dsimp only [escapeChar]
  split
  · next hquote => subst hquote; exact readString_shortEscape (by decide) rfl
  split
  · next hslash => subst hslash; exact readString_shortEscape (by decide) rfl
  split
  · next hnewline => subst hnewline; exact readString_shortEscape (by decide) rfl
  split
  · next hreturn => subst hreturn; exact readString_shortEscape (by decide) rfl
  split
  · next htab => subst htab; exact readString_shortEscape (by decide) rfl
  split
  · next hfeed => subst hfeed; exact readString_shortEscape (by decide) rfl
  split
  · next hback => subst hback; exact readString_shortEscape (by decide) rfl
  next hquote hslash _ _ _ _ _ =>
  split
  · next hcontrol => exact hcode (by omega)
  split
  · next hcontrol _ => exact readString_plain hquote hslash (by omega)
  split
  · next hplane => exact hcode hplane
  · next hplane =>
    have hwhole : 0x10000 + (c.toNat - 0x10000) = c.toNat := by omega
    rw [List.append_assoc, readString_codeEscapes (by omega), hwhole, Char.ofNat_toNat]

theorem length_pos_escapeChar (ascii : Bool) (c : Char) : 0 < (escapeChar ascii c).length := by
  dsimp only [escapeChar]
  repeat' split
  all_goals exact Nat.succ_pos _

/-- The written characters of a string are read up to the closing quote. -/
theorem readString_escaped (ascii : Bool) (chars : List Char) (h : chars.length < fuel) :
    readString start fuel done (chars.flatMap (escapeChar ascii) ++ '"' :: rest) =
      .ok (String.ofList (done.reverse ++ chars), rest) := by
  induction chars generalizing done fuel with
  | nil =>
    obtain ⟨fuel, rfl⟩ : ∃ k, fuel = k + 1 := ⟨fuel - 1, by rw [List.length_nil] at h; omega⟩
    rw [List.flatMap_nil, List.nil_append, readString.eq_def]
    dsimp only
    rw [if_pos rfl, List.append_nil]
  | cons c chars ih =>
    rw [List.length_cons] at h
    obtain ⟨fuel, rfl⟩ : ∃ k, fuel = k + 1 := ⟨fuel - 1, by omega⟩
    rw [List.flatMap_cons, List.append_assoc, readString_escapeChar ascii c (by simp),
      ih (by omega), List.reverse_cons, List.append_assoc, List.singleton_append]

theorem length_le_escaped (ascii : Bool) (chars : List Char) :
    chars.length ≤ (chars.flatMap (escapeChar ascii)).length := by
  induction chars with
  | nil => exact Nat.le_refl _
  | cons c chars ih =>
    have := length_pos_escapeChar ascii c
    rw [List.flatMap_cons, List.length_append, List.length_cons]
    omega

/-- What stands between quotes and the closing quote. -/
def inQuotes (ascii : Bool) (s : String) : List Char :=
  s.toList.flatMap (escapeChar ascii) ++ ['"']

theorem quote_eq (ascii : Bool) (s : String) : quote ascii s = '"' :: inQuotes ascii s := rfl

/-- A string is read behind its opening quote. -/
theorem readString_inQuotes (ascii : Bool) (s : String) (rest : List Char) (start : Nat) :
    readString start ((inQuotes ascii s ++ rest).length + 1) [] (inQuotes ascii s ++ rest) =
      .ok (s, rest) := by
  have hlength := length_le_escaped ascii s.toList
  rw [inQuotes, List.append_assoc, List.singleton_append, readString_escaped, List.reverse_nil,
    List.nil_append, String.ofList_toList]
  rw [List.length_append]
  omega

end Steps

end Coach.Json
