import Coach.Number.Decimal
import Coach.Number.Reading
import Coach.Proofs.Text.Blank

/-!
# Integers read from digits

A text of decimal digits is read as the integer that they stand for, unless there are too many of them;
and the digits of a number stand for that number.

## Main statements

* `readInt_of_decimal`: what is read from digits
* `exists_readInt_iff`: digits are read unless there are too many
* `readInt_natDigits`: the digits of a number are read as that number
-/

namespace Coach

open Coach.Text

/-- The value of a digit, and zero for other characters. -/
def digitValue (c : Char) : Nat := (digitValue? c).getD 0

theorem digitValue?_of_isDecimal {c : Char} (h : isDecimal c = true) :
    digitValue? c = some (digitValue c) := by
  obtain ⟨d, hd⟩ := Option.isSome_iff_exists.mp h
  rw [digitValue, hd]
  rfl

/-- A run of digits goes on to the end of a text of digits. -/
theorem digitRun_of_decimal {text : List Char} (h : ∀ c ∈ text, isDecimal c = true) :
    digitRun text = (text.map digitValue, []) := by
  induction text with
  | nil => rfl
  | cons c rest ih =>
    have hc := digitValue?_of_isDecimal (h c List.mem_cons_self)
    have hrest := ih fun x hx => h x (List.mem_cons_of_mem c hx)
    cases rest with
    | nil => simp [digitRun, hc]
    | cons next rest =>
      have hnext : next ≠ '_' := by
        rintro rfl
        exact absurd (h '_' (by simp)) (by decide)
      simp [digitRun, hc, hnext, hrest]

/-- A run that goes on to the end of a text has only digits and underscores. -/
theorem decimal_of_digitRun {text : List Char} {digits : List Nat} (h : digitRun text = (digits, [])) :
    ∀ c ∈ text, isDecimal c = true ∨ c = '_' := by
  have hdecimal : ∀ {c : Char} {d : Nat}, digitValue? c = some d → isDecimal c = true := fun hd => by
    rw [isDecimal, hd]
    rfl
  fun_induction digitRun text generalizing digits with
  | case1 => exact nofun
  | case2 c d hd =>
    intro x hx
    rw [List.mem_singleton.mp hx]
    exact Or.inl (hdecimal hd)
  | case3 c hd => cases h
  | case4 c next rest hd => cases h
  | case5 => nomatch h
  | case6 c rest d hd ds tail _ hrun ih =>
    obtain ⟨-, rfl⟩ := Prod.mk.inj h
    exact List.forall_mem_cons.mpr ⟨.inl (hdecimal hd), List.forall_mem_cons.mpr ⟨.inr rfl, ih hrun⟩⟩
  | case7 c next rest d hd _ ds tail hrun ih =>
    obtain ⟨-, rfl⟩ := Prod.mk.inj h
    exact List.forall_mem_cons.mpr ⟨.inl (hdecimal hd), ih hrun⟩

theorem splitSign_of_decimal {text : List Char} (h : ∀ c ∈ text, isDecimal c = true) :
    splitSign text = (false, text) := by
  unfold splitSign
  split
  · exact absurd (h '-' List.mem_cons_self) (by decide)
  · exact absurd (h '+' List.mem_cons_self) (by decide)
  · rfl

/-- What is read from decimal digits. -/
theorem readInt_of_decimal {text : List Char} (hne : text ≠ [])
    (h : ∀ c ∈ text, isDecimal c = true) :
    readInt text =
      if digitLimit < text.length then .error (.tooManyDigits text.length)
      else .ok (ofDigits (text.map digitValue)) := by
  have hblank : ∀ c ∈ text, isNumberBlank c = false := fun c hc => by
    rw [isNumberBlank, not_isSpace_of_isDecimal (h c hc), Bool.false_and]
  obtain ⟨d, ds, hds⟩ := List.exists_cons_of_ne_nil (mt List.map_eq_nil_iff.mp hne :
    text.map digitValue ≠ [])
  have hlength : (d :: ds).length = text.length := by rw [← hds, List.length_map]
  simp only [readInt, stripBy_eq_self hblank, splitSign_of_decimal h, digitRun_of_decimal h, hds,
    hlength]
  rfl

/-- Decimal digits are read unless there are too many of them. -/
theorem exists_readInt_iff {text : List Char} (hne : text ≠ [])
    (h : ∀ c ∈ text, isDecimal c = true) :
    (∃ n, readInt text = .ok n) ↔ text.length ≤ digitLimit := by
  rw [readInt_of_decimal hne h]
  split
  · next hlong => exact iff_of_false nofun (by omega)
  · next hshort => exact iff_of_true ⟨_, rfl⟩ (by omega)

/-! ### The digits of a number -/

theorem isDigit_of_mem_natDigits {n : Nat} {c : Char} (h : c ∈ natDigits n) : c.isDigit = true :=
  Nat.isDigit_of_mem_toDigits (by decide) (by decide) h

theorem natDigits_ne_nil (n : Nat) : natDigits n ≠ [] := Nat.toDigits_ne_nil

theorem digitValue?_of_isDigit {c : Char} (h : c.isDigit = true) :
    digitValue? c = some (c.toNat - 0x30) := by
  have hlow : c.toNat < 0x80 := Nat.lt_of_le_of_lt (Char.isDigit_iff_toNat.mp h).2 (by decide)
  simp only [digitValue?, hlow, h, if_true]

theorem isDecimal_of_isDigit {c : Char} (h : c.isDigit = true) : isDecimal c = true := by
  rw [isDecimal, digitValue?_of_isDigit h]
  rfl

/-- A digit of any script is no letter. -/
theorem toLower_of_isDecimal {c : Char} (h : isDecimal c = true) : c.toLower = c := by
  have hnot : ¬ (c.val ≥ 'A'.val ∧ c.val ≤ 'Z'.val) := by
    rintro ⟨hfirst, hlast⟩
    have hlow : c.toNat < 0x80 := Nat.lt_of_le_of_lt (UInt32.le_iff_toNat_le.mp hlast) (by decide)
    have hdigit : c.isDigit = true := by
      rw [isDecimal, digitValue?, if_pos hlow] at h
      cases hc : c.isDigit with
      | true => rfl
      | false =>
        rw [hc] at h
        cases h
    have hle : c.toNat ≤ 57 := (Char.isDigit_iff_toNat.mp hdigit).2
    exact absurd (UInt32.le_iff_toNat_le.mp hfirst) (Nat.not_le.mpr (Nat.lt_of_le_of_lt hle (by decide)))
  exact dif_neg hnot

/-- The digits of a number stand for it. -/
theorem ofDigits_natDigits (n : Nat) : ofDigits ((natDigits n).map digitValue) = n := by
  have hvalue : (natDigits n).map digitValue = (natDigits n).map fun c => c.toNat - 0x30 := by
    refine List.map_congr_left fun c hc => ?_
    rw [digitValue, digitValue?_of_isDigit (isDigit_of_mem_natDigits hc)]
    rfl
  have hread : Nat.ofDigitChars 10 (natDigits n) 0 = n :=
    Nat.ofDigitChars_toDigits (by decide) (by decide)
  rw [ofDigits, hvalue, List.foldl_map]
  exact hread

/-- The digits of a number are read as that number. -/
theorem readInt_natDigits {n : Nat} (h : (natDigits n).length ≤ digitLimit) :
    readInt (natDigits n) = .ok (n : Int) := by
  have hdecimal : ∀ c ∈ natDigits n, isDecimal c = true := fun c hc =>
    isDecimal_of_isDigit (isDigit_of_mem_natDigits hc)
  rw [readInt_of_decimal (natDigits_ne_nil n) hdecimal, if_neg (Nat.not_lt.mpr h), ofDigits_natDigits]

theorem ofNatDigits_natDigits (n : Nat) : ofNatDigits (natDigits n) = n :=
  Nat.ofDigitChars_toDigits (by decide) (by decide)

/-- Only zero itself begins with a zero. -/
theorem eq_nil_of_natDigits_zero {n : Nat} {more : List Char} (h : natDigits n = '0' :: more) :
    more = [] := by
  induction n using Nat.strongRecOn generalizing more with
  | _ n ih =>
    by_cases hsmall : n < 10
    · rw [natDigits, Nat.toDigits_of_lt_base hsmall] at h
      exact (List.cons.inj h).2.symm
    · obtain ⟨c, rest, hrest⟩ := List.exists_cons_of_ne_nil (natDigits_ne_nil (n / 10))
      have hn : natDigits n = natDigits (n / 10) ++ [Nat.digitChar (n % 10)] :=
        Nat.toDigits_of_base_le (by decide) (by omega)
      rw [hn, hrest, List.cons_append] at h
      obtain ⟨rfl, -⟩ := List.cons.inj h
      obtain rfl := ih (n / 10) (by omega) hrest
      have hzero : n / 10 = 0 := by
        rw [← ofNatDigits_natDigits (n / 10), hrest]
        rfl
      omega

/-- The digits of a number with leading zeros. -/
def paddedDigits (base width n : Nat) : List Char :=
  List.replicate (width - (Nat.toDigits base n).length) '0' ++ Nat.toDigits base n

theorem paddedDigits_one {base n : Nat} (h : n < base) : paddedDigits base 1 n = [Nat.digitChar n] := by
  rw [paddedDigits, Nat.toDigits_of_lt_base h]
  rfl

/-- The last digit of a number with leading zeros. -/
theorem paddedDigits_succ {base width : Nat} (hbase : 1 < base) (hwidth : 0 < width) (n : Nat) :
    paddedDigits base (width + 1) n =
      paddedDigits base width (n / base) ++ [Nat.digitChar (n % base)] := by
  by_cases h : n < base
  · obtain ⟨width, rfl⟩ : ∃ k, width = k + 1 := ⟨width - 1, by omega⟩
    rw [paddedDigits, paddedDigits, Nat.toDigits_of_lt_base h, Nat.div_eq_of_lt h,
      Nat.mod_eq_of_lt h, Nat.toDigits_zero]
    simp [List.replicate_succ']
  · rw [paddedDigits, paddedDigits, Nat.toDigits_of_base_le hbase (by omega), List.length_append,
      List.length_singleton, Nat.add_sub_add_right, List.append_assoc]

end Coach
