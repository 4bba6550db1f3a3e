import Coach.Program.Token
import Coach.Proofs.Number.Digits

/-!
# Integer literals

What a number token comes to when it is an integer: decimal digits of any script that are few enough to be
read, or hexadecimal ones, with or without the mark of a long.

## Main definitions

* `IntegerLiteral`: the integers that a token can be

## Main statements

* `numberValue_of_decimal`, `numberValue_of_hex`: digits are read as the integer that they stand for
* `IntegerLiteral.numberValue_text`: so is every integer literal

## Design notes

A token is read in lower case.  That changes no decimal digit, and no value of a hexadecimal one.
-/

namespace Coach.Program

open Coach.Text

/-- The marks of a long, and none. -/
def longMarks : List (List Char) := [[], ['l'], ['L']]

section Digits

variable {digits mark : List Char}

/-- In lower case, the mark of a long is one letter. -/
theorem map_toLower_mark (h : mark ∈ longMarks) :
    mark.map Char.toLower = [] ∨ mark.map Char.toLower = ['l'] := by
  simp only [longMarks, List.mem_cons, List.not_mem_nil, or_false] at h
  obtain rfl | rfl | rfl := h
  · exact Or.inl rfl
  · exact Or.inr rfl
  · exact Or.inr rfl

/-- Decimal digits are read as the integer that they stand for. -/
theorem numberValue_of_decimal (hne : digits ≠ []) (hdigits : ∀ c ∈ digits, isDecimal c = true)
    (hshort : digits.length ≤ digitLimit) (hmark : mark ∈ longMarks) :
    numberValue (digits ++ mark) = .ok (.int (ofDigits (digits.map digitValue))) := by
  have hsame : digits.map Char.toLower = digits :=
    (List.map_congr_left fun c hc => toLower_of_isDecimal (hdigits c hc)).trans (List.map_id _)
  have hvalue : decimalInt digits = .ok (ofDigits (digits.map digitValue) : Int) := by
    rw [decimalInt, readInt_of_decimal hne hdigits, if_neg (Nat.not_lt.mpr hshort)]
  have hno : ∀ {c : Char}, isDecimal c = false → c ∉ digits := fun hc hmem =>
    absurd (hdigits _ hmem) (by rw [hc]; decide)
  simp only [numberValue, List.map_append, hsame]
  split
  · next more heq =>
    have hx : 'x' ∈ digits ++ mark.map Char.toLower := by rw [heq]; simp
    refine absurd ((List.mem_append.mp hx).resolve_left (hno (by decide))) ?_
    rcases map_toLower_mark hmark with h | h <;> rw [h] <;> decide
  · obtain h | h := map_toLower_mark hmark
    · have hlong : digits.getLast? ≠ some 'l' := fun h => hno (by decide) (List.mem_of_getLast? h)
      have hdouble : digits.getLast?.elim false isDoubleMark = false := by
        cases hlast : digits.getLast? with
        | none => rfl
        | some c =>
          have hmem := List.mem_of_getLast? hlast
          have hf : c ≠ 'f' := by rintro rfl; exact hno (by decide) hmem
          have hd : c ≠ 'd' := by rintro rfl; exact hno (by decide) hmem
          simp [isDoubleMark, hf, hd]
      have hpoint : digits.contains '.' = false := by simpa using hno (c := '.') (by decide)
      have hpower : digits.contains 'e' = false := by simpa using hno (c := 'e') (by decide)
      rw [h, List.append_nil, if_neg hlong, hdouble, hpoint, hpower, hvalue]
      rfl
    · rw [h, if_pos List.getLast?_concat, List.dropLast_concat, hvalue]
      rfl

/-- What holds of every hexadecimal digit. -/
theorem of_isHexDigit {P : Char → Prop} (hall : ∀ c ∈ "0123456789abcdefABCDEF".toList, P c) {c : Char}
    (h : isHexDigit c = true) : P c := by
  have hcode : c.toNat ∈ "0123456789abcdefABCDEF".toList.map Char.toNat := by
    simp only [isHexDigit, Bool.or_eq_true, Bool.and_eq_true, decide_eq_true_eq, Char.isDigit_iff_toNat,
      Char.le_def, UInt32.le_iff_toNat_le] at h
    have hlist : "0123456789abcdefABCDEF".toList.map Char.toNat =
        [48, 49, 50, 51, 52, 53, 54, 55, 56, 57, 97, 98, 99, 100, 101, 102, 65, 66, 67, 68, 69, 70] := rfl
    rw [hlist]
    have hnat : c.val.toNat = c.toNat := rfl
    simp only [hnat, List.mem_cons, List.not_mem_nil, or_false] at h ⊢
    have hends : ('0'.toNat = 48 ∧ '9'.toNat = 57) ∧ ('a'.val.toNat = 97 ∧ 'f'.val.toNat = 102) ∧
        'A'.val.toNat = 65 ∧ 'F'.val.toNat = 70 := by decide
    omega
  obtain ⟨d, hd, hcd⟩ := List.mem_map.mp hcode
  exact Char.toNat_inj.mp hcd ▸ hall d hd

/-- In lower case, hexadecimal digits stand for the same number. -/
theorem ofHexDigits_map_toLower (hdigits : ∀ c ∈ digits, isHexDigit c = true) :
    ofHexDigits (digits.map Char.toLower) = ofHexDigits digits := by
  have hfold : ∀ text, ofHexDigits text = (text.map hexValue).foldl (fun n d => 16 * n + d) 0 :=
    fun text => List.foldl_map.symm
  have hvalues : (digits.map Char.toLower).map hexValue = digits.map hexValue := by
    rw [List.map_map]
    exact List.map_congr_left fun c hc =>
      of_isHexDigit (P := fun c => hexValue c.toLower = hexValue c) (by decide +kernel) (hdigits c hc)
  rw [hfold, hvalues, ← hfold]

/-- The mark of a long is no hexadecimal digit, and is cut off them. -/
theorem dropRightWhile_hex (hdigits : ∀ c ∈ digits, isHexDigit c = true) (hmark : mark ∈ longMarks) :
    dropRightWhile (· == 'l') ((digits ++ mark).map Char.toLower) = digits.map Char.toLower := by
  have hno : ∀ c ∈ (digits.map Char.toLower).reverse, (c == 'l') = false := by
    intro c hc
    obtain ⟨d, hd, rfl⟩ := List.mem_map.mp (List.mem_reverse.mp hc)
    exact of_isHexDigit (P := fun d => (d.toLower == 'l') = false) (by decide +kernel) (hdigits d hd)
  rw [List.map_append]
  obtain h | h := map_toLower_mark hmark <;>
    simp [dropRightWhile, h, dropWhile_eq_self hno]

/-- Hexadecimal digits are read as the integer that they stand for. -/
theorem numberValue_of_hex {x : Char} (hx : x = 'x' ∨ x = 'X')
    (hdigits : ∀ c ∈ digits, isHexDigit c = true) (hmark : mark ∈ longMarks) :
    numberValue ('0' :: x :: (digits ++ mark)) = .ok (.int (ofHexDigits digits)) := by
  have hlower : x.toLower = 'x' := by obtain rfl | rfl := hx <;> rfl
  have hzero : '0'.toLower = '0' := rfl
  simp only [numberValue, List.map_cons, hlower, hzero, dropRightWhile_hex hdigits hmark,
    ofHexDigits_map_toLower hdigits]

end Digits

/-! ### Literals -/

/-- An integer literal: decimal digits that are few enough to be read, or hexadecimal ones. -/
inductive IntegerLiteral where
  | decimal (digits mark : List Char) (nonempty : digits ≠ [])
    (areDecimal : ∀ c ∈ digits, isDecimal c = true) (areFew : digits.length ≤ digitLimit)
    (isMark : mark ∈ longMarks)
  | hex (x : Char) (digits mark : List Char) (isX : x = 'x' ∨ x = 'X') (nonempty : digits ≠ [])
    (areHex : ∀ c ∈ digits, isHexDigit c = true) (isMark : mark ∈ longMarks)

namespace IntegerLiteral

/-- A literal as it is written. -/
def text : IntegerLiteral → List Char
  | .decimal digits mark .. => digits ++ mark
  | .hex x digits mark .. => '0' :: x :: (digits ++ mark)

/-- The integer that a literal stands for. -/
def number : IntegerLiteral → Nat
  | .decimal digits .. => ofDigits (digits.map digitValue)
  | .hex _ digits .. => ofHexDigits digits

/-- A literal is read as the integer that it stands for. -/
theorem numberValue_text (n : IntegerLiteral) : numberValue n.text = .ok (.int n.number) := by
  cases n with
  | decimal digits mark hne hdigits hfew hmark => exact numberValue_of_decimal hne hdigits hfew hmark
  | hex x digits mark hx _ hdigits hmark => exact numberValue_of_hex hx hdigits hmark

/-- The literal `1`. -/
def one : IntegerLiteral :=
  .decimal ['1'] [] (List.cons_ne_nil _ _) (by decide) (by decide) List.mem_cons_self

theorem number_one : one.number = 1 := by decide

end IntegerLiteral

end Coach.Program
