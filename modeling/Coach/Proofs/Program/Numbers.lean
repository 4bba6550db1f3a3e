import Coach.Program.Token
import Coach.Proofs.Text.Blank
import Coach.Proofs.Text.Parts
import Mathlib.Data.List.TakeWhile

/-!
# Numbers as they are written

The scanner measures how far the number goes that a text begins with.  What it finds is a number of one
of four forms, and a number of any of them is found again, to its last character, in front of a break.

## Main definitions

* `AtBreak`: the end of a text, or a space
* `IsMark`, `IsPower`: suffixes, signs and exponents
* `IsHexNumber`, `IsDecimalNumber`: the four forms

## Main statements

* `exists_of_numberLength?`: what is measured is a number
* `numberLength?_of_isHexNumber`, `numberLength?_of_isDecimalNumber`: a number is measured whole

## Design notes

Both directions go part by part, with one lemma about what a part takes and one about what it leaves.
What may stand behind a part is only said by its first character.
-/

namespace Coach.Program

open Coach.Text

/-! ### Breaks -/

/-- The end of a text, or a space in it. -/
inductive AtBreak : List Char → Prop
  | nil : AtBreak []
  | space (rest : List Char) : AtBreak (' ' :: rest)

theorem AtBreak.not_of_head {p : Char → Bool} (hspace : p ' ' = false) {after : List Char}
    (h : AtBreak after) : ∀ c ∈ after.head?, p c = false := by
  intro c hc
  cases h with
  | nil => cases hc
  | space rest =>
    obtain rfl := Option.some.inj hc
    exact hspace

/-! ### Marks -/

/-- One of some characters, or nothing. -/
def IsMark (chars : String) (mark : List Char) : Prop := mark = [] ∨ ∃ c ∈ chars.toList, mark = [c]

variable {chars : String} {mark after text : List Char}

theorem takeOneOf_spec (chars : String) (text : List Char) :
    IsMark chars (takeOneOf chars text).1 ∧
      (takeOneOf chars text).1 ++ (takeOneOf chars text).2 = text := by
  cases text with
  | nil => exact ⟨.inl rfl, rfl⟩
  | cons c rest =>
    rw [takeOneOf]
    split
    · next hmem => exact ⟨.inr ⟨c, List.contains_iff_mem.mp hmem, rfl⟩, rfl⟩
    · exact ⟨.inl rfl, rfl⟩

theorem takeOneOf_of_head (h : ∀ c ∈ text.head?, chars.toList.contains c = false) :
    takeOneOf chars text = ([], text) := by
  cases text with
  | nil => rfl
  | cons c rest => rw [takeOneOf, if_neg (by simp only [h c rfl, Bool.false_eq_true, not_false_eq_true])]

theorem IsMark.takeOneOf (h : IsMark chars mark)
    (hafter : ∀ c ∈ after.head?, chars.toList.contains c = false) :
    Program.takeOneOf chars (mark ++ after) = (mark, after) := by
  obtain rfl | ⟨c, hc, rfl⟩ := h
  · exact takeOneOf_of_head hafter
  · exact if_pos (List.contains_iff_mem.mpr hc)

/-- What stands behind a mark, or before it, is told from what is no mark. -/
theorem IsMark.not_of_head (h : IsMark chars mark) {p : Char → Bool}
    (hchars : ∀ c ∈ chars.toList, p c = false) (hafter : ∀ c ∈ after.head?, p c = false) :
    ∀ c ∈ (mark ++ after).head?, p c = false := by
  obtain rfl | ⟨d, hd, rfl⟩ := h
  · exact hafter
  · intro c hc
    obtain rfl := Option.some.inj hc
    exact hchars d hd

/-! ### Exponents -/

/-- A letter, a sign or none, and digits. -/
inductive IsPower : List Char → Prop
  | mk {e : Char} {sign digits : List Char} (he : e ∈ "eE".toList) (hsign : IsMark "+-" sign)
    (hne : digits ≠ []) (hdigits : ∀ c ∈ digits, isDecimal c = true) : IsPower (e :: (sign ++ digits))

variable {power : List Char}

theorem IsPower.ne_nil (h : IsPower power) : power ≠ [] := by
  cases h
  exact List.cons_ne_nil _ _

/-- What an exponent begins with. -/
theorem IsPower.not_of_head (h : IsPower power) {p : Char → Bool} (hletters : ∀ c ∈ "eE".toList, p c = false)
    (after : List Char) : ∀ c ∈ (power ++ after).head?, p c = false := by
  cases h with
  | mk he =>
    intro c hc
    obtain rfl := Option.some.inj hc
    exact hletters _ he

theorem IsPower.takeExponent (h : IsPower power) (hafter : ∀ c ∈ after.head?, isDecimal c = false) :
    Program.takeExponent (power ++ after) = (power, after) := by
  cases h with
  | @mk e sign digits he hsign hne hdigits =>
    have hmark : takeOneOf "eE" (e :: (sign ++ (digits ++ after))) = ([e], sign ++ (digits ++ after)) :=
      if_pos (List.contains_iff_mem.mpr he)
    have hhead : ∀ c ∈ (digits ++ after).head?, "+-".toList.contains c = false := by
      obtain ⟨d, more, rfl⟩ := List.exists_cons_of_ne_nil hne
      intro c hc
      obtain rfl := Option.some.inj hc
      rw [← Bool.not_eq_true, List.contains_iff_mem]
      intro hmem
      have hsigns : ∀ c ∈ "+-".toList, isDecimal c = false := by decide
      exact absurd (hdigits d List.mem_cons_self) (by simp [hsigns d hmem])
    have hempty : digits.isEmpty = false := by simpa using hne
    rw [List.cons_append, List.append_assoc]
    simp only [Program.takeExponent, hmark, hsign.takeOneOf hhead, takeDigits, takeWhile_run hdigits hafter,
      hempty, List.isEmpty_cons, Bool.or_self, Bool.false_eq_true, if_false, List.cons_append, List.nil_append]

theorem takeExponent_of_head (h : ∀ c ∈ text.head?, "eE".toList.contains c = false) :
    takeExponent text = ([], text) := by
  simp only [takeExponent, takeOneOf_of_head h, List.isEmpty_nil, Bool.true_or, if_true]

theorem takeDigits_spec (text : List Char) :
    (∀ c ∈ (takeDigits text).1, isDecimal c = true) ∧ (takeDigits text).1 ++ (takeDigits text).2 = text :=
  ⟨fun _ hc => List.mem_takeWhile_imp hc, List.takeWhile_append_dropWhile⟩

/-- An exponent is found, or nothing is taken. -/
theorem takeExponent_spec (text : List Char) :
    takeExponent text = ([], text) ∨
      IsPower (takeExponent text).1 ∧ (takeExponent text).1 ++ (takeExponent text).2 = text := by
  obtain ⟨hmark, htext⟩ := takeOneOf_spec "eE" text
  unfold takeExponent
  generalize takeOneOf "eE" text = cut at hmark htext
  obtain ⟨mark, behind⟩ := cut
  obtain ⟨hsign, hbehind⟩ := takeOneOf_spec "+-" behind
  dsimp only at hmark htext ⊢
  generalize takeOneOf "+-" behind = cut at hsign hbehind
  obtain ⟨sign, rest⟩ := cut
  obtain ⟨hdigits, hrest⟩ := takeDigits_spec rest
  dsimp only at hsign hbehind ⊢
  generalize takeDigits rest = cut at hdigits hrest
  obtain ⟨digits, after⟩ := cut
  dsimp only at hdigits hrest ⊢
  split
  · exact .inl rfl
  · next hsome =>
    rw [Bool.or_eq_true, not_or, List.isEmpty_iff, List.isEmpty_iff] at hsome
    obtain ⟨e, he, rfl⟩ := hmark.resolve_left hsome.1
    refine .inr ⟨.mk he hsign hsome.2 hdigits, ?_⟩
    rw [← htext, ← hbehind, ← hrest, List.append_assoc, List.append_assoc]

/-- An exponent or none, in front of a mark, is taken again. -/
theorem takeExponent_append (hpower : power = [] ∨ IsPower power) (hmark : IsMark chars mark)
    (hchars : ∀ c ∈ chars.toList, "eE".toList.contains c = false ∧ isDecimal c = false)
    (hafter : AtBreak after) :
    takeExponent (power ++ (mark ++ after)) = (power, mark ++ after) := by
  obtain rfl | hpower := hpower
  · exact takeExponent_of_head
      (hmark.not_of_head (fun c hc => (hchars c hc).1) (hafter.not_of_head (by decide)))
  · exact hpower.takeExponent
      (hmark.not_of_head (fun c hc => (hchars c hc).2) (hafter.not_of_head (by decide)))

/-! ### Numbers -/

/-- Hexadecimal digits behind their sign, and perhaps the mark of a long. -/
inductive IsHexNumber : List Char → Prop
  | mk {x : Char} {digits mark : List Char} (hx : x = 'x' ∨ x = 'X') (hne : digits ≠ [])
    (hdigits : ∀ c ∈ digits, isHexDigit c = true) (hmark : IsMark "lL" mark) :
    IsHexNumber ('0' :: x :: (digits ++ mark))

/-- Decimal digits with a point in them or beside them, or with an exponent, or alone; and perhaps a mark
of the type. -/
inductive IsDecimalNumber : List Char → Prop
  | point {whole places power mark : List Char} (hwhole : ∀ c ∈ whole, isDecimal c = true)
    (hplaces : ∀ c ∈ places, isDecimal c = true) (hne : whole ≠ [] ∨ places ≠ [])
    (hpower : power = [] ∨ IsPower power) (hmark : IsMark "fFdD" mark) :
    IsDecimalNumber (whole ++ '.' :: (places ++ (power ++ mark)))
  | power {whole power mark : List Char} (hwhole : ∀ c ∈ whole, isDecimal c = true) (hne : whole ≠ [])
    (hpower : IsPower power) (hmark : IsMark "fFdD" mark) : IsDecimalNumber (whole ++ (power ++ mark))
  | plain {whole mark : List Char} (hwhole : ∀ c ∈ whole, isDecimal c = true) (hne : whole ≠ [])
    (hmark : IsMark "fFdDlL" mark) : IsDecimalNumber (whole ++ mark)

variable {number : List Char}

/-! ### What is measured -/

theorem exists_of_hexLength? {n : Nat} (h : hexLength? text = some n) :
    ∃ number after, text = number ++ after ∧ number.length = n ∧ IsHexNumber number := by
  unfold hexLength? at h
  split at h
  · next x rest =>
    dsimp only at h
    split at h
    · next hx =>
      simp only [Bool.and_eq_true, Bool.or_eq_true, decide_eq_true_eq, Bool.not_eq_true',
        List.isEmpty_eq_false_iff] at hx
      obtain ⟨hmark, hrest⟩ := takeOneOf_spec "lL" (rest.dropWhile isHexDigit)
      obtain rfl := Option.some.inj h
      refine ⟨_, (takeOneOf "lL" (rest.dropWhile isHexDigit)).2, ?_, ?_,
        .mk hx.1 hx.2 (fun c hc => List.mem_takeWhile_imp hc) hmark⟩
      · simp only [List.cons_append, List.append_assoc, hrest, List.takeWhile_append_dropWhile]
      · simp only [List.length_cons, List.length_append]
        omega
    · cases h
  · cases h

theorem exists_of_decimalLength? {n : Nat} (h : decimalLength? text = some n) :
    ∃ number after, text = number ++ after ∧ number.length = n ∧ IsDecimalNumber number := by
  unfold decimalLength? at h
  obtain ⟨hwhole, htext⟩ := takeDigits_spec text
  generalize takeDigits text = cut at h hwhole htext
  obtain ⟨whole, rest⟩ := cut
  dsimp only at h hwhole htext
  split at h
  · -- with a point, what stands behind the places is an exponent or the mark
    next m tail hpoint =>
    split at hpoint
    · next behind =>
      obtain ⟨hplaces, hbehind⟩ := takeDigits_spec behind
      generalize takeDigits behind = cut at hpoint hplaces hbehind
      obtain ⟨places, rest⟩ := cut
      dsimp only at hpoint hplaces hbehind
      split at hpoint
      · cases hpoint
      · next hsome =>
        obtain ⟨rfl, rfl⟩ := Prod.mk.inj (Option.some.inj hpoint)
        obtain rfl := Option.some.inj h
        rw [Bool.and_eq_true, not_and_or, List.isEmpty_iff, List.isEmpty_iff] at hsome
        have hpower : ((takeExponent rest).1 = [] ∨ IsPower (takeExponent rest).1) ∧
            (takeExponent rest).1 ++ (takeExponent rest).2 = rest := by
          obtain heq | ⟨hpower, heq⟩ := takeExponent_spec rest
          · rw [heq]
            exact ⟨.inl rfl, rfl⟩
          · exact ⟨.inr hpower, heq⟩
        obtain ⟨hmark, hafter⟩ := takeOneOf_spec "fFdD" (takeExponent rest).2
        refine ⟨_, (takeOneOf "fFdD" (takeExponent rest).2).2, ?_, ?_,
          .point hwhole hplaces hsome hpower.1 hmark⟩
        · simp only [List.append_assoc, List.cons_append, hafter, hpower.2, hbehind, htext]
        · simp only [List.length_append, List.length_cons]
          omega
    · cases hpoint
  · split at h
    · cases h
    · next hsome =>
      rw [List.isEmpty_iff] at hsome
      split at h
      · obtain rfl := Option.some.inj h
        obtain ⟨hmark, hafter⟩ := takeOneOf_spec "fFdDlL" rest
        refine ⟨_, (takeOneOf "fFdDlL" rest).2, ?_, List.length_append, .plain hwhole hsome hmark⟩
        rw [List.append_assoc, hafter, htext]
      · next hpower =>
        obtain rfl := Option.some.inj h
        rw [List.isEmpty_iff] at hpower
        obtain ⟨hpower, hrest⟩ := (takeExponent_spec rest).resolve_left fun heq => hpower (by rw [heq])
        obtain ⟨hmark, hafter⟩ := takeOneOf_spec "fFdD" (takeExponent rest).2
        refine ⟨_, (takeOneOf "fFdD" (takeExponent rest).2).2, ?_, ?_, .power hwhole hsome hpower hmark⟩
        · simp only [List.append_assoc, hafter, hrest, htext]
        · simp only [List.length_append]
          omega

/-- What is measured is a number. -/
theorem exists_of_numberLength? {n : Nat} (h : numberLength? text = some n) :
    ∃ number after, text = number ++ after ∧ number.length = n ∧
      (IsHexNumber number ∨ IsDecimalNumber number) := by
  unfold numberLength? at h
  split at h
  · next hhex =>
    obtain ⟨number, after, htext, hlength, hnumber⟩ := exists_of_hexLength? (hhex.trans h)
    exact ⟨number, after, htext, hlength, .inl hnumber⟩
  · obtain ⟨number, after, htext, hlength, hnumber⟩ := exists_of_decimalLength? h
    exact ⟨number, after, htext, hlength, .inr hnumber⟩

/-! ### Measuring what is written -/

theorem numberLength?_of_isHexNumber (h : IsHexNumber number) (hafter : AtBreak after) :
    numberLength? (number ++ after) = some number.length := by
  cases h with
  | @mk x digits mark hx hne hdigits hmark =>
    have hhead := hmark.not_of_head (p := isHexDigit) (by decide) (hafter.not_of_head (by decide))
    have hempty : digits.isEmpty = false := by simpa using hne
    have hx : (decide (x = 'x') || decide (x = 'X')) = true := by simpa using hx
    simp only [numberLength?, List.cons_append, List.append_assoc, hexLength?, takeWhile_run hdigits hhead,
      hempty, hx, Bool.not_false, Bool.and_self, if_true, hmark.takeOneOf (hafter.not_of_head (by decide)),
      List.length_cons, List.length_append]
    congr 1
    omega

/-- What decimal numbers are written with. -/
theorem of_mem_decimalNumber (h : IsDecimalNumber number) {p : Char → Prop}
    (hdecimal : ∀ c, isDecimal c = true → p c) (hsigns : ∀ c ∈ ".eE+-fFdDlL".toList, p c) :
    ∀ c ∈ number, p c := by
  have hmarked : ∀ {chars : String} {mark : List Char}, chars.toList ⊆ ".eE+-fFdDlL".toList →
      IsMark chars mark → ∀ c ∈ mark, p c := by
    rintro chars mark hsub (rfl | ⟨d, hd, rfl⟩) c hc
    · nomatch hc
    · rw [List.mem_singleton.mp hc]
      exact hsigns d (hsub hd)
  have hpowered : ∀ {power : List Char}, power = [] ∨ IsPower power → ∀ c ∈ power, p c := by
    rintro power (rfl | ⟨he, hsign, -, hdigits⟩) c hc
    · nomatch hc
    · obtain rfl | hc := List.mem_cons.mp hc
      · exact hsigns c ((by decide : "eE".toList ⊆ ".eE+-fFdDlL".toList) he)
      · exact (List.mem_append.mp hc).elim (hmarked (by decide) hsign c) fun hc => hdecimal c (hdigits c hc)
  intro c hc
  cases h with
  | point hwhole hplaces _ hpower hmark =>
    simp only [List.mem_append, List.mem_cons] at hc
    obtain hc | rfl | hc | hc | hc := hc
    · exact hdecimal c (hwhole c hc)
    · exact hsigns _ (by decide)
    · exact hdecimal c (hplaces c hc)
    · exact hpowered hpower c hc
    · exact hmarked (by decide) hmark c hc
  | power hwhole _ hpower hmark =>
    simp only [List.mem_append] at hc
    obtain hc | hc | hc := hc
    · exact hdecimal c (hwhole c hc)
    · exact hpowered (.inr hpower) c hc
    · exact hmarked (by decide) hmark c hc
  | plain hwhole _ hmark =>
    exact (List.mem_append.mp hc).elim (fun hc => hdecimal c (hwhole c hc)) (hmarked (by decide) hmark c)

/-- What numbers are written with. -/
theorem of_mem_number (h : IsHexNumber number ∨ IsDecimalNumber number) {p : Char → Prop}
    (hhex : ∀ c, isHexDigit c = true → p c) (hdecimal : ∀ c, isDecimal c = true → p c)
    (hsigns : ∀ c ∈ ".eE+-fFdDlLxX".toList, p c) : ∀ c ∈ number, p c := by
  obtain ⟨hx, -, hdigits, hmark⟩ | h := h
  · intro c hc
    simp only [List.mem_cons, List.mem_append] at hc
    obtain rfl | rfl | hc | hc := hc
    · exact hdecimal _ (by decide)
    · obtain rfl | rfl := hx <;> exact hsigns _ (by decide)
    · exact hhex c (hdigits c hc)
    · obtain rfl | ⟨d, hd, rfl⟩ := hmark
      · nomatch hc
      · rw [List.mem_singleton.mp hc]
        exact hsigns d ((by decide : "lL".toList ⊆ ".eE+-fFdDlLxX".toList) hd)
  · exact of_mem_decimalNumber h hdecimal fun c hc =>
      hsigns c ((by decide : ".eE+-fFdDlL".toList ⊆ ".eE+-fFdDlLxX".toList) hc)

theorem hexLength?_eq_none {c : Char} {rest : List Char} (h : ∀ x ∈ rest.head?, x ≠ 'x' ∧ x ≠ 'X') :
    hexLength? (c :: rest) = none := by
  unfold hexLength?
  split
  · next x more heq =>
    obtain ⟨hlower, hupper⟩ := h x (by rw [(List.cons.inj heq).2]; rfl)
    simp [hlower, hupper]
  · rfl

/-- A decimal number is not taken for a hexadecimal one. -/
theorem IsDecimalNumber.hexLength? (h : IsDecimalNumber number) (hafter : AtBreak after) :
    Program.hexLength? (number ++ after) = none := by
  have hplain := of_mem_decimalNumber h (p := fun c => c ≠ 'x' ∧ c ≠ 'X')
    (fun c hc => ⟨by rintro rfl; exact absurd hc (by decide), by rintro rfl; exact absurd hc (by decide)⟩)
    (by decide)
  cases number with
  | nil => cases hafter <;> rfl
  | cons c rest =>
    refine hexLength?_eq_none fun x hx => ?_
    cases rest with
    | nil =>
      have hx := hafter.not_of_head (p := fun x => x == 'x' || x == 'X') (by decide) x hx
      simpa using hx
    | cons d rest =>
      obtain rfl := Option.some.inj hx
      exact hplain d (by simp)

theorem decimalLength?_of_isDecimalNumber (h : IsDecimalNumber number) (hafter : AtBreak after) :
    decimalLength? (number ++ after) = some number.length := by
  cases h with
  | @point whole places power mark hwhole hplaces hne hpower hmark =>
    have hdot : ∀ c ∈ ('.' :: (places ++ (power ++ (mark ++ after)))).head?, isDecimal c = false := by
      intro c hc
      obtain rfl := Option.some.inj hc
      decide
    have hbehind : ∀ c ∈ (power ++ (mark ++ after)).head?, isDecimal c = false := by
      obtain rfl | hpower := hpower
      · exact hmark.not_of_head (by decide) (hafter.not_of_head (by decide))
      · exact hpower.not_of_head (by decide) _
    have hsome : ¬ (whole.isEmpty && places.isEmpty) = true := by
      rwa [Bool.and_eq_true, not_and_or, List.isEmpty_iff, List.isEmpty_iff]
    simp only [decimalLength?, List.append_assoc, List.cons_append, takeDigits, takeWhile_run hwhole hdot,
      takeWhile_run hplaces hbehind, if_neg hsome, takeExponent_append hpower hmark (by decide) hafter,
      hmark.takeOneOf (hafter.not_of_head (by decide)), List.length_append, List.length_cons]
    congr 1
    omega
  | @power whole power mark hwhole hne hpower hmark =>
    have hbehind := hpower.not_of_head (p := fun c => isDecimal c || c == '.') (by decide) (mark ++ after)
    simp only [Bool.or_eq_false_iff, beq_eq_false_iff_ne] at hbehind
    have hsome : whole.isEmpty = false := by simpa using hne
    have hpower' : power.isEmpty = false := by simpa using hpower.ne_nil
    simp only [decimalLength?, List.append_assoc, takeDigits,
      takeWhile_run hwhole fun c hc => (hbehind c hc).1, hsome,
      takeExponent_append (.inr hpower) hmark (by decide) hafter, hpower',
      hmark.takeOneOf (hafter.not_of_head (by decide)), List.length_append]
    split
    · next heq =>
      split at heq
      · next tail hdot => exact absurd rfl (hbehind '.' (by rw [hdot]; rfl)).2
      · cases heq
    · simp only [Bool.false_eq_true, if_false, Option.some.injEq]
      omega
  | @plain whole mark hwhole hne hmark =>
    have hbehind := hmark.not_of_head (p := fun c => isDecimal c || c == '.') (by decide)
      (hafter.not_of_head (by decide))
    simp only [Bool.or_eq_false_iff, beq_eq_false_iff_ne] at hbehind
    have hsome : whole.isEmpty = false := by simpa using hne
    have hpower := takeExponent_append (.inl rfl) hmark (by decide) hafter
    rw [List.nil_append] at hpower
    simp only [decimalLength?, List.append_assoc, takeDigits,
      takeWhile_run hwhole fun c hc => (hbehind c hc).1, hsome, hpower,
      hmark.takeOneOf (hafter.not_of_head (by decide)), List.length_append]
    split
    · next heq =>
      split at heq
      · next tail hdot => exact absurd rfl (hbehind '.' (by rw [hdot]; rfl)).2
      · cases heq
    · simp only [Bool.false_eq_true, List.isEmpty_nil, if_false, if_true]

theorem numberLength?_of_isDecimalNumber (h : IsDecimalNumber number) (hafter : AtBreak after) :
    numberLength? (number ++ after) = some number.length := by
  rw [numberLength?, h.hexLength? hafter, decimalLength?_of_isDecimalNumber h hafter]

end Coach.Program
