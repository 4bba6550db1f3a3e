import Coach.Text.Basic

/-!
# White space

What is white space is told by a short list of codes, so that a class of characters can be checked
against all of it.

## Main statements

* `not_isSpace_of_class`: a class that holds none of the codes holds no white space
* `stripBy_eq_self`, `stripRight_concat`: texts that are not trimmed
* `strip_blanks_append`, `strip_append_blanks`: white space at the ends does not matter
* `blanks_append_inj`, `append_blanks_inj`: the first and the last character that is no white space
-/

namespace Coach.Text

/-- The codes of white space. -/
def spaceCodes : List Nat :=
  [9, 10, 11, 12, 13, 28, 29, 30, 31, 32, 0x85, 0xA0, 0x1680, 0x2000, 0x2001, 0x2002, 0x2003, 0x2004,
    0x2005, 0x2006, 0x2007, 0x2008, 0x2009, 0x200A, 0x2028, 0x2029, 0x202F, 0x205F, 0x3000]

theorem toNat_mem_spaceCodes {c : Char} (h : isSpace c = true) : c.toNat ∈ spaceCodes := by
  simp only [isSpace, Bool.or_eq_true, Bool.and_eq_true, decide_eq_true_eq, beq_iff_eq] at h
  simp only [spaceCodes, List.mem_cons, List.not_mem_nil, or_false]
  omega

/-- What holds of the codes of white space holds of white space. -/
theorem of_isSpace {P : Char → Prop} (hcodes : ∀ n ∈ spaceCodes, P (Char.ofNat n)) {c : Char}
    (h : isSpace c = true) : P c := by
  rw [← Char.ofNat_toNat c]
  exact hcodes c.toNat (toNat_mem_spaceCodes h)

theorem not_isSpace_of_class {p : Char → Bool} (hcodes : ∀ n ∈ spaceCodes, p (Char.ofNat n) = false)
    {c : Char} (h : p c = true) : isSpace c = false := by
  rw [← Bool.not_eq_true]
  intro hspace
  have hnot : p c = false := of_isSpace (P := fun c => p c = false) hcodes hspace
  rw [h] at hnot
  cases hnot

theorem not_isSpace_of_isWord {c : Char} (h : isWord c = true) : isSpace c = false :=
  not_isSpace_of_class (by decide +kernel) h

theorem not_isSpace_of_isDecimal {c : Char} (h : isDecimal c = true) : isSpace c = false :=
  not_isSpace_of_class (by decide +kernel) h

/-! ### Trimming -/

theorem dropWhile_eq_self {p : Char → Bool} {text : List Char} (h : ∀ c ∈ text, p c = false) :
    text.dropWhile p = text := by
  cases text with
  | nil => rfl
  | cons c rest => simp [h c List.mem_cons_self]

/-- A text without characters of a class is not trimmed of them. -/
theorem stripBy_eq_self {p : Char → Bool} {text : List Char} (h : ∀ c ∈ text, p c = false) :
    stripBy p text = text := by
  rw [stripBy, dropWhile_eq_self h, dropRightWhile,
    dropWhile_eq_self fun c hc => h c (List.mem_reverse.mp hc), List.reverse_reverse]

/-- A text is not trimmed behind a character that is no white space. -/
theorem stripRight_concat (text : List Char) {c : Char} (h : isSpace c = false) :
    stripRight (text ++ [c]) = text ++ [c] := by
  simp [stripRight, dropRightWhile, h]

/-- White space in front does not matter when a text is trimmed. -/
theorem strip_blanks_append {blanks : List Char} (h : ∀ c ∈ blanks, isSpace c = true)
    (text : List Char) : strip (blanks ++ text) = strip text := by
  rw [strip, stripLeft, List.dropWhile_append_of_pos h]
  rfl

/-- White space behind a text does not matter to its right end. -/
theorem stripRight_append_blanks {blanks : List Char} (h : ∀ c ∈ blanks, isSpace c = true)
    (text : List Char) : stripRight (text ++ blanks) = stripRight text := by
  rw [stripRight, dropRightWhile, List.reverse_append,
    List.dropWhile_append_of_pos fun c hc => h c (List.mem_reverse.mp hc)]
  rfl

/-- White space alone is trimmed to nothing. -/
theorem strip_blanks {blanks : List Char} (h : ∀ c ∈ blanks, isSpace c = true) : strip blanks = [] := by
  have hstrip := strip_blanks_append h []
  rwa [List.append_nil] at hstrip

/-- A text is trimmed behind its last character that is no white space. -/
theorem stripRight_append_cons (front : List Char) {c : Char} (h : isSpace c = false)
    (tail : List Char) : stripRight (front ++ c :: tail) = front ++ c :: stripRight tail := by
  rw [stripRight, dropRightWhile, List.reverse_append, List.reverse_cons, List.append_assoc,
    List.dropWhile_append]
  split
  · next hnil =>
    rw [List.isEmpty_iff] at hnil
    simp [stripRight, dropRightWhile, hnil, h]
  · simp [stripRight, dropRightWhile]

/-- White space off the left end. -/
theorem exists_stripLeft (text : List Char) :
    ∃ blanks, text = blanks ++ stripLeft text ∧ ∀ c ∈ blanks, isSpace c = true :=
  ⟨text.takeWhile isSpace, List.takeWhile_append_dropWhile.symm, fun c hc =>
    List.all_eq_true.mp List.all_takeWhile c hc⟩

/-- White space off the right end. -/
theorem exists_stripRight (text : List Char) :
    ∃ blanks, text = stripRight text ++ blanks ∧ ∀ c ∈ blanks, isSpace c = true := by
  obtain ⟨blanks, htext, hblanks⟩ := exists_stripLeft text.reverse
  refine ⟨blanks.reverse, ?_, fun c hc => hblanks c (List.mem_reverse.mp hc)⟩
  calc text = text.reverse.reverse := (List.reverse_reverse text).symm
    _ = (blanks ++ stripLeft text.reverse).reverse := by rw [← htext]
    _ = stripRight text ++ blanks.reverse := List.reverse_append

/-- White space off both ends. -/
theorem exists_strip (text : List Char) :
    ∃ left right, text = left ++ (strip text ++ right) ∧ (∀ c ∈ left, isSpace c = true) ∧
      ∀ c ∈ right, isSpace c = true := by
  obtain ⟨left, hleft, hspaceLeft⟩ := exists_stripLeft text
  obtain ⟨right, hright, hspaceRight⟩ := exists_stripRight (stripLeft text)
  exact ⟨left, right, by rw [strip, ← hright, ← hleft], hspaceLeft, hspaceRight⟩

/-- White space behind a text does not matter when the text is trimmed. -/
theorem strip_append_blanks {blanks : List Char} (h : ∀ c ∈ blanks, isSpace c = true)
    (text : List Char) : strip (text ++ blanks) = strip text := by
  by_cases htext : stripLeft text = []
  · obtain ⟨left, hleft, hspace⟩ := exists_stripLeft text
    rw [htext, List.append_nil] at hleft
    rw [← hleft] at hspace
    rw [strip_blanks_append hspace, strip_blanks h, strip_blanks hspace]
  · have hleft : stripLeft (text ++ blanks) = stripLeft text ++ blanks := by
      rw [stripLeft, List.dropWhile_append, if_neg (by simpa [stripLeft] using htext)]
      rfl
    rw [strip, hleft, stripRight_append_blanks h]
    rfl

/-- White space in front of a character that is none can be told apart from it. -/
theorem blanks_append_inj {blanks blanks' text text' : List Char} {c c' : Char} (hc : isSpace c = false)
    (hc' : isSpace c' = false) (hblanks : ∀ x ∈ blanks, isSpace x = true)
    (hblanks' : ∀ x ∈ blanks', isSpace x = true) (h : blanks ++ c :: text = blanks' ++ c' :: text') :
    blanks = blanks' ∧ c = c' ∧ text = text' := by
  have hrun : ∀ {blanks text : List Char} {c : Char}, isSpace c = false →
      (∀ x ∈ blanks, isSpace x = true) → (blanks ++ c :: text).takeWhile isSpace = blanks := by
    intro blanks text c hc hblanks
    rw [List.takeWhile_append_of_pos hblanks, List.takeWhile_cons_of_neg (by rw [hc]; decide),
      List.append_nil]
  have hsame : blanks = blanks' := by rw [← hrun hc hblanks, h, hrun hc' hblanks']
  subst hsame
  obtain ⟨rfl, rfl⟩ := List.cons.inj (List.append_cancel_left h)
  exact ⟨rfl, rfl, rfl⟩

/-- White space behind a character that is none can be told apart from it. -/
theorem append_blanks_inj {text text' blanks blanks' : List Char} {c c' : Char}
    (hc : isSpace c = false) (hc' : isSpace c' = false) (hblanks : ∀ x ∈ blanks, isSpace x = true)
    (hblanks' : ∀ x ∈ blanks', isSpace x = true) (h : text ++ c :: blanks = text' ++ c' :: blanks') :
    text = text' ∧ c = c' ∧ blanks = blanks' := by
  have hreverse := congrArg List.reverse h
  simp only [List.reverse_append, List.reverse_cons, List.append_assoc, List.singleton_append] at hreverse
  obtain ⟨hblank, rfl, htext⟩ := blanks_append_inj hc hc' (fun x hx => hblanks x (List.mem_reverse.mp hx))
    (fun x hx => hblanks' x (List.mem_reverse.mp hx)) hreverse
  exact ⟨List.reverse_inj.mp htext, rfl, List.reverse_inj.mp hblank⟩

/-- White space at the end of a text is told apart from what stands before it. -/
theorem exists_of_append_blanks {text blanks before blanks' : List Char} {c : Char}
    (hc : isSpace c = false) (hblanks : ∀ x ∈ blanks, isSpace x = true)
    (h : text ++ blanks = before ++ c :: blanks') :
    ∃ more, text = before ++ c :: more ∧ blanks' = more ++ blanks := by
  have hcut : text ++ blanks = before ++ [c] ++ blanks' := by simpa using h
  rcases List.append_eq_append_iff.mp hcut with ⟨more, hmore, hblank⟩ | ⟨more, htext, hblank⟩
  · cases hlast : more.getLast? with
    | none =>
      obtain rfl := List.getLast?_eq_none_iff.mp hlast
      exact ⟨[], by simpa using hmore.symm, by simpa using hblank.symm⟩
    | some d =>
      have hd : d = c := by
        have hend := congrArg List.getLast? hmore
        rw [List.getLast?_concat, List.getLast?_append, hlast, Option.some_or] at hend
        exact (Option.some.inj hend).symm
      subst hd
      have hspace := hblanks d (hblank ▸ List.mem_append_left _ (List.mem_of_getLast? hlast))
      rw [hc] at hspace
      cases hspace
  · exact ⟨more, by simpa using htext, hblank⟩

end Coach.Text
