import Coach.Proofs.Finding.Places

/-!
# Places on a line that is changed

A place that an array rule objects to is changed: a comparison loses its equality sign, or a literal
index becomes another.  The change makes up no other such place, so where the rule objects to nothing
but the changed place, it has nothing left to object to.

## Main statements

* `ArrayRule.reaches_of_comparison`: a comparison that loses its equality sign
* `ArrayRule.reaches_of_brackets`: a literal index that becomes another
-/

namespace Coach.Finding

open Coach.Text

namespace ArrayRule

variable {a : Allocation} {left right before place after : List Char} {index : Nat}

/-! ### A comparison without its equality sign -/

/-- An equality sign may come in where a header has a less-than sign before its comparison. -/
theorem takes_loopOpening_of_comparison {one two : List Char}
    (h : (Pattern.all loopOpening).Takes (one ++ '<' :: two)) :
    (Pattern.all loopOpening).Takes (one ++ '<' :: '=' :: two) := by
  have hsplit : loopOpening = [.text "for", .space, .char '('] ++ ([.star (.one (· != ';'))] ++
    [.char ';', .space, .word, .space]) := rfl
  have hcuts := fun {taken} => @Pattern.takes_all_append [.text "for", .space, .char '(']
    ([.star (.one (· != ';'))] ++ [.char ';', .space, .word, .space]) (List.cons_ne_nil _ _) taken
  have hcuts' := fun {taken} => @Pattern.takes_all_append [.star (.one (· != ';'))]
    [.char ';', .space, .word, .space] (List.cons_ne_nil _ _) taken
  rw [hsplit, hcuts] at h ⊢
  obtain ⟨start, rest, heq, hstart, hrest⟩ := h
  obtain ⟨body, stop, rfl, hbody, hstop⟩ := hcuts'.mp hrest
  -- the sign stands in the part up to the first semicolon
  have hnot : '<' ∉ start := fun hmem => hstart.within (q := (· ≠ '<')) (by
    simp only [Pattern.all, Pattern.Within, Pattern.within_text_iff, Pattern.within_space_iff,
      Pattern.within_char_iff]
    decide) '<' hmem rfl
  have hnot' : '<' ∉ stop := fun hmem => hstop.within (q := (· ≠ '<')) (by
    simp only [Pattern.all, Pattern.Within, Pattern.within_word_iff, Pattern.within_space_iff,
      Pattern.within_char_iff]
    decide) '<' hmem rfl
  obtain ⟨more, rfl, hbodies⟩ := exists_of_append_cons hnot heq.symm
  obtain ⟨more', rfl, rfl⟩ := exists_of_cons_append hnot' hbodies
  have hnosemicolon := Pattern.takes_star_one.mp hbody
  refine ⟨start, more ++ '<' :: '=' :: more' ++ stop, by simp, hstart, hcuts'.mpr
    ⟨_, stop, rfl, Pattern.takes_star_one.mpr fun c hc => ?_, hstop⟩⟩
  simp only [List.mem_append, List.mem_cons] at hc hnosemicolon
  rcases hc with hc | rfl | rfl | hc
  · exact hnosemicolon c (Or.inl hc)
  · decide
  · decide
  · exact hnosemicolon c (Or.inr (Or.inr hc))

/-- What stands behind the comparison has no sign of a comparison. -/
theorem notMem_of_takes_loopLimit (ha : a.Named) {limit : List Char} {c : Char}
    (h : (Pattern.all (loopLimit a)).Takes limit) (hc : c = '<' ∨ c = '=') : c ∉ limit := by
  have hname : c ∉ a.name := fun hmem => by
    have hword := ha.2 c hmem
    rcases hc with rfl | rfl <;> cases hword
  have hdigits : c ∉ natDigits a.size := fun hmem => by
    have hdigit := isDigit_of_mem_natDigits hmem
    rcases hc with rfl | rfl <;> cases hdigit
  have hwithin : (Pattern.all (loopLimit a)).Within (· ≠ c) := by
    simp only [loopLimit, Pattern.all, Pattern.Within, named, Pattern.within_chars_iff,
      Pattern.within_text_iff, Pattern.within_space_iff, Pattern.within_char_iff, hname, hdigits]
    rcases hc with rfl | rfl <;> decide
  exact fun hmem => h.within hwithin c hmem rfl

/-- What stands behind the comparison of a header does not begin with an equality sign. -/
theorem ne_equals_of_reaches (ha : a.Named) {index : Nat} {after : List Char}
    (h : loopBound.Reaches a index before place ('=' :: after)) : False := by
  generalize htext : '=' :: after = text at h
  cases h with
  | @comparison front opening limit more hopening hlimit =>
    have hnot := notMem_of_takes_loopLimit ha hlimit (Or.inr rfl)
    cases limit with
    | nil =>
      obtain ⟨_, _, hnil, -, _, _, rfl, -, _, _, rfl, -, hclose⟩ := hlimit
      obtain rfl := Pattern.takes_char.mp hclose
      simp at hnil
    | cons c limit =>
      obtain ⟨rfl, -⟩ := List.cons.inj htext
      exact hnot List.mem_cons_self

/-- A comparison that loses its equality sign makes up no place: what is found afterwards stands in the
text as it was, and elsewhere. -/
theorem reaches_of_comparison (ha : a.Named) {size : Nat}
    (hplace : loopBound.Reaches a size left ['<', '='] right)
    (h : left ++ '<' :: right = before ++ (place ++ after))
    (hreaches : loopBound.Reaches a index before place after) :
    ∃ before' after', left ++ '<' :: '=' :: right = before' ++ (place ++ after') ∧
      loopBound.Reaches a index before' place after' ∧ before' ≠ left := by
  cases hreaches with
  | @comparison front opening limit more hopening hlimit =>
    have hnoright : ∀ {rest : List Char}, right ≠ '=' :: rest := by
      rintro rest rfl
      exact ne_equals_of_reaches ha hplace
    rcases List.append_eq_append_iff.mp h with ⟨gap, hgap, hright⟩ | ⟨gap, rfl, hright⟩
    · -- the place stands behind the change
      cases gap with
      | nil => exact absurd (List.cons.inj hright).2 hnoright
      | cons c gap =>
        obtain ⟨rfl, rfl⟩ := List.cons.inj hright
        rcases List.append_eq_append_iff.mp hgap with ⟨one, rfl, rfl⟩ | ⟨gap', rfl, hcons⟩
        · exact ⟨front ++ (one ++ '<' :: '=' :: gap), limit ++ more, by simp,
            .comparison (takes_loopOpening_of_comparison hopening) hlimit, by simp⟩
        · cases gap' with
          | nil =>
            obtain rfl : '<' :: gap = opening := hcons
            have hopening' := @takes_loopOpening_of_comparison [] gap hopening
            exact ⟨left ++ [] ++ '<' :: '=' :: gap, limit ++ more, by simp, .comparison hopening' hlimit,
              by simp⟩
          | cons c gap' =>
            obtain ⟨rfl, rfl⟩ := List.cons.inj hcons
            refine ⟨left ++ '<' :: '=' :: gap' ++ opening, limit ++ more, by simp, ?_, by simp⟩
            exact .comparison hopening hlimit
    · cases gap with
      | nil => exact absurd (List.cons.inj hright).2.symm hnoright
      | cons c gap =>
        obtain ⟨rfl, hcons⟩ := List.cons.inj hright
        cases gap with
        | nil => exact absurd (List.cons.inj hcons).1 (by decide)
        | cons c gap =>
          obtain ⟨rfl, htail⟩ := List.cons.inj hcons
          have hnot := notMem_of_takes_loopLimit ha hlimit (Or.inl rfl)
          obtain ⟨more', rfl, rfl⟩ := exists_of_append_cons hnot htail
          refine ⟨front ++ opening, limit ++ (more' ++ '<' :: '=' :: right), by simp,
            .comparison hopening hlimit, by simp⟩

/-! ### Another literal index -/

/-- A literal index that becomes another makes up no place but the one that is changed: what is found
elsewhere afterwards stands in the text as it was. -/
theorem reaches_of_brackets (ha : a.Named) {digits digits' : List Char}
    (hdigits : ∀ c ∈ digits', isDecimal c = true)
    (h : left ++ '[' :: (digits' ++ ']' :: right) = before ++ (place ++ after))
    (hreaches : literalIndex.Reaches a index before place after) :
    (before = left ∧ place = '[' :: (digits' ++ [']'])) ∨
      ∃ before' after', left ++ '[' :: (digits ++ ']' :: right) = before' ++ (place ++ after') ∧
        literalIndex.Reaches a index before' place after' ∧ before' ≠ left := by
  cases hreaches with
  | @access front blanks one run two _ _ hfront hblanks hone htwo hne hrun hread hindex =>
    have hclose : ']' ∉ a.name ++ blanks := by
      rw [List.mem_append, not_or]
      exact ⟨fun hmem => absurd (ha.2 _ hmem) (by decide), fun hmem => absurd (hblanks _ hmem) (by decide)⟩
    have hinner : ∀ {c : Char}, isSpace c = false → isDecimal c = false → c ∉ one ++ run ++ two := by
      intro c hspace hdecimal hmem
      simp only [List.mem_append] at hmem
      rcases hmem with (hmem | hmem) | hmem
      · rw [hone c hmem] at hspace
        cases hspace
      · rw [hrun c hmem] at hdecimal
        cases hdecimal
      · rw [htwo c hmem] at hspace
        cases hspace
    have hother : ∀ {c : Char}, isDecimal c = false → c ∉ digits' := by
      intro c hdecimal hmem
      rw [hdigits c hmem] at hdecimal
      cases hdecimal
    have hcut : front ++ (a.name ++ blanks ++ '[' :: (one ++ run ++ two ++ ']' :: after)) =
        left ++ '[' :: (digits' ++ ']' :: right) := by
      rw [h]
      simp
    rcases exists_beside_brackets hclose (hinner (c := '[') (by decide) (by decide))
        (hinner (c := ']') (by decide) (by decide)) (hother (c := '[') (by decide))
        (hother (c := ']') (by decide)) hcut with ⟨more, rfl⟩ | ⟨rfl, heq, -⟩ | ⟨more, rfl, rfl⟩
    · exact Or.inr ⟨_, more ++ '[' :: (digits ++ ']' :: right), by simp,
        .access hfront hblanks hone htwo hne hrun hread hindex, by simp⟩
    · exact Or.inl ⟨rfl, by rw [heq]⟩
    · refine Or.inr ⟨left ++ '[' :: (digits ++ ']' :: more) ++ (a.name ++ blanks), after, by simp,
        .access (fun c hc => hfront c ?_) hblanks hone htwo hne hrun hread hindex, by simp⟩
      rw [List.getLast?_append, List.getLast?_cons, List.getLast?_append, List.getLast?_cons] at hc ⊢
      exact hc

end ArrayRule

end Coach.Finding
