import Coach.Proofs.Source.Masking

/-!
# Comments that are blanked already

Blanking comments leaves a text in which every literal is found again where it was, and in which no
comment opens that was none before.  Whatever is masked of it afterwards is therefore masked as in the
text itself, and the comments no longer matter.

## Main definitions

* `GoesOnLike`: what follows a literal, as far as it decides where the literal ends

## Main statements

* `maskWith_maskComments`: comments can be blanked first
* `count_newline_maskWith`: every newline stays
-/

namespace Coach.Source

/-! ### Blanks -/

theorem eq_or_eq_of_mem_blank {text : List Char} {c : Char} (h : c ∈ blank text) : c = ' ' ∨ c = '\n' := by
  obtain ⟨d, -, rfl⟩ := List.mem_map.mp h
  split
  · next hd => exact Or.inr hd
  · exact Or.inl rfl

theorem isCode_of_mem_blank {text : List Char} {c : Char} (h : c ∈ blank text) : IsCode c := by
  rcases eq_or_eq_of_mem_blank h with rfl | rfl <;> decide

theorem maskWith_blank_append (literal : Char → List Char → List Char) (text rest : List Char) :
    maskWith literal (blank text ++ rest) = blank text ++ maskWith literal rest :=
  maskWith_append_of_code literal (fun _ hc => isCode_of_mem_blank hc) rest

@[simp] theorem blank_append (first second : List Char) :
    blank (first ++ second) = blank first ++ blank second :=
  List.map_append

theorem count_newline_blank (text : List Char) : (blank text).count '\n' = text.count '\n' := by
  induction text with
  | nil => rfl
  | cons c text ih =>
    by_cases hc : c = '\n'
    · simpa [blank, hc] using ih
    · simpa [blank, hc] using ih

/-! ### Where a literal ends -/

/-- What follows a literal that is not closed: nothing, or a newline. -/
structure GoesOnLike (after after' : List Char) : Prop where
  nil : after = [] → after' = []
  newline : after.head? = some '\n' → after'.head? = some '\n'

theorem takeLiteral_newline {quote : Char} (h : isQuote quote = true) (rest : List Char) :
    takeLiteral quote ('\n' :: rest) = ([], '\n' :: rest) := by
  have hne : '\n' ≠ quote := by
    rintro rfl
    cases h
  cases rest with
  | nil => simp [takeLiteral]
  | cons c rest => simp [takeLiteral, hne]

theorem takeLiteral_quote_cons {quote : Char} (h : isQuote quote = true) (rest : List Char) :
    takeLiteral quote (quote :: rest) = ([quote], rest) := by
  cases rest with
  | nil =>
    have hne : quote ≠ '\n' := by
      rintro rfl
      cases h
    simp [takeLiteral, hne]
  | cons c rest => simp [takeLiteral]

/-- A character that neither closes a literal nor escapes belongs to it. -/
theorem takeLiteral_cons_of_ne {quote c : Char} (hquote : c ≠ quote) (hline : c ≠ '\n')
    (hescape : c ≠ '\\') (rest : List Char) :
    takeLiteral quote (c :: rest) = (c :: (takeLiteral quote rest).1, (takeLiteral quote rest).2) := by
  cases rest with
  | nil => simp [takeLiteral, hline]
  | cons d rest => simp [takeLiteral, hquote, hline, hescape]

/-- A literal is found again before anything that goes on like what followed it. -/
theorem takeLiteral_append_of_goesOnLike {quote : Char} (h : isQuote quote = true)
    {text after' : List Char} (hafter : GoesOnLike (takeLiteral quote text).2 after') :
    takeLiteral quote ((takeLiteral quote text).1 ++ after') = ((takeLiteral quote text).1, after') := by
  have hnewline : after'.head? = some '\n' → takeLiteral quote after' = ([], after') := by
    intro hhead
    obtain ⟨rest, rfl⟩ := List.head?_eq_some_iff.mp hhead
    exact takeLiteral_newline h rest
  fun_induction takeLiteral quote text with
  | case1 =>
    obtain rfl := hafter.nil rfl
    rfl
  | case2 => exact hnewline (hafter.newline rfl)
  | case3 c hline =>
    obtain rfl := hafter.nil rfl
    simp [takeLiteral, hline]
  | case4 d rest => exact takeLiteral_quote_cons h after'
  | case5 d rest hne => exact hnewline (hafter.newline rfl)
  | case6 d rest body after htake hquote hline ih =>
    rw [htake] at ih
    simp [takeLiteral, hquote, ih hafter]
  | case7 c d rest hquote hline hescape body after htake ih =>
    rw [htake] at ih
    rw [List.cons_append, takeLiteral_cons_of_ne hquote hline hescape, ih hafter]

/-! ### Blanking comments first -/

/-- What begins a text stays at its beginning when comments are blanked, unless a comment begins it. -/
theorem head?_maskComments (text : List Char) :
    (maskComments text).head? = text.head? ∨
      (maskComments text).head? = some ' ' ∧ text.head? = some '/' := by
  unfold maskComments
  cases text with
  | nil => exact Or.inl (by rw [maskWith_nil])
  | cons c rest =>
    by_cases hcode : IsCode c
    · exact Or.inl (by rw [maskWith_cons _ hcode]; rfl)
    · by_cases hquote : isQuote c = true
      · exact Or.inl (by rw [maskWith_quote _ hquote]; rfl)
      · obtain rfl : c = '/' := Decidable.byContradiction fun hne =>
          hcode ⟨hne, Bool.eq_false_iff.mpr hquote⟩
        by_cases hslash : rest.head? = some '/'
        · obtain ⟨rest, rfl⟩ := List.head?_eq_some_iff.mp hslash
          exact Or.inr ⟨by rw [maskWith_line]; rfl, rfl⟩
        · by_cases hstar : rest.head? = some '*'
          · obtain ⟨rest, rfl⟩ := List.head?_eq_some_iff.mp hstar
            exact Or.inr ⟨by rw [maskWith_block]; rfl, rfl⟩
          · exact Or.inl (by rw [maskWith_slash _ hslash hstar]; rfl)

/-- What follows a literal goes on as before once its comments are blanked. -/
theorem goesOnLike_maskComments (after : List Char) : GoesOnLike after (maskComments after) where
  nil := by
    rintro rfl
    exact maskWith_nil _
  newline := by
    intro hhead
    rcases head?_maskComments after with hsame | ⟨-, hslash⟩
    · rw [hsame, hhead]
    · rw [hhead] at hslash
      cases hslash

/-- A character that opens nothing opens nothing before blanked comments either. -/
theorem OpensNothing.maskComments {c : Char} {after : List Char} (h : OpensNothing c after) :
    OpensNothing c (maskComments after) where
  notQuote := h.notQuote
  notComment hslash := by
    rcases head?_maskComments after with hsame | ⟨hblank, -⟩
    · rw [hsame]
      exact h.notComment hslash
    · rw [hblank]
      exact ⟨by decide, by decide⟩

/-- A literal ends before blanked comments where it ended before. -/
theorem takeLiteral_append_maskComments {quote : Char} {body after : List Char}
    (hquote : isQuote quote = true) (h : takeLiteral quote (body ++ after) = (body, after)) :
    takeLiteral quote (body ++ maskComments after) = (body, maskComments after) := by
  have hafter : GoesOnLike (takeLiteral quote (body ++ after)).2 (maskComments after) := by
    rw [h]
    exact goesOnLike_maskComments after
  have hagain := takeLiteral_append_of_goesOnLike hquote hafter
  rwa [h] at hagain

/-- **Comments can be blanked first.**  Masking a text whose comments are blanked is masking the
text. -/
theorem maskWith_maskComments (literal : Char → List Char → List Char) (text : List Char) :
    maskWith literal (maskComments text) = maskWith literal text := by
  induction text using induction_on_pieces with
  | nil => rw [maskComments, maskWith_nil]
  | code c after hopens ih =>
    rw [maskComments, maskWith_of_opensNothing _ hopens, ← maskComments,
      maskWith_of_opensNothing _ hopens.maskComments, ih, maskWith_of_opensNothing _ hopens]
  | comment comment after hcomment ih =>
    rw [maskComments, maskWith_comment _ hcomment, ← maskComments, maskWith_blank_append, ih,
      maskWith_comment _ hcomment]
  | literal quote body after hquote htake ih =>
    rw [maskComments, maskWith_literal _ hquote htake, ← maskComments, List.cons_append,
      maskWith_literal _ hquote (takeLiteral_append_maskComments hquote htake), ih,
      maskWith_literal _ hquote htake]

/-- Every newline stays where literals keep theirs. -/
theorem count_newline_maskWith {literal : Char → List Char → List Char}
    (hliteral : ∀ quote body, (literal quote body).count '\n' = (quote :: body).count '\n')
    (text : List Char) : (maskWith literal text).count '\n' = text.count '\n' := by
  induction text using induction_on_pieces with
  | nil => rw [maskWith_nil]
  | code c after hopens ih =>
    rw [maskWith_of_opensNothing _ hopens, List.count_cons, List.count_cons, ih]
  | comment comment after hcomment ih =>
    rw [maskWith_comment _ hcomment, List.count_append, count_newline_blank, ih, List.count_append]
  | literal quote body after hquote htake ih =>
    rw [maskWith_literal _ hquote htake, List.count_append, hliteral, ih, ← List.count_append,
      List.cons_append]

end Coach.Source
