import Coach.Proofs.Text.Blank
import Coach.Source.Mask

/-!
# Masking piece by piece

A text is masked from left to right, and what is masked so far decides nothing about the rest once no
comment and no literal is open.  Texts behind which that is so can be masked apart.

## Main definitions

* `IsCode`: a character that opens neither a comment nor a literal
* `OpensNothing`: a character that opens neither where it stands
* `IsComment`: a comment and what follows it
* `Settled`: a text behind which masking begins afresh

## Main statements

* `induction_on_pieces`: a text consists of characters that open nothing, comments and literals
* `settled_of_code`, `settled_literal`: code and closed literals are settled
* `Settled.append`: settled texts one after another
-/

namespace Coach.Source

/-- A character that opens neither a comment nor a literal. -/
def IsCode (c : Char) : Prop := c ≠ '/' ∧ isQuote c = false

instance : DecidablePred IsCode := fun c => inferInstanceAs (Decidable (c ≠ '/' ∧ isQuote c = false))

/-- Characters of a text are decided one by one, and not by going through all characters. -/
instance (priority := 1100) decidableForallMem (p : Char → Prop) [DecidablePred p] (text : List Char) :
    Decidable (∀ c ∈ text, p c) :=
  List.decidableBAll p text

/-- A class without the slash and the quotes is one of code. -/
theorem isCode_of_class {p : Char → Bool} (hslash : p '/' = false) (hdouble : p '"' = false)
    (hsingle : p '\'' = false) {c : Char} (h : p c = true) : IsCode c := by
  refine ⟨?_, ?_⟩
  · rintro rfl
    rw [hslash] at h
    cases h
  · rw [isQuote, Bool.or_eq_false_iff, beq_eq_false_iff_ne, beq_eq_false_iff_ne]
    refine ⟨?_, ?_⟩
    · rintro rfl
      rw [hdouble] at h
      cases h
    · rintro rfl
      rw [hsingle] at h
      cases h

theorem isCode_of_isSpace {c : Char} (h : Text.isSpace c = true) : IsCode c :=
  isCode_of_class (by decide) (by decide) (by decide) h

/-- Neither a comment nor a literal opens with a character before a text. -/
structure OpensNothing (c : Char) (after : List Char) : Prop where
  notQuote : isQuote c = false
  notComment : c = '/' → after.head? ≠ some '/' ∧ after.head? ≠ some '*'

theorem IsCode.opensNothing {c : Char} (h : IsCode c) (after : List Char) : OpensNothing c after where
  notQuote := h.2
  notComment hslash := absurd hslash h.1

/-- A comment, and what follows it. -/
inductive IsComment : List Char → List Char → Prop
  | line {body after : List Char} (h : takeLine (body ++ after) = (body, after)) :
    IsComment ('/' :: '/' :: body) after
  | block {body after : List Char} (h : takeBlockComment (body ++ after) = (body, after)) :
    IsComment ('/' :: '*' :: body) after

/-- Behind the text, masking begins afresh. -/
def Settled (text : List Char) : Prop := ∀ rest, mask (text ++ rest) = mask text ++ mask rest

section MaskWith

variable (literal : Char → List Char → List Char)

@[simp] theorem maskWith_nil : maskWith literal [] = [] := maskWith.eq_def literal []

theorem maskWith_cons {c : Char} (h : IsCode c) (rest : List Char) :
    maskWith literal (c :: rest) = c :: maskWith literal rest := by
  rw [maskWith.eq_def]
  split
  · next heq => cases heq
  · next heq => exact absurd (List.cons.inj heq).1 h.1
  · next heq => exact absurd (List.cons.inj heq).1 h.1
  · next heq =>
    obtain ⟨rfl, rfl⟩ := List.cons.inj heq
    rw [h.2, if_neg Bool.false_ne_true]

/-- A slash that opens no comment stays. -/
theorem maskWith_slash {rest : List Char} (hslash : rest.head? ≠ some '/') (hstar : rest.head? ≠ some '*') :
    maskWith literal ('/' :: rest) = '/' :: maskWith literal rest := by
  rw [maskWith.eq_def]
  split
  · next heq => cases heq
  · next heq => exact absurd (congrArg List.head? (List.cons.inj heq).2) hslash
  · next heq => exact absurd (congrArg List.head? (List.cons.inj heq).2) hstar
  · next heq =>
    obtain ⟨rfl, rfl⟩ := List.cons.inj heq
    rw [if_neg (by decide)]

/-- A comment up to the end of its line is blanked. -/
theorem maskWith_line (rest : List Char) :
    maskWith literal ('/' :: '/' :: rest) =
      blank ('/' :: '/' :: (takeLine rest).1) ++ maskWith literal (takeLine rest).2 :=
  maskWith.eq_def literal ('/' :: '/' :: rest)

/-- A comment up to its closing mark is blanked. -/
theorem maskWith_block (rest : List Char) :
    maskWith literal ('/' :: '*' :: rest) =
      blank ('/' :: '*' :: (takeBlockComment rest).1) ++ maskWith literal (takeBlockComment rest).2 :=
  maskWith.eq_def literal ('/' :: '*' :: rest)

theorem maskWith_quote {quote : Char} (h : isQuote quote = true) (rest : List Char) :
    maskWith literal (quote :: rest) =
      literal quote (takeLiteral quote rest).1 ++ maskWith literal (takeLiteral quote rest).2 := by
  have hne : quote ≠ '/' := by
    rintro rfl
    cases h
  rw [maskWith.eq_def]
  split
  · next heq => cases heq
  · next heq => exact absurd (List.cons.inj heq).1 hne
  · next heq => exact absurd (List.cons.inj heq).1 hne
  · next heq =>
    obtain ⟨rfl, rfl⟩ := List.cons.inj heq
    rw [if_pos h]

/-- A character that opens nothing stays. -/
theorem maskWith_of_opensNothing {c : Char} {after : List Char} (h : OpensNothing c after) :
    maskWith literal (c :: after) = c :: maskWith literal after := by
  by_cases hslash : c = '/'
  · subst hslash
    obtain ⟨hline, hblock⟩ := h.notComment rfl
    exact maskWith_slash literal hline hblock
  · exact maskWith_cons literal ⟨hslash, h.notQuote⟩ after

/-- A comment is blanked. -/
theorem maskWith_comment {comment after : List Char} (h : IsComment comment after) :
    maskWith literal (comment ++ after) = blank comment ++ maskWith literal after := by
  cases h with
  | line h => rw [List.cons_append, List.cons_append, maskWith_line, h]
  | block h => rw [List.cons_append, List.cons_append, maskWith_block, h]

/-- A literal is masked apart. -/
theorem maskWith_literal {quote : Char} {body after : List Char} (hquote : isQuote quote = true)
    (h : takeLiteral quote (body ++ after) = (body, after)) :
    maskWith literal (quote :: (body ++ after)) = literal quote body ++ maskWith literal after := by
  rw [maskWith_quote literal hquote, h]

/-- Code is masked as it is. -/
theorem maskWith_append_of_code {text : List Char} (h : ∀ c ∈ text, IsCode c) (rest : List Char) :
    maskWith literal (text ++ rest) = text ++ maskWith literal rest := by
  induction text with
  | nil => rfl
  | cons c text ih =>
    rw [List.cons_append, maskWith_cons literal (h c List.mem_cons_self),
      ih fun d hd => h d (List.mem_cons_of_mem _ hd)]
    rfl

end MaskWith

/-! ### The pieces of a text -/

theorem takeLine_append (text : List Char) : (takeLine text).1 ++ (takeLine text).2 = text :=
  List.takeWhile_append_dropWhile

theorem takeBlockComment_append (text : List Char) :
    (takeBlockComment text).1 ++ (takeBlockComment text).2 = text := by
  fun_induction takeBlockComment text <;> simp_all

/-- **The pieces of a text.**  From left to right a text consists of characters that open nothing, of
comments and of literals. -/
@[elab_as_elim]
theorem induction_on_pieces {motive : List Char → Prop} (text : List Char) (nil : motive [])
    (code : ∀ c after, OpensNothing c after → motive after → motive (c :: after))
    (comment : ∀ comment after, IsComment comment after → motive after → motive (comment ++ after))
    (literal : ∀ quote body after, isQuote quote = true →
      takeLiteral quote (body ++ after) = (body, after) → motive after →
      motive (quote :: (body ++ after))) :
    motive text := by
  induction text using maskWith.induct with
  | case1 => exact nil
  | case2 rest ih =>
    have hcomment : IsComment ('/' :: '/' :: (takeLine rest).1) (takeLine rest).2 :=
      .line (by rw [takeLine_append])
    have hmotive := comment _ _ hcomment ih
    rwa [List.cons_append, List.cons_append, takeLine_append] at hmotive
  | case3 rest ih =>
    have hcomment : IsComment ('/' :: '*' :: (takeBlockComment rest).1) (takeBlockComment rest).2 :=
      .block (by rw [takeBlockComment_append])
    have hmotive := comment _ _ hcomment ih
    rwa [List.cons_append, List.cons_append, takeBlockComment_append] at hmotive
  | case4 c rest _ _ hquote ih =>
    have hmotive := literal c _ _ hquote (by rw [takeLiteral_append]) ih
    rwa [takeLiteral_append] at hmotive
  | case5 c rest hline hblock hquote ih =>
    refine code c rest ⟨Bool.eq_false_iff.mpr hquote, ?_⟩ ih
    rintro rfl
    refine ⟨fun hhead => ?_, fun hhead => ?_⟩
    · obtain ⟨more, rfl⟩ := List.head?_eq_some_iff.mp hhead
      exact hline more rfl rfl
    · obtain ⟨more, rfl⟩ := List.head?_eq_some_iff.mp hhead
      exact hblock more rfl rfl

@[simp] theorem mask_nil : mask [] = [] := maskWith_nil _

theorem mask_cons {c : Char} (h : IsCode c) (rest : List Char) : mask (c :: rest) = c :: mask rest :=
  maskWith_cons _ h rest

/-- A slash that opens no comment stays. -/
theorem mask_slash {c : Char} (hslash : c ≠ '/') (hstar : c ≠ '*') (rest : List Char) :
    mask ('/' :: c :: rest) = '/' :: mask (c :: rest) :=
  maskWith_slash _ (by simpa using hslash) (by simpa using hstar)

/-- A slash stays, or it opens a comment and is blanked. -/
theorem head?_mask_slash (rest : List Char) :
    (mask ('/' :: rest)).head? = some '/' ∨ (mask ('/' :: rest)).head? = some ' ' := by
  cases rest with
  | nil =>
    have hslash : mask ['/'] = '/' :: mask [] := maskWith_slash blankLiteral nofun nofun
    exact Or.inl (by rw [hslash]; rfl)
  | cons c rest =>
    by_cases hslash : c = '/'
    · subst hslash
      exact Or.inr (congrArg List.head? (maskWith_line blankLiteral rest))
    · by_cases hstar : c = '*'
      · subst hstar
        exact Or.inr (congrArg List.head? (maskWith_block blankLiteral rest))
      · exact Or.inl (by rw [mask_slash hslash hstar, List.head?_cons])

theorem mask_quote {quote : Char} (h : isQuote quote = true) (rest : List Char) :
    mask (quote :: rest) =
      blankLiteral quote (takeLiteral quote rest).1 ++ mask (takeLiteral quote rest).2 :=
  maskWith_quote _ h rest

theorem mask_append_of_code {text : List Char} (h : ∀ c ∈ text, IsCode c) (rest : List Char) :
    mask (text ++ rest) = text ++ mask rest :=
  maskWith_append_of_code _ h rest

theorem mask_of_code {text : List Char} (h : ∀ c ∈ text, IsCode c) : mask text = text := by
  have happend := mask_append_of_code h []
  rwa [List.append_nil, mask_nil, List.append_nil] at happend

namespace Settled

theorem nil : Settled [] := fun rest => by rw [mask_nil]; rfl

theorem append {first second : List Char} (h₁ : Settled first) (h₂ : Settled second) :
    Settled (first ++ second) := by
  intro rest
  rw [List.append_assoc, h₁, h₂, h₁, List.append_assoc]

end Settled

theorem settled_of_code {text : List Char} (h : ∀ c ∈ text, IsCode c) : Settled text := by
  intro rest
  rw [mask_append_of_code h, mask_of_code h]

/-- A literal is settled when what stands behind it does not decide where it ends. -/
theorem settled_literal {quote : Char} {body : List Char} (h : isQuote quote = true)
    (hbody : ∀ rest, takeLiteral quote (body ++ rest) = (body, rest)) :
    Settled (quote :: body) := by
  have hmask : ∀ rest, mask (quote :: body ++ rest) = blankLiteral quote body ++ mask rest := by
    intro rest
    rw [List.cons_append, mask_quote h, hbody]
  intro rest
  have halone := hmask []
  rw [List.append_nil, mask_nil, List.append_nil] at halone
  rw [hmask, halone]

end Coach.Source
