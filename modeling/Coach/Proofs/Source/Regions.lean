import Coach.Proofs.Source.Comments
import Mathlib.Data.List.Forall2

/-!
# Regions of a source text

Every character of a source text belongs to code, to a comment or to a literal, and one reading of the
text from left to right tells to which.  Masking is described by these regions: blanking comments blanks
the characters of comments, and neither mask moves a character.  A text may be cut wherever code stands,
because reading begins afresh there, so that a place found in one of the masks is one of the other.

## Main definitions

* `Region`, `regions`: what each character belongs to
* `Mode`: what is open while the text is read
* `KeepsPlaces`: a text in which some characters became blanks and nothing moved

## Main statements

* `maskComments_eq_zipWith`: the comments, and nothing else, are blanked
* `regions_maskComments`: behind that, what was comment is code, and literals are where they were
* `maskWith_drop`: masks of a text that is cut where code stands
* `masks_keep_places`: both masks keep every place, and one after the other is the second alone
-/

namespace Coach.Source

/-! ### Reading a text -/

/-- What a character belongs to. Quotes belong to their literal and the marks of a comment to the comment;
the newline that ends a comment or a literal is code. -/
inductive Region where
  | code
  | comment
  | literal
  deriving DecidableEq, Repr

/-- What is open at a place of a text. -/
inductive Mode where
  | code
  | line
  | block
  | literal (quote : Char)
  deriving DecidableEq, Repr

/-- The regions of the characters from a place on. -/
def regionsFrom : Mode → List Char → List Region
  | _, [] => []
  | .code, '/' :: '/' :: rest => .comment :: .comment :: regionsFrom .line rest
  | .code, '/' :: '*' :: rest => .comment :: .comment :: regionsFrom .block rest
  | .code, c :: rest =>
    if isQuote c then .literal :: regionsFrom (.literal c) rest else .code :: regionsFrom .code rest
  | .line, c :: rest =>
    if c = '\n' then .code :: regionsFrom .code rest else .comment :: regionsFrom .line rest
  | .block, '*' :: '/' :: rest => .comment :: .comment :: regionsFrom .code rest
  | .block, _ :: rest => .comment :: regionsFrom .block rest
  | .literal quote, '\\' :: _ :: rest => .literal :: .literal :: regionsFrom (.literal quote) rest
  | .literal quote, c :: rest =>
    if c = quote then .literal :: regionsFrom .code rest
    else if c = '\n' then .code :: regionsFrom .code rest
    else .literal :: regionsFrom (.literal quote) rest

/-- The regions of a text. -/
def regions (text : List Char) : List Region := regionsFrom .code text

@[simp] theorem regions_nil : regions [] = [] := rfl

/-- A character that opens nothing is code. -/
theorem regions_of_opensNothing {c : Char} {after : List Char} (h : OpensNothing c after) :
    regions (c :: after) = .code :: regions after := by
  rw [regions, regionsFrom, if_neg (Bool.eq_false_iff.mp h.notQuote), regions]
  · rintro more rfl rfl
    exact (h.notComment rfl).1 rfl
  · rintro more rfl rfl
    exact (h.notComment rfl).2 rfl

theorem regions_newline (after : List Char) : regions ('\n' :: after) = .code :: regions after :=
  regions_of_opensNothing (IsCode.opensNothing (by decide) after)

theorem regionsFrom_line (text : List Char) :
    regionsFrom .line text =
      List.replicate (takeLine text).1.length .comment ++ regions (takeLine text).2 := by
  induction text with
  | nil => rfl
  | cons c text ih =>
    by_cases hc : c = '\n'
    · subst hc
      exact (regions_newline text).symm
    · have htake : takeLine (c :: text) = (c :: (takeLine text).1, (takeLine text).2) := by
        simp [takeLine, hc]
      rw [regionsFrom, if_neg hc, ih, htake]
      rfl

theorem regionsFrom_block (text : List Char) :
    regionsFrom .block text =
      List.replicate (takeBlockComment text).1.length .comment ++ regions (takeBlockComment text).2 := by
  fun_induction takeBlockComment text with
  | case1 => rfl
  | case2 rest => rfl
  | case3 c rest hopen body after htake ih =>
    rw [htake] at ih
    rw [regionsFrom, ih]
    · rfl
    · exact hopen

theorem regionsFrom_literal {quote : Char} (h : isQuote quote = true) (text : List Char) :
    regionsFrom (.literal quote) text =
      List.replicate (takeLiteral quote text).1.length .literal ++ regions (takeLiteral quote text).2 := by
  have hescape : quote ≠ '\\' := by
    rintro rfl
    cases h
  have hline : '\n' ≠ quote := by
    rintro rfl
    cases h
  have hnewline : ∀ rest, regionsFrom (.literal quote) ('\n' :: rest) = regions ('\n' :: rest) := by
    intro rest
    rw [regions_newline, regionsFrom, if_neg hline, if_pos rfl, regions]
    rintro _ _ ⟨⟩
  fun_induction takeLiteral quote text with
  | case1 => rfl
  | case2 => exact hnewline []
  | case3 c hc =>
    rw [regionsFrom]
    · split <;> rfl
    · rintro _ _ - ⟨⟩
  | case4 d rest =>
    rw [regionsFrom, if_pos rfl]
    · rfl
    · exact fun _ _ heq _ => hescape heq
  | case5 d rest hne => exact hnewline (d :: rest)
  | case6 d rest body after htake hquote _ ih =>
    rw [htake] at ih
    rw [regionsFrom, ih]
    rfl
  | case7 c d rest hquote hc hslash body after htake ih =>
    rw [htake] at ih
    rw [regionsFrom, if_neg hquote, if_neg hc, ih]
    · rfl
    · exact fun _ _ heq _ => hslash heq

/-- A comment is comment. -/
theorem regions_comment {comment after : List Char} (h : IsComment comment after) :
    regions (comment ++ after) = List.replicate comment.length .comment ++ regions after := by
  cases h with
  | @line body _ h =>
    have hbody := regionsFrom_line (body ++ after)
    rw [h] at hbody
    exact congrArg (Region.comment :: Region.comment :: ·) hbody
  | @block body _ h =>
    have hbody := regionsFrom_block (body ++ after)
    rw [h] at hbody
    exact congrArg (Region.comment :: Region.comment :: ·) hbody

/-- A literal is literal. -/
theorem regions_literal {quote : Char} {body after : List Char} (hquote : isQuote quote = true)
    (h : takeLiteral quote (body ++ after) = (body, after)) :
    regions (quote :: (body ++ after)) =
      List.replicate (quote :: body).length .literal ++ regions after := by
  have hslash : quote ≠ '/' := by
    rintro rfl
    cases hquote
  rw [regions, regionsFrom, if_pos hquote, regionsFrom_literal hquote, h]
  · rfl
  · exact fun _ heq _ => hslash heq
  · exact fun _ heq _ => hslash heq

@[simp] theorem length_regions (text : List Char) : (regions text).length = text.length := by
  induction text using induction_on_pieces with
  | nil => rfl
  | code c after hopens ih => simp [regions_of_opensNothing hopens, ih]
  | comment comment after hcomment ih => simp [regions_comment hcomment, ih]
  | literal quote body after hquote htake ih => simp [regions_literal hquote htake, ih]; omega

/-! ### What masking changes -/

/-- A text in which some characters became blanks and nothing moved. -/
structure KeepsPlaces (text masked : List Char) : Prop where
  length_eq : masked.length = text.length
  newline_iff : ∀ i : Nat, masked[i]? = some '\n' ↔ text[i]? = some '\n'
  changed : ∀ i : Nat, masked[i]? ≠ text[i]? → masked[i]? = some ' '

/-- A character stays or, unless it is a newline, becomes a blank. -/
def StaysOrBlank (c d : Char) : Prop := d = c ∨ d = ' ' ∧ c ≠ '\n'

theorem keepsPlaces_of_forall₂ {text masked : List Char} (h : List.Forall₂ StaysOrBlank text masked) :
    KeepsPlaces text masked := by
  have hat : ∀ i : Nat, masked[i]? = text[i]? ∨ masked[i]? = some ' ' ∧ text[i]? ≠ some '\n' := by
    induction h with
    | nil => exact fun i => Or.inl rfl
    | @cons c d text masked hhead htail ih =>
      rintro (_ | i)
      · exact hhead.imp (congrArg some) fun ⟨hd, hc⟩ => ⟨congrArg some hd, fun heq => hc (Option.some.inj heq)⟩
      · exact ih i
  refine ⟨h.length_eq.symm, fun i => ?_, fun i hne => ((hat i).resolve_left hne).1⟩
  rcases hat i with hsame | ⟨hblank, hline⟩
  · rw [hsame]
  · rw [hblank]
    exact iff_of_false (by decide) hline

theorem forall₂_blank (text : List Char) : List.Forall₂ StaysOrBlank text (blank text) := by
  rw [blank, List.forall₂_map_right_iff, List.forall₂_same]
  intro c _
  by_cases hc : c = '\n'
  · exact Or.inl (if_pos hc)
  · exact Or.inr ⟨if_neg hc, hc⟩

theorem forall₂_refl_staysOrBlank (text : List Char) : List.Forall₂ StaysOrBlank text text :=
  List.forall₂_same.mpr fun _ _ => Or.inl rfl

theorem forall₂_blankLiteral (quote : Char) (body : List Char) :
    List.Forall₂ StaysOrBlank (quote :: body) (blankLiteral quote body) := by
  unfold blankLiteral
  split
  · next hclosed =>
    obtain ⟨inner, rfl⟩ := List.getLast?_eq_some_iff.mp (eq_of_beq hclosed)
    rw [List.dropLast_concat]
    exact .cons (Or.inl rfl) (List.rel_append (forall₂_blank inner) (forall₂_refl_staysOrBlank [quote]))
  · exact .cons (Or.inl rfl) (forall₂_blank body)

/-- What is masked keeps its place where literals keep theirs. -/
theorem forall₂_maskWith {literal : Char → List Char → List Char}
    (hliteral : ∀ quote body, List.Forall₂ StaysOrBlank (quote :: body) (literal quote body))
    (text : List Char) : List.Forall₂ StaysOrBlank text (maskWith literal text) := by
  induction text using induction_on_pieces with
  | nil => simp
  | code c after hopens ih =>
    rw [maskWith_of_opensNothing literal hopens]
    exact .cons (Or.inl rfl) ih
  | comment comment after hcomment ih =>
    rw [maskWith_comment literal hcomment]
    exact List.rel_append (forall₂_blank comment) ih
  | literal quote body after hquote htake ih =>
    rw [maskWith_literal literal hquote htake]
    exact List.rel_append (hliteral quote body) ih

theorem keepsPlaces_mask (text : List Char) : KeepsPlaces text (mask text) :=
  keepsPlaces_of_forall₂ (forall₂_maskWith forall₂_blankLiteral text)

theorem keepsPlaces_maskComments (text : List Char) : KeepsPlaces text (maskComments text) :=
  keepsPlaces_of_forall₂ (forall₂_maskWith (fun quote body => forall₂_refl_staysOrBlank (quote :: body)) text)

/-! ### Regions and masks -/

namespace Region

/-- How a character of a region shows when comments are blanked. -/
def shown (c : Char) : Region → Char
  | .comment => if c = '\n' then c else ' '
  | .code | .literal => c

/-- What a region is when comments are blanked. -/
def uncommented : Region → Region
  | .comment => .code
  | .code => .code
  | .literal => .literal

end Region

/-- The comments, and nothing else, are blanked. -/
theorem maskComments_eq_zipWith (text : List Char) :
    maskComments text = List.zipWith Region.shown text (regions text) := by
  have hpart : ∀ (part : List Char) (r : Region) (after : List Char) (more : List Region),
      List.zipWith Region.shown (part ++ after) (List.replicate part.length r ++ more) =
        part.map (r.shown ·) ++ List.zipWith Region.shown after more := by
    intro part r after more
    induction part with
    | nil => rfl
    | cons c part ih => exact congrArg (r.shown c :: ·) ih
  unfold maskComments at *
  induction text using induction_on_pieces with
  | nil => simp
  | code c after hopens ih =>
    rw [maskWith_of_opensNothing _ hopens, regions_of_opensNothing hopens, ih]
    rfl
  | comment comment after hcomment ih =>
    rw [maskWith_comment _ hcomment, regions_comment hcomment, hpart, ih]
    rfl
  | literal quote body after hquote htake ih =>
    rw [maskWith_literal _ hquote htake, regions_literal hquote htake, ← List.cons_append, hpart, ih]
    simp [Region.shown]

/-- What was comment is code when comments are blanked, and what was a literal is one still. -/
theorem regions_maskComments (text : List Char) :
    regions (maskComments text) = (regions text).map Region.uncommented := by
  have hblank : ∀ part after : List Char,
      regions (blank part ++ after) = List.replicate part.length .code ++ regions after := by
    intro part after
    induction part with
    | nil => rfl
    | cons c part ih =>
      have hcode : IsCode (if c = '\n' then c else ' ') :=
        isCode_of_mem_blank (List.mem_map_of_mem List.mem_cons_self : _ ∈ blank [c])
      exact (regions_of_opensNothing (hcode.opensNothing _)).trans (congrArg (Region.code :: ·) ih)
  induction text using induction_on_pieces with
  | nil => simp [maskComments]
  | code c after hopens ih =>
    rw [maskComments, maskWith_of_opensNothing _ hopens, ← maskComments,
      regions_of_opensNothing hopens.maskComments, ih, regions_of_opensNothing hopens]
    rfl
  | comment comment after hcomment ih =>
    rw [maskComments, maskWith_comment _ hcomment, ← maskComments, hblank, ih,
      regions_comment hcomment, List.map_append, List.map_replicate]
    rfl
  | literal quote body after hquote htake ih =>
    rw [maskComments, maskWith_literal _ hquote htake, ← maskComments, List.cons_append,
      regions_literal hquote (takeLiteral_append_maskComments hquote htake), ih,
      regions_literal hquote htake, List.map_append, List.map_replicate]
    rfl

/-! ### Cutting a text -/

theorem mem_or_of_getElem?_append {α : Type} {front after : List α} {i : Nat} {x : α}
    (h : (front ++ after)[i]? = some x) :
    x ∈ front ∨ ∃ j, i = front.length + j ∧ after[j]? = some x := by
  rw [List.getElem?_append] at h
  split at h
  · exact Or.inl (List.mem_of_getElem? h)
  · exact Or.inr ⟨i - front.length, by omega, h⟩

theorem drop_of_getElem? {α : Type} {items : List α} {i : Nat} {x : α} (h : items[i]? = some x) :
    items.drop i = x :: items.drop (i + 1) := by
  obtain ⟨hlt, rfl⟩ := List.getElem?_eq_some_iff.mp h
  exact List.drop_eq_getElem_cons hlt

/-- Code that follows other regions follows them at some distance. -/
theorem exists_code_behind {region : Region} (hregion : region ≠ .code) {length i : Nat}
    {more : List Region} (h : (List.replicate length region ++ more)[i]? = some .code) :
    ∃ j, i = length + j ∧ more[j]? = some .code := by
  rcases mem_or_of_getElem?_append h with hmem | ⟨j, hi, hj⟩
  · exact absurd (List.eq_of_mem_replicate hmem).symm hregion
  · exact ⟨j, by rw [hi, List.length_replicate], hj⟩

/-- Reading begins afresh where code stands, and so does masking. -/
theorem maskWith_drop {literal : Char → List Char → List Char}
    (hliteral : ∀ quote body, (literal quote body).length = (quote :: body).length) (text : List Char)
    {i : Nat} (h : (regions text)[i]? = some .code) :
    maskWith literal (text.drop i) = (maskWith literal text).drop i := by
  induction text using induction_on_pieces generalizing i with
  | nil => simp
  | code c after hopens ih =>
    cases i with
    | zero => rfl
    | succ i =>
      rw [regions_of_opensNothing hopens] at h
      rw [maskWith_of_opensNothing literal hopens]
      exact ih h
  | comment comment after hcomment ih =>
    rw [regions_comment hcomment] at h
    obtain ⟨j, rfl, hj⟩ := exists_code_behind (by decide) h
    have hlength : (blank comment).length = comment.length := List.length_map _
    rw [maskWith_comment literal hcomment, List.drop_length_add_append, ih hj, ← hlength,
      List.drop_length_add_append]
  | literal quote body after hquote htake ih =>
    rw [regions_literal hquote htake] at h
    obtain ⟨j, rfl, hj⟩ := exists_code_behind (by decide) h
    rw [maskWith_literal literal hquote htake, ← List.cons_append, List.drop_length_add_append, ih hj,
      ← hliteral, List.drop_length_add_append]

theorem mask_drop {text : List Char} {i : Nat} (h : (regions text)[i]? = some .code) :
    mask (text.drop i) = (mask text).drop i :=
  maskWith_drop (fun quote body => (forall₂_blankLiteral quote body).length_eq.symm) text h

theorem maskComments_drop {text : List Char} {i : Nat} (h : (regions text)[i]? = some .code) :
    maskComments (text.drop i) = (maskComments text).drop i :=
  maskWith_drop (fun _ _ => rfl) text h

/-- A masked literal shows blanks, newlines and quotes. -/
theorem eq_or_eq_or_isQuote_of_mem_blankLiteral {quote c : Char} {body : List Char}
    (hquote : isQuote quote = true) (h : c ∈ blankLiteral quote body) :
    c = ' ' ∨ c = '\n' ∨ isQuote c = true := by
  have hinner : ∀ text, c ∈ quote :: blank text → c = ' ' ∨ c = '\n' ∨ isQuote c = true := by
    intro text hmem
    rcases List.mem_cons.mp hmem with rfl | hmem
    · exact Or.inr (Or.inr hquote)
    · exact (eq_or_eq_of_mem_blank hmem).imp_right Or.inl
  unfold blankLiteral at h
  split at h
  · rcases List.mem_append.mp h with hmem | hmem
    · exact hinner _ hmem
    · rw [List.mem_singleton.mp hmem]
      exact Or.inr (Or.inr hquote)
  · exact hinner _ h

theorem notMem_blankLiteral {quote c : Char} {body : List Char} (hquote : isQuote quote = true)
    (hblank : c ≠ ' ') (hline : c ≠ '\n') (hc : isQuote c = false) : c ∉ blankLiteral quote body := by
  intro hmem
  rcases eq_or_eq_or_isQuote_of_mem_blankLiteral hquote hmem with heq | heq | heq
  · exact hblank heq
  · exact hline heq
  · rw [hc] at heq
    cases heq

/-- What the mask shows besides blanks, newlines and quotes is code. -/
theorem regions_of_getElem?_mask {text : List Char} {i : Nat} {c : Char} (h : (mask text)[i]? = some c)
    (hblank : c ≠ ' ') (hline : c ≠ '\n') (hquote : isQuote c = false) :
    (regions text)[i]? = some .code := by
  unfold mask at h
  induction text using induction_on_pieces generalizing i with
  | nil => simp at h
  | code d after hopens ih =>
    rw [regions_of_opensNothing hopens]
    cases i with
    | zero => rfl
    | succ i =>
      rw [maskWith_of_opensNothing _ hopens] at h
      exact ih h
  | comment comment after hcomment ih =>
    rw [maskWith_comment _ hcomment] at h
    rcases mem_or_of_getElem?_append h with hmem | ⟨j, rfl, hj⟩
    · exact absurd (eq_or_eq_of_mem_blank hmem) (not_or.mpr ⟨hblank, hline⟩)
    · rw [regions_comment hcomment, blank, List.length_map, List.getElem?_append_right (by simp)]
      simpa using ih hj
  | literal quote body after hopen htake ih =>
    rw [maskWith_literal _ hopen htake] at h
    rcases mem_or_of_getElem?_append h with hmem | ⟨j, rfl, hj⟩
    · exact absurd hmem (notMem_blankLiteral hopen hblank hline hquote)
    · rw [regions_literal hopen htake, ← (forall₂_blankLiteral quote body).length_eq,
        List.getElem?_append_right (by simp)]
      simpa using ih hj

/-! ### The whole -/

/-- **Masking keeps places.**  Blanking comments, with or without the insides of literals, leaves every
character where it is, every newline as it is, and makes blanks of what it changes.  Blanking comments
alone changes comments alone, it leaves no comment and every literal where it was, and it changes nothing
for a mask that comes after it. -/
theorem masks_keep_places (text : List Char) :
    KeepsPlaces text (mask text) ∧ KeepsPlaces text (maskComments text) ∧
      (∀ i : Nat, (maskComments text)[i]? ≠ text[i]? → (regions text)[i]? = some .comment) ∧
      regions (maskComments text) = (regions text).map Region.uncommented ∧
      mask (maskComments text) = mask text ∧
      maskComments (maskComments text) = maskComments text := by
  refine ⟨keepsPlaces_mask text, keepsPlaces_maskComments text, fun i hne => ?_,
    regions_maskComments text, maskWith_maskComments _ text, maskWith_maskComments _ text⟩
  rw [maskComments_eq_zipWith, List.getElem?_zipWith] at hne
  cases hc : text[i]? with
  | none =>
    rw [hc] at hne
    exact absurd rfl hne
  | some c =>
    obtain ⟨hi, -⟩ := List.getElem?_eq_some_iff.mp hc
    rw [← length_regions] at hi
    rw [hc, List.getElem?_eq_getElem hi] at hne
    rw [List.getElem?_eq_getElem hi]
    cases hregion : (regions text)[i] with
    | comment => rfl
    | code | literal =>
      rw [hregion] at hne
      exact absurd rfl hne

end Coach.Source
