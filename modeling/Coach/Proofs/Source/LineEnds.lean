import Coach.Proofs.Source.Comments
import Coach.Proofs.Text.Lines

/-!
# The mask at the end of a line

What is put at the end of a line is masked as the end of that line was: as code, as part of a comment, or
as part of a literal.  Which of them it is depends on the text up to there alone, and what follows the
line is masked as before.  The one exception is a backslash in a literal that is not closed: it takes
along whatever stands behind it, the newline included.

## Main definitions

* `IsTail`: white space or a semicolon, as it may stand at the end of a line
* `Pending`: what is left open at the end of a text
* `EndsInCode`, `EndsInComment`, `EndsInLiteral`, `EndsInEscape`: the four ways in which a tail is masked

## Main statements

* `exists_pending`: every text leaves something open, if only nothing
* `ends_in`: every text ends in one of the four ways
* `KeepsSemicolon`: a semicolon at the end of the text stays, which is so in code alone
-/

namespace Coach.Source

open Coach.Text

/-! ### Tails -/

/-- White space or a semicolon, within a line. -/
def IsTail (text : List Char) : Prop := ∀ c ∈ text, (isSpace c = true ∨ c = ';') ∧ c ≠ '\n'

theorem isTail_nil : IsTail [] := nofun

theorem isTail_semicolon : IsTail [';'] := by
  intro c hc
  obtain rfl := List.mem_singleton.mp hc
  decide

namespace IsTail

variable {tail : List Char}

theorem isCode (h : IsTail tail) : ∀ c ∈ tail, IsCode c := by
  intro c hc
  rcases (h c hc).1 with hspace | rfl
  · exact isCode_of_isSpace hspace
  · decide

theorem of_cons {c : Char} (h : IsTail (c :: tail)) : IsTail tail := fun d hd =>
  h d (List.mem_cons_of_mem _ hd)

theorem notMem (h : IsTail tail) : '\n' ∉ tail := fun hmem => (h '\n' hmem).2 rfl

/-- Neither a slash nor a star begins a tail, nor what follows it. -/
theorem head?_ne (h : IsTail tail) {after : List Char} (hafter : LineEnd after) {c : Char}
    (hc : c = '/' ∨ c = '*') : (tail ++ after).head? ≠ some c := by
  intro hhead
  cases tail with
  | nil =>
    have hline := hafter c hhead
    rcases hc with rfl | rfl <;> cases hline
  | cons d tail =>
    obtain rfl := Option.some.inj hhead
    have htail := (h d List.mem_cons_self).1
    rcases hc with rfl | rfl <;> revert htail <;> decide

end IsTail

theorem isSpace_of_mem_blank {text : List Char} {c : Char} (h : c ∈ blank text) : isSpace c = true := by
  rcases eq_or_eq_of_mem_blank h with rfl | rfl <;> decide

theorem notMem_blank {text : List Char} (h : '\n' ∉ text) : '\n' ∉ blank text := by
  rw [← List.count_eq_zero, count_newline_blank]
  exact List.count_eq_zero.mpr h

theorem lineEnd_mask {after : List Char} (h : LineEnd after) : LineEnd (mask after) := by
  rcases h.cases with rfl | ⟨rest, rfl⟩
  · rw [mask_nil]
    exact lineEnd_nil
  · rw [mask_cons (by decide)]
    exact lineEnd_newline _

theorem isTail_of_blanks {text : List Char} (h : ∀ c ∈ text, isSpace c = true) (hline : '\n' ∉ text) :
    IsTail text := by
  intro c hc
  refine ⟨Or.inl (h c hc), ?_⟩
  rintro rfl
  exact hline hc

/-- Every newline stays. -/
theorem count_newline_mask (text : List Char) : (mask text).count '\n' = text.count '\n' := by
  refine count_newline_maskWith (fun quote body => ?_) text
  unfold blankLiteral
  split
  · next hclosed =>
    obtain ⟨inner, rfl⟩ := List.getLast?_eq_some_iff.mp (eq_of_beq hclosed)
    simp [List.count_cons, count_newline_blank]
  · rw [List.count_cons, List.count_cons, count_newline_blank]

/-! ### Comments and literals that are not closed -/

theorem takeLine_append_of_notMem {text : List Char} (h : '\n' ∉ text) (after : List Char) :
    takeLine (text ++ after) = (text ++ (takeLine after).1, (takeLine after).2) := by
  have hall : ∀ c ∈ text, (c != '\n') = true := fun c hc => bne_iff_ne.mpr fun heq => h (heq ▸ hc)
  rw [takeLine, List.takeWhile_append_of_pos hall, List.dropWhile_append_of_pos hall]
  rfl

theorem lineEnd_takeLine (text : List Char) : LineEnd (takeLine text).2 := lineEnd_dropWhile text

theorem takeLine_of_lineEnd {after : List Char} (h : LineEnd after) : takeLine after = ([], after) := by
  rcases h.cases with rfl | ⟨rest, rfl⟩ <;> rfl

theorem takeBlockComment_cons {c : Char} {rest : List Char} (h : c = '*' → rest.head? ≠ some '/') :
    takeBlockComment (c :: rest) = (c :: (takeBlockComment rest).1, (takeBlockComment rest).2) := by
  rw [takeBlockComment]
  rintro rest' rfl rfl
  exact h rfl rfl

/-- A comment is open behind the text, whatever follows, unless a slash does. -/
def InComment (text : List Char) : Prop := ∀ rest, rest.head? ≠ some '/' →
  takeBlockComment (text ++ rest) = (text ++ (takeBlockComment rest).1, (takeBlockComment rest).2)

/-- A comment goes on to the end of the text, or it is closed before. -/
theorem takeBlockComment_cases (text : List Char) :
    (∃ body after, text = body ++ after ∧
      ∀ rest, takeBlockComment (body ++ rest) = (body, rest)) ∨ InComment text := by
  fun_induction takeBlockComment text with
  | case1 => exact Or.inr fun rest _ => rfl
  | case2 rest => exact Or.inl ⟨['*', '/'], rest, rfl, fun rest => rfl⟩
  | case3 c rest hopen body after htake ih =>
    rcases ih with ⟨first, last, rfl, hfirst⟩ | hrest
    · refine Or.inl ⟨c :: first, last, rfl, fun rest => ?_⟩
      rw [List.cons_append, takeBlockComment_cons, hfirst]
      rintro rfl hhead
      cases first with
      | nil =>
        -- nothing closes a comment
        have hclosed := hfirst ['a']
        simp [takeBlockComment] at hclosed
      | cons d first =>
        obtain rfl := Option.some.inj hhead
        exact hopen (first ++ last) rfl rfl
    · refine Or.inr fun rest' hhead => ?_
      rw [List.cons_append, takeBlockComment_cons, hrest rest' hhead]
      · rfl
      rintro rfl hslash
      cases rest with
      | nil => exact hhead hslash
      | cons d rest =>
        obtain rfl := Option.some.inj hslash
        exact hopen rest rfl rfl

/-- A literal is open behind the text, whatever follows. -/
def InLiteral (quote : Char) (text : List Char) : Prop := ∀ rest,
  takeLiteral quote (text ++ rest) = (text ++ (takeLiteral quote rest).1, (takeLiteral quote rest).2)

theorem inLiteral_nil (quote : Char) : InLiteral quote [] := fun _ => rfl

theorem InLiteral.cons {quote c : Char} {text : List Char} (h : InLiteral quote text) (hquote : c ≠ quote)
    (hline : c ≠ '\n') (hescape : c ≠ '\\') : InLiteral quote (c :: text) := by
  intro rest
  rw [List.cons_append, takeLiteral_cons_of_ne hquote hline hescape, h rest]
  rfl

theorem InLiteral.escape {quote c : Char} {text : List Char} (h : InLiteral quote text)
    (hquote : isQuote quote = true) : InLiteral quote ('\\' :: c :: text) := by
  intro rest
  have hne : '\\' ≠ quote := by
    rintro rfl
    cases hquote
  simp only [List.cons_append, takeLiteral, hne, if_false, h rest]
  rfl

/-- A literal goes on to the end of the text, where a backslash may be left; or it ends before, with its
quote or its line. -/
theorem takeLiteral_cases {quote : Char} (h : isQuote quote = true) (text : List Char) :
    ∃ body after, text = body ++ after ∧ InLiteral quote body ∧
      (after = [] ∨ after = ['\\'] ∨ after.head? = some quote ∨ after.head? = some '\n') := by
  fun_induction takeLiteral quote text with
  | case1 => exact ⟨[], [], rfl, inLiteral_nil quote, Or.inl rfl⟩
  | case2 => exact ⟨[], ['\n'], rfl, inLiteral_nil quote, by simp⟩
  | case3 c hline =>
    by_cases hquote : c = quote
    · exact ⟨[], [c], rfl, inLiteral_nil quote, by simp [hquote]⟩
    · by_cases hescape : c = '\\'
      · exact ⟨[], [c], rfl, inLiteral_nil quote, by simp [hescape]⟩
      · exact ⟨[c], [], rfl, (inLiteral_nil quote).cons hquote hline hescape, Or.inl rfl⟩
  | case4 d rest => exact ⟨[], quote :: d :: rest, rfl, inLiteral_nil quote, by simp⟩
  | case5 d rest hne => exact ⟨[], '\n' :: d :: rest, rfl, inLiteral_nil quote, by simp⟩
  | case6 d rest body after htake hquote hline ih =>
    obtain ⟨first, last, rfl, hfirst, hlast⟩ := ih
    exact ⟨'\\' :: d :: first, last, rfl, hfirst.escape h, hlast⟩
  | case7 c d rest hquote hline hescape body after htake ih =>
    obtain ⟨first, last, heq, hfirst, hlast⟩ := ih
    exact ⟨c :: first, last, by rw [heq]; rfl, hfirst.cons hquote hline hescape, hlast⟩

/-! ### What is left open -/

/-- What is left open at the end of a text: nothing, a slash that may open a comment, a comment, or a
literal, behind which a backslash may wait for a character. -/
inductive Pending : List Char → Prop
  | code : Pending []
  | slash : Pending ['/']
  | line {body : List Char} (h : '\n' ∉ body) : Pending ('/' :: '/' :: body)
  | block {body : List Char} (h : InComment body) : Pending ('/' :: '*' :: body)
  | literal {quote : Char} {body : List Char} (hquote : isQuote quote = true)
      (h : InLiteral quote body) : Pending (quote :: body)
  | escape {quote : Char} {body : List Char} (hquote : isQuote quote = true)
      (h : InLiteral quote body) : Pending (quote :: (body ++ ['\\']))

/-- Behind the text masking goes on as behind what is left open. -/
def Leaves (text pending : List Char) : Prop :=
  ∃ masked, ∀ rest, mask (text ++ rest) = masked ++ mask (pending ++ rest)

theorem Leaves.refl (text : List Char) : Leaves text text := ⟨[], fun _ => rfl⟩

/-- What is masked on its own may stand in front. -/
theorem Leaves.prepend {text pending : List Char} (h : Leaves text pending) (first masked : List Char)
    (hfirst : ∀ rest, mask (first ++ (text ++ rest)) = masked ++ mask (text ++ rest)) :
    Leaves (first ++ text) pending := by
  obtain ⟨later, hlater⟩ := h
  exact ⟨masked ++ later, fun rest => by rw [List.append_assoc, hfirst, hlater, List.append_assoc]⟩

/-- Every text leaves something open, if only nothing. -/
theorem exists_pending (text : List Char) : ∃ pending, Pending pending ∧ Leaves text pending := by
  induction text using maskWith.induct with
  | case1 => exact ⟨[], .code, .refl []⟩
  | case2 rest ih =>
    have hcomment : '\n' ∉ (takeLine rest).1 := fun hmem =>
      absurd (of_mem_takeWhile '\n' hmem) (by decide)
    rcases (lineEnd_takeLine rest).cases with hnil | ⟨after, hafter⟩
    · refine ⟨_, .line fun hmem => hcomment ?_, .refl _⟩
      rwa [← takeLine_append rest, hnil, List.append_nil] at hmem
    · obtain ⟨pending, hpending, hleaves⟩ := ih
      have hprepend := hleaves.prepend ('/' :: '/' :: (takeLine rest).1)
        (blank ('/' :: '/' :: (takeLine rest).1)) fun rest' => by
          rw [List.cons_append, List.cons_append, mask, maskWith_line, takeLine_append_of_notMem hcomment,
            hafter, List.cons_append, takeLine_of_lineEnd (lineEnd_newline _), List.append_nil]
          rfl
      exact ⟨pending, hpending, by
        rwa [List.cons_append, List.cons_append, takeLine_append] at hprepend⟩
  | case3 rest ih =>
    rcases takeBlockComment_cases rest with ⟨body, after, rfl, hbody⟩ | hopen
    · rw [hbody] at ih
      obtain ⟨pending, hpending, hleaves⟩ := ih
      refine ⟨pending, hpending, hleaves.prepend ('/' :: '*' :: body)
        (blank ('/' :: '*' :: body)) fun rest' => ?_⟩
      rw [List.cons_append, List.cons_append, mask, maskWith_block, hbody]
      rfl
    · exact ⟨_, .block hopen, .refl _⟩
  | case4 c rest hline hblock hquote ih =>
    obtain ⟨body, after, rfl, hbody, hafter⟩ := takeLiteral_cases hquote rest
    rcases hafter with rfl | rfl | hclose | hclose
    · rw [List.append_nil]
      exact ⟨_, .literal hquote hbody, .refl _⟩
    · exact ⟨_, .escape hquote hbody, .refl _⟩
    · obtain ⟨after, rfl⟩ := List.head?_eq_some_iff.mp hclose
      rw [hbody, takeLiteral_quote_cons hquote] at ih
      obtain ⟨pending, hpending, hleaves⟩ := ih
      have hprepend := hleaves.prepend (c :: (body ++ [c])) (blankLiteral c (body ++ [c]))
        fun rest' => by
          rw [List.cons_append, mask_quote hquote, List.append_assoc, hbody, List.singleton_append,
            takeLiteral_quote_cons hquote]
      exact ⟨pending, hpending, by simpa using hprepend⟩
    · obtain ⟨after, rfl⟩ := List.head?_eq_some_iff.mp hclose
      rw [hbody, takeLiteral_newline hquote] at ih
      obtain ⟨pending, hpending, hleaves⟩ := ih
      have hprepend := hleaves.prepend (c :: body) (blankLiteral c body) fun rest' => by
          rw [List.cons_append, mask_quote hquote, hbody, List.cons_append, takeLiteral_newline hquote,
            List.append_nil]
      exact ⟨pending, hpending, by simpa using hprepend⟩
  | case5 c rest hline hblock hquote ih =>
    obtain ⟨pending, hpending, hleaves⟩ := ih
    by_cases hslash : c = '/'
    · subst hslash
      cases rest with
      | nil => exact ⟨_, .slash, .refl _⟩
      | cons d rest =>
        refine ⟨pending, hpending, hleaves.prepend ['/'] ['/'] fun rest' => ?_⟩
        rw [List.singleton_append, List.cons_append, mask_slash]
        · rfl
        · rintro rfl
          exact hline rest rfl rfl
        · rintro rfl
          exact hblock rest rfl rfl
    · refine ⟨pending, hpending, hleaves.prepend [c] [c] fun rest' => ?_⟩
      exact mask_cons ⟨hslash, Bool.eq_false_iff.mpr hquote⟩ _

/-! ### How a tail is masked -/

/-- The last character that is no white space is a quote. -/
def EndsInQuote (text : List Char) : Prop := ∃ before quote blanks,
  text = before ++ quote :: blanks ∧ isQuote quote = true ∧ ∀ c ∈ blanks, isSpace c = true

/-- The first line says nothing, or a quote is what it says first. -/
def BeginsInLiteral (text : List Char) : Prop := ∃ blanks after,
  text = blanks ++ after ∧ (∀ c ∈ blanks, isSpace c = true) ∧
    ∀ c, after.head? = some c → c = '\n' ∨ isQuote c = true

/-- A tail stays as it is. -/
def EndsInCode (text : List Char) : Prop := ∃ masked, ∀ tail after, IsTail tail → LineEnd after →
  mask (text ++ (tail ++ after)) = masked ++ (tail ++ mask after)

/-- A tail is blanked, and what follows does not depend on it. -/
def EndsInComment (text : List Char) : Prop := ∃ (masked : List Char) (resume : List Char → List Char),
  resume [] = [] ∧ ∀ tail after, IsTail tail → LineEnd after →
    LineEnd (resume after) ∧ mask (text ++ (tail ++ after)) = masked ++ (blank tail ++ resume after)

/-- White space and quotes only. -/
def SaysNothing (text : List Char) : Prop := ∀ c ∈ text, isSpace c = true ∨ isQuote c = true

/-- A tail is blanked behind a quote, but for a quote that may be left at the very end. -/
def EndsInLiteral (text : List Char) : Prop := ∃ (masked : List Char) (shown : List Char → List Char),
  EndsInQuote masked ∧ ∀ tail after, IsTail tail → LineEnd after →
    '\n' ∉ shown tail ∧ SaysNothing (shown tail) ∧
      mask (text ++ (tail ++ after)) = masked ++ (shown tail ++ mask after)

/-- A tail is blanked behind a quote; without a tail the literal takes the newline along. -/
def EndsInEscape (text : List Char) : Prop := ∃ masked, EndsInQuote masked ∧
  (∀ tail after, IsTail tail → LineEnd after → (tail = [] → after = []) →
    mask (text ++ (tail ++ after)) = masked ++ (blank tail ++ mask after)) ∧
  ∀ rest, ∃ next, BeginsInLiteral next ∧ mask (text ++ '\n' :: rest) = masked ++ '\n' :: next

section Literals

variable {quote : Char}

theorem takeLiteral_of_lineEnd (h : isQuote quote = true) {after : List Char} (hafter : LineEnd after) :
    takeLiteral quote after = ([], after) := by
  rcases hafter.cases with rfl | ⟨rest, rfl⟩
  · rfl
  · exact takeLiteral_newline h rest

theorem IsTail.ne_quote {tail : List Char} (h : IsTail tail) (hquote : isQuote quote = true) {c : Char}
    (hc : c ∈ tail) : c ≠ quote := by
  rintro rfl
  have hcode := (h.isCode c hc).2
  rw [hquote] at hcode
  cases hcode

theorem IsTail.inLiteral {tail : List Char} (h : IsTail tail) (hquote : isQuote quote = true) :
    InLiteral quote tail := by
  induction tail with
  | nil => exact inLiteral_nil quote
  | cons c tail ih =>
    have hc := h c List.mem_cons_self
    refine (ih h.of_cons).cons (h.ne_quote hquote List.mem_cons_self) hc.2 ?_
    rintro rfl
    exact absurd hc.1 (by decide)

/-- A literal that is open goes through a tail to the end of the line. -/
theorem InLiteral.takeLiteral_tail {body : List Char} (h : InLiteral quote body)
    (hquote : isQuote quote = true) {tail after : List Char} (htail : IsTail tail)
    (hafter : LineEnd after) : takeLiteral quote (body ++ (tail ++ after)) = (body ++ tail, after) := by
  rw [h, htail.inLiteral hquote, takeLiteral_of_lineEnd hquote hafter, List.append_nil]

theorem blankLiteral_of_not_isClosed {body : List Char} (h : isClosed quote body = false) :
    blankLiteral quote body = quote :: blank body := by
  rw [blankLiteral, h]
  rfl

theorem blankLiteral_concat (body : List Char) :
    blankLiteral quote (body ++ [quote]) = quote :: blank body ++ [quote] := by
  rw [blankLiteral, isClosed, List.getLast?_concat, beq_self_eq_true, if_pos rfl, List.dropLast_concat]

/-- Whether a literal is closed is told by its end. -/
theorem isClosed_append (body : List Char) {more : List Char} (hne : more ≠ []) :
    isClosed quote (body ++ more) = isClosed quote more := by
  obtain ⟨c, hlast⟩ := Option.isSome_iff_exists.mp (List.getLast?_isSome.mpr hne)
  rw [isClosed, isClosed, List.getLast?_append, hlast, Option.some_or]

theorem isClosed_singleton {c : Char} (h : c ≠ quote) : isClosed quote [c] = false := by
  rw [isClosed, List.getLast?_singleton, beq_eq_false_iff_ne]
  exact fun heq => h (Option.some.inj heq)

theorem isClosed_append_of_tail {body tail : List Char} (htail : IsTail tail) (hne : tail ≠ [])
    (hquote : isQuote quote = true) : isClosed quote (body ++ tail) = false := by
  obtain ⟨tail, c, rfl⟩ := (List.eq_nil_or_concat tail).resolve_left hne
  rw [List.concat_eq_append, ← List.append_assoc, isClosed_append _ (List.cons_ne_nil _ _)]
  exact isClosed_singleton (htail.ne_quote hquote (by simp))

theorem exists_concat_of_isClosed {body : List Char} (h : isClosed quote body = true) :
    ∃ inner, body = inner ++ [quote] :=
  List.getLast?_eq_some_iff.mp (eq_of_beq h)

/-- A literal that its line or the text cuts off is not closed, and only such a literal. -/
theorem lineEnd_of_not_isClosed (hquote : isQuote quote = true) {text : List Char}
    (h : isClosed quote (takeLiteral quote text).1 = false) : LineEnd (takeLiteral quote text).2 := by
  obtain ⟨body, after, rfl, hbody, hafter⟩ := takeLiteral_cases hquote text
  rw [hbody] at h ⊢
  rcases hafter with rfl | rfl | hclose | hclose
  · exact lineEnd_nil
  · simp only [takeLiteral]
    exact lineEnd_nil
  · obtain ⟨after, rfl⟩ := List.head?_eq_some_iff.mp hclose
    rw [takeLiteral_quote_cons hquote, isClosed, List.getLast?_concat, beq_self_eq_true] at h
    cases h
  · obtain ⟨after, rfl⟩ := List.head?_eq_some_iff.mp hclose
    rw [takeLiteral_newline hquote]
    exact lineEnd_newline after

end Literals

/-- White space and quotes behind a quote end with a quote. -/
theorem EndsInQuote.append {text more : List Char} (h : EndsInQuote text) (hmore : SaysNothing more) :
    EndsInQuote (text ++ more) := by
  induction more generalizing text with
  | nil => rwa [List.append_nil]
  | cons c more ih =>
    have hstep : EndsInQuote (text ++ [c]) := by
      rcases hmore c List.mem_cons_self with hspace | hquote
      · obtain ⟨before, quote, blanks, rfl, hquote, hblanks⟩ := h
        refine ⟨before, quote, blanks ++ [c], by simp, hquote, fun d hd => ?_⟩
        rcases List.mem_append.mp hd with hd | hd
        · exact hblanks d hd
        · rwa [List.mem_singleton.mp hd]
      · exact ⟨text, c, [], rfl, hquote, nofun⟩
    have hrest := ih hstep fun d hd => hmore d (List.mem_cons_of_mem _ hd)
    rwa [List.append_assoc] at hrest

theorem endsInQuote_of_blank (before : List Char) {quote : Char} (hquote : isQuote quote = true)
    (body : List Char) : EndsInQuote (before ++ quote :: blank body) :=
  ⟨before, quote, blank body, rfl, hquote, fun _ hc => isSpace_of_mem_blank hc⟩

theorem endsInLiteral_of_literal {text body : List Char} {quote : Char} (hquote : isQuote quote = true)
    (hbody : InLiteral quote body) (h : Leaves text (quote :: body)) : EndsInLiteral text := by
  obtain ⟨masked, hmasked⟩ := h
  have hmask : ∀ tail after, IsTail tail → LineEnd after →
      mask (text ++ (tail ++ after)) = masked ++ (blankLiteral quote (body ++ tail) ++ mask after) := by
    intro tail after htail hafter
    rw [hmasked, List.cons_append, mask_quote hquote, hbody.takeLiteral_tail hquote htail hafter]
  have hline : quote ≠ '\n' := by
    rintro rfl
    cases hquote
  by_cases hclosed : isClosed quote body = true
  · -- the quote at the end is one that a backslash stands before
    obtain ⟨inner, rfl⟩ := exists_concat_of_isClosed hclosed
    refine ⟨masked ++ quote :: blank inner, fun tail => if tail = [] then [quote] else ' ' :: blank tail,
      endsInQuote_of_blank masked hquote inner, fun tail after htail hafter => ?_⟩
    rw [hmask tail after htail hafter]
    dsimp only
    by_cases hnil : tail = []
    · subst hnil
      refine ⟨by simpa using hline.symm, fun c hc => ?_, ?_⟩
      · exact Or.inr (List.mem_singleton.mp hc ▸ hquote)
      · rw [List.append_nil, blankLiteral_concat]
        simp
    · rw [if_neg hnil, blankLiteral_of_not_isClosed (isClosed_append_of_tail htail hnil hquote)]
      refine ⟨?_, fun c hc => ?_, by simp [blank, hline]⟩
      · rw [List.mem_cons, not_or]
        exact ⟨by decide, notMem_blank htail.notMem⟩
      · rcases List.mem_cons.mp hc with rfl | hc
        · exact Or.inl (by decide)
        · exact Or.inl (isSpace_of_mem_blank hc)
  · refine ⟨masked ++ quote :: blank body, blank, endsInQuote_of_blank masked hquote body,
      fun tail after htail hafter => ?_⟩
    have hopen : isClosed quote (body ++ tail) = false := by
      by_cases hnil : tail = []
      · rw [hnil, List.append_nil]
        exact Bool.eq_false_iff.mpr hclosed
      · exact isClosed_append_of_tail htail hnil hquote
    rw [hmask tail after htail hafter, blankLiteral_of_not_isClosed hopen]
    exact ⟨notMem_blank htail.notMem, fun c hc => Or.inl (isSpace_of_mem_blank hc), by simp⟩

/-- A backslash at the end of an open literal takes along what stands behind it. -/
theorem InLiteral.takeLiteral_escape {quote : Char} {body : List Char} (h : InLiteral quote body)
    (hquote : isQuote quote = true) (c : Char) (rest : List Char) :
    takeLiteral quote (body ++ ['\\'] ++ c :: rest) =
      (body ++ ['\\'] ++ c :: (takeLiteral quote rest).1, (takeLiteral quote rest).2) := by
  have hpair : takeLiteral quote (body ++ ['\\', c] ++ rest) =
      (body ++ ['\\', c] ++ (takeLiteral quote rest).1, (takeLiteral quote rest).2) := by
    rw [List.append_assoc, h, (inLiteral_nil quote).escape hquote]
    simp
  simpa using hpair

/-- A literal that takes the newline along is masked up to it, and what it takes of the next line says
nothing before its own quote. -/
theorem exists_beginsInLiteral {quote : Char} (hquote : isQuote quote = true) (body rest : List Char) :
    ∃ next, BeginsInLiteral next ∧
      blankLiteral quote (body ++ '\n' :: (takeLiteral quote rest).1) ++ mask (takeLiteral quote rest).2 =
        quote :: blank body ++ '\n' :: next := by
  by_cases hclosed : isClosed quote (takeLiteral quote rest).1 = true
  · obtain ⟨inner, hinner⟩ := exists_concat_of_isClosed hclosed
    refine ⟨blank inner ++ quote :: mask (takeLiteral quote rest).2,
      ⟨blank inner, _, rfl, fun _ hc => isSpace_of_mem_blank hc, fun c hc => ?_⟩, ?_⟩
    · exact Or.inr (Option.some.inj hc ▸ hquote)
    · have hbody : body ++ '\n' :: (takeLiteral quote rest).1 = body ++ '\n' :: inner ++ [quote] := by
        rw [hinner]
        simp
      rw [hbody, blankLiteral_concat, blank_append]
      simp [blank]
  · have hopen := Bool.eq_false_iff.mpr hclosed
    refine ⟨blank (takeLiteral quote rest).1 ++ mask (takeLiteral quote rest).2,
      ⟨_, _, rfl, fun _ hc => isSpace_of_mem_blank hc, fun c hc => ?_⟩, ?_⟩
    · exact Or.inl (lineEnd_mask (lineEnd_of_not_isClosed hquote hopen) c hc)
    · have hopen' : isClosed quote (body ++ '\n' :: (takeLiteral quote rest).1) = false := by
        rw [isClosed_append _ (List.cons_ne_nil _ _)]
        by_cases hnil : (takeLiteral quote rest).1 = []
        · rw [hnil]
          exact isClosed_singleton fun heq => by rw [← heq] at hquote; cases hquote
        · rw [← List.singleton_append, isClosed_append _ hnil, hopen]
      rw [blankLiteral_of_not_isClosed hopen', blank_append]
      simp [blank]

theorem endsInEscape_of_escape {text body : List Char} {quote : Char} (hquote : isQuote quote = true)
    (hbody : InLiteral quote body) (h : Leaves text (quote :: (body ++ ['\\']))) : EndsInEscape text := by
  obtain ⟨masked, hmasked⟩ := h
  refine ⟨masked ++ quote :: blank (body ++ ['\\']), endsInQuote_of_blank _ hquote _, ?_, fun rest => ?_⟩
  · intro tail after htail hafter hnil
    rw [hmasked, List.cons_append, mask_quote hquote]
    cases tail with
    | nil =>
      obtain rfl := hnil rfl
      have htake : takeLiteral quote (body ++ ['\\'] ++ ([] ++ [])) = (body ++ ['\\'], []) := by
        rw [List.append_nil, List.append_nil, hbody]
        rfl
      have hopen : isClosed quote (body ++ ['\\']) = false := by
        rw [isClosed_append _ (List.cons_ne_nil _ _)]
        exact isClosed_singleton fun heq => by rw [← heq] at hquote; cases hquote
      rw [htake, blankLiteral_of_not_isClosed hopen]
      simp [blank]
    | cons c tail =>
      have htake : takeLiteral quote (body ++ ['\\'] ++ (c :: tail ++ after)) =
          (body ++ ['\\'] ++ c :: tail, after) := by
        rw [List.cons_append, hbody.takeLiteral_escape hquote, htail.of_cons.inLiteral hquote,
          takeLiteral_of_lineEnd hquote hafter, List.append_nil]
      rw [htake, blankLiteral_of_not_isClosed
        (isClosed_append_of_tail htail (List.cons_ne_nil _ _) hquote), blank_append]
      simp
  · obtain ⟨next, hnext, heq⟩ := exists_beginsInLiteral hquote (body ++ ['\\']) rest
    refine ⟨next, hnext, ?_⟩
    rw [hmasked, List.cons_append, mask_quote hquote, hbody.takeLiteral_escape hquote, heq]
    simp

/-- **The four ways.**  A text ends in code, in a comment, in a literal, or behind a backslash in a
literal. -/
theorem ends_in (text : List Char) :
    EndsInCode text ∨ EndsInComment text ∨ EndsInLiteral text ∨ EndsInEscape text := by
  obtain ⟨pending, hpending, hleaves⟩ := exists_pending text
  cases hpending with
  | code =>
    obtain ⟨masked, hmasked⟩ := hleaves
    refine Or.inl ⟨masked, fun tail after htail _ => ?_⟩
    rw [hmasked, List.nil_append, mask_append_of_code htail.isCode]
  | slash =>
    obtain ⟨masked, hmasked⟩ := hleaves
    refine Or.inl ⟨masked ++ ['/'], fun tail after htail hafter => ?_⟩
    have hslash : mask ('/' :: (tail ++ after)) = '/' :: mask (tail ++ after) :=
      maskWith_slash _ (htail.head?_ne hafter (Or.inl rfl)) (htail.head?_ne hafter (Or.inr rfl))
    rw [hmasked, List.singleton_append, hslash, mask_append_of_code htail.isCode]
    simp
  | @line body hbody =>
    obtain ⟨masked, hmasked⟩ := hleaves
    refine Or.inr (Or.inl ⟨masked ++ blank ('/' :: '/' :: body), mask, mask_nil,
      fun tail after htail hafter => ⟨lineEnd_mask hafter, ?_⟩⟩)
    have htake : takeLine (body ++ (tail ++ after)) = (body ++ tail, after) := by
      rw [takeLine_append_of_notMem hbody, takeLine_append_of_notMem htail.notMem,
        takeLine_of_lineEnd hafter, List.append_nil]
    rw [hmasked, List.cons_append, List.cons_append, mask, maskWith_line, htake]
    simp [blank, mask]
  | @block body hbody =>
    obtain ⟨masked, hmasked⟩ := hleaves
    refine Or.inr (Or.inl ⟨masked ++ blank ('/' :: '*' :: body),
      fun after => blank (takeBlockComment after).1 ++ mask (takeBlockComment after).2, mask_nil,
      fun tail after htail hafter => ⟨?_, ?_⟩⟩)
    · dsimp only
      rcases hafter.cases with rfl | ⟨rest, rfl⟩
      · simp [takeBlockComment, blank, lineEnd_nil]
      · have hopen : '\n' = '*' → rest.head? ≠ some '/' := fun h => absurd h (by decide)
        rw [takeBlockComment_cons hopen]
        exact lineEnd_newline _
    · have htail' : takeBlockComment (tail ++ after) =
          (tail ++ (takeBlockComment after).1, (takeBlockComment after).2) := by
        clear hmasked
        induction tail with
        | nil => rfl
        | cons c tail ih =>
          have hc : c ≠ '*' := by
            rintro rfl
            exact absurd (htail '*' List.mem_cons_self).1 (by decide)
          rw [List.cons_append, takeBlockComment_cons fun h => absurd h hc, ih htail.of_cons]
          rfl
      rw [hmasked, List.cons_append, List.cons_append, mask, maskWith_block,
        hbody _ (htail.head?_ne hafter (Or.inl rfl)), htail']
      simp [blank, mask]
  | literal hquote hbody => exact Or.inr (Or.inr (Or.inl (endsInLiteral_of_literal hquote hbody hleaves)))
  | escape hquote hbody => exact Or.inr (Or.inr (Or.inr (endsInEscape_of_escape hquote hbody hleaves)))

/-- What stands before a tail has as many lines masked as it has. -/
theorem count_newline_of_mask {text masked shown rest : List Char}
    (h : mask (text ++ ([] ++ [])) = masked ++ (shown ++ rest)) (hshown : '\n' ∉ shown)
    (hrest : rest = []) : masked.count '\n' = text.count '\n' := by
  subst hrest
  rw [List.append_nil, List.append_nil, List.append_nil] at h
  rw [← count_newline_mask text, h, List.count_append, List.count_eq_zero.mpr hshown, Nat.add_zero]

/-! ### Where a semicolon stays -/

/-- A semicolon at the end is not masked. -/
def KeepsSemicolon (text : List Char) : Prop := (mask (text ++ [';'])).getLast? = some ';'

instance : DecidablePred KeepsSemicolon := fun text =>
  inferInstanceAs (Decidable ((mask (text ++ [';'])).getLast? = some ';'))

theorem not_keepsSemicolon_of_mask {text before : List Char} {c : Char}
    (h : mask (text ++ [';']) = before ++ [c]) (hc : c ≠ ';') : ¬ KeepsSemicolon text := by
  rw [KeepsSemicolon, h, List.getLast?_concat, Option.some.injEq]
  exact hc

theorem EndsInCode.keepsSemicolon {text : List Char} (h : EndsInCode text) : KeepsSemicolon text := by
  obtain ⟨masked, hmask⟩ := h
  have hsemicolon := hmask [';'] [] isTail_semicolon lineEnd_nil
  rw [KeepsSemicolon, ← List.append_nil [';'], hsemicolon, mask_nil, List.append_nil,
    List.getLast?_concat]

theorem EndsInComment.not_keepsSemicolon {text : List Char} (h : EndsInComment text) :
    ¬ KeepsSemicolon text := by
  obtain ⟨masked, resume, hnil, hmask⟩ := h
  obtain ⟨-, hsemicolon⟩ := hmask [';'] [] isTail_semicolon lineEnd_nil
  rw [hnil, List.append_nil] at hsemicolon
  exact not_keepsSemicolon_of_mask hsemicolon (by decide)

theorem EndsInLiteral.not_keepsSemicolon {text : List Char} (h : EndsInLiteral text) :
    ¬ KeepsSemicolon text := by
  obtain ⟨masked, shown, hquote, hmask⟩ := h
  obtain ⟨-, hshown, hsemicolon⟩ := hmask [';'] [] isTail_semicolon lineEnd_nil
  rw [List.append_nil, mask_nil, List.append_nil] at hsemicolon
  obtain ⟨before, quote, blanks, heq, hquote, hblanks⟩ := hquote.append hshown
  intro hkeeps
  rw [KeepsSemicolon, hsemicolon, heq] at hkeeps
  obtain ⟨front, hfront⟩ := List.getLast?_eq_some_iff.mp hkeeps
  have hsame := append_blanks_inj (not_isSpace_of_class (by decide) hquote) (by decide) hblanks
    (List.forall_mem_nil _) hfront
  rw [hsame.2.1] at hquote
  cases hquote

theorem EndsInEscape.not_keepsSemicolon {text : List Char} (h : EndsInEscape text) :
    ¬ KeepsSemicolon text := by
  obtain ⟨masked, -, hmask, -⟩ := h
  have hsemicolon := hmask [';'] [] isTail_semicolon lineEnd_nil nofun
  rw [List.append_nil, mask_nil, List.append_nil] at hsemicolon
  exact not_keepsSemicolon_of_mask hsemicolon (by decide)

/-! ### A semicolon in place of white space -/

/-- What the mask shows of white space at the end of a line, and of a semicolon in its place, behind what
it shows of the line: code, a comment, or a literal. -/
inductive TailChange (masked : List Char) : List Char → List Char → Prop
  | code {blanks : List Char} (h : ∀ c ∈ blanks, isSpace c = true) : TailChange masked blanks [';']
  | comment {blanks blanks' : List Char} (h : ∀ c ∈ blanks, isSpace c = true)
      (h' : ∀ c ∈ blanks', isSpace c = true) : TailChange masked blanks blanks'
  | literal {shown shown' : List Char} (hquote : EndsInQuote masked) (h : SaysNothing shown)
      (h' : SaysNothing shown') : TailChange masked shown shown'

theorem isQuote_iff {c : Char} : isQuote c = true ↔ c = '"' ∨ c = '\'' := by
  simp [isQuote]

namespace TailChange

variable {masked shown shown' : List Char}

/-- White space, quotes and a semicolon are all that is shown. -/
theorem notMem {x : Char} (h : TailChange masked shown shown') (hspace : isSpace x = false)
    (hquote : isQuote x = false) (hsemicolon : x ≠ ';') : x ∉ shown ∧ x ∉ shown' := by
  have hblank : ∀ {text : List Char}, (∀ c ∈ text, isSpace c = true) → x ∉ text := by
    intro text htext hmem
    rw [htext x hmem] at hspace
    cases hspace
  have hnothing : ∀ {text : List Char}, SaysNothing text → x ∉ text := by
    intro text htext hmem
    rcases htext x hmem with h | h
    · rw [h] at hspace
      cases hspace
    · rw [h] at hquote
      cases hquote
  cases h with
  | code hshown => exact ⟨hblank hshown, by simpa using hsemicolon⟩
  | comment hshown hshown' => exact ⟨hblank hshown, hblank hshown'⟩
  | literal _ hshown hshown' => exact ⟨hnothing hshown, hnothing hshown'⟩

/-- No word is shown. -/
theorem not_isWord (h : TailChange masked shown shown') :
    (∀ c ∈ shown, isWord c = false) ∧ ∀ c ∈ shown', isWord c = false := by
  have hword : ∀ {c : Char}, isWord c = true → c ∉ shown ∧ c ∉ shown' := by
    intro c hc
    refine h.notMem (not_isSpace_of_isWord hc) (Bool.eq_false_iff.mpr ?_) ?_
    · rw [ne_eq, isQuote_iff]
      rintro (rfl | rfl) <;> exact absurd hc (by decide)
    · rintro rfl
      exact absurd hc (by decide)
  exact ⟨fun c hc => Bool.eq_false_iff.mpr fun hw => (hword hw).1 hc,
    fun c hc => Bool.eq_false_iff.mpr fun hw => (hword hw).2 hc⟩

end TailChange

/-- The mask of a text with white space at the end of a line, and with a semicolon in its place. -/
structure TailMask (text blanks after : List Char) where
  masked : List Char
  shown : List Char
  shown' : List Char
  rest : List Char
  before : mask (text ++ (blanks ++ after)) = masked ++ (shown ++ rest)
  behind : mask (text ++ ([';'] ++ after)) = masked ++ (shown' ++ rest)
  lines : masked.count '\n' = text.count '\n'
  noLine : '\n' ∉ shown
  noLine' : '\n' ∉ shown'
  lineEnd : LineEnd rest
  change : TailChange masked shown shown'
  keeps : KeepsSemicolon text ↔ shown' = [';']

/-- The literal at the end of the line goes on in the next. -/
structure GoesOn (text after : List Char) where
  masked : List Char
  next : List Char
  mask_eq : mask (text ++ after) = masked ++ '\n' :: next
  lines : masked.count '\n' = text.count '\n'
  ends : EndsInQuote masked
  begins : BeginsInLiteral next

theorem ne_semicolon_of_saysNothing {text : List Char} (h : SaysNothing text) : text ≠ [';'] := by
  rintro rfl
  rcases h ';' List.mem_cons_self with h | h <;> revert h <;> decide

/-- **A semicolon in place of white space.**  The mask shows the line and what follows it as before,
unless a literal goes on in the next line. -/
theorem tailMask_or_goesOn {text blanks after : List Char} (hblanks : ∀ c ∈ blanks, isSpace c = true)
    (hline : '\n' ∉ blanks) (hafter : LineEnd after) :
    Nonempty (TailMask text blanks after) ∨
      Nonempty (GoesOn text (blanks ++ after)) ∧ ¬ KeepsSemicolon text := by
  have htail : IsTail blanks := isTail_of_blanks hblanks hline
  have hblank : ∀ {tail : List Char}, ∀ c ∈ blank tail, isSpace c = true := fun _ => isSpace_of_mem_blank
  rcases ends_in text with hends | hends | hends | hends
  · have hkeeps := hends.keepsSemicolon
    obtain ⟨masked, hmask⟩ := hends
    exact Or.inl ⟨{
      masked, shown := blanks, shown' := [';'], rest := mask after
      before := hmask blanks after htail hafter
      behind := hmask _ after isTail_semicolon hafter
      lines := count_newline_of_mask (hmask [] [] isTail_nil lineEnd_nil) List.not_mem_nil mask_nil
      noLine := hline, noLine' := isTail_semicolon.notMem, lineEnd := lineEnd_mask hafter
      change := .code hblanks, keeps := iff_of_true hkeeps rfl }⟩
  · have hkeeps := hends.not_keepsSemicolon
    obtain ⟨masked, resume, hnil, hmask⟩ := hends
    exact Or.inl ⟨{
      masked, shown := blank blanks, shown' := blank [';'], rest := resume after
      before := (hmask blanks after htail hafter).2
      behind := (hmask _ after isTail_semicolon hafter).2
      lines := count_newline_of_mask (hmask [] [] isTail_nil lineEnd_nil).2 List.not_mem_nil hnil
      noLine := notMem_blank hline, noLine' := notMem_blank isTail_semicolon.notMem
      lineEnd := (hmask blanks after htail hafter).1
      change := .comment hblank hblank, keeps := iff_of_false hkeeps (by decide) }⟩
  · have hkeeps := hends.not_keepsSemicolon
    obtain ⟨masked, shown, hquote, hmask⟩ := hends
    obtain ⟨hnoline, hshown, hbefore⟩ := hmask blanks after htail hafter
    obtain ⟨hnoline', hshown', hbehind⟩ := hmask [';'] after isTail_semicolon hafter
    obtain ⟨hnil, -, hlines⟩ := hmask [] [] isTail_nil lineEnd_nil
    exact Or.inl ⟨{
      masked, shown := shown blanks, shown' := shown [';'], rest := mask after
      before := hbefore, behind := hbehind, lines := count_newline_of_mask hlines hnil mask_nil
      noLine := hnoline, noLine' := hnoline', lineEnd := lineEnd_mask hafter
      change := .literal hquote hshown hshown'
      keeps := iff_of_false hkeeps (ne_semicolon_of_saysNothing hshown') }⟩
  · have hkeeps := hends.not_keepsSemicolon
    obtain ⟨masked, hquote, hmask, hnext⟩ := hends
    have hlines := count_newline_of_mask (hmask [] [] isTail_nil lineEnd_nil fun _ => rfl)
      List.not_mem_nil mask_nil
    by_cases hescaped : blanks = [] → after = []
    · exact Or.inl ⟨{
        masked, shown := blank blanks, shown' := blank [';'], rest := mask after
        before := hmask blanks after htail hafter hescaped
        behind := hmask _ after isTail_semicolon hafter nofun
        lines := hlines, noLine := notMem_blank hline, noLine' := notMem_blank isTail_semicolon.notMem
        lineEnd := lineEnd_mask hafter
        change := .literal hquote (fun c hc => Or.inl (hblank c hc)) fun c hc => Or.inl (hblank c hc)
        keeps := iff_of_false hkeeps (by decide) }⟩
    · rw [Classical.not_imp] at hescaped
      obtain ⟨rfl, hne⟩ := hescaped
      obtain ⟨rest, rfl⟩ := hafter.cases.resolve_left hne
      obtain ⟨next, hbegins, hbefore⟩ := hnext rest
      exact Or.inr ⟨⟨{ masked, next, mask_eq := hbefore, lines := hlines, ends := hquote,
                       begins := hbegins }⟩, hkeeps⟩

end Coach.Source
