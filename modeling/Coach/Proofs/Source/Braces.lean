import Coach.Proofs.Source.Regions
import Coach.Source.Block

/-!
# Braces in the two masks of a source text

A block is looked for in the text without its comments, where literals have to be passed over.  The brace
that opens it was found in the text without the insides of literals.  Counting braces in that second text
finds the same closing brace, because nothing moves between the two texts and no literal shows a brace.

## Main definitions

* `level`: the braces that are open at a place, counted from another
* `closing?`: the first place behind which none is open any more
* `blockEnd`: the place behind the block that is opened at a place
* `countedLength`: the length of a block as counting alone finds it

## Main statements

* `length_takeBlock_maskComments`: passing over literals and counting without them come to the same
* `countedLength_cases`: counting finds the first place behind which no brace is open
* `blockEnd_maskComments`: the two masks agree on where a block ends
-/

namespace Coach.Source

/-! ### Levels -/

/-- The braces that a text leaves open; what it closes without having opened it counts down. -/
def openBraces (text : List Char) : Int := text.count '\x7b' - text.count '\x7d'

/-- The braces that are open behind the character at `last`, counted from `first` on. -/
def level (text : List Char) (first last : Nat) : Int :=
  openBraces ((text.drop first).take (last + 1 - first))

/-- The first place, from `first` on, behind which no brace is open. -/
def closing? (text : List Char) (first : Nat) : Option Nat :=
  (List.range' first (text.length - first)).find? fun last => level text first last == 0

/-- The place behind the block that is opened at a place. -/
def blockEnd (text : List Char) (start : Nat) : Nat :=
  start + (takeBlock 0 (text.drop start)).1.length

theorem openBraces_cons (c : Char) (text : List Char) :
    openBraces (c :: text) = openBraces [c] + openBraces text := by
  simp only [openBraces, List.count_cons, List.count_nil, Nat.zero_add]
  omega

/-! ### Counting -/

/-- The braces that are open behind a character, none of which it closes unless it is one of them. -/
def depthBehind (depth : Nat) (c : Char) : Nat :=
  if c = '\x7b' then depth + 1 else if c = '\x7d' then depth - 1 else depth

/-- The length of a block as counting braces alone finds it. -/
def countedLength (depth : Nat) : List Char → Nat
  | [] => 0
  | c :: rest => if c = '\x7d' ∧ depth ≤ 1 then 1 else countedLength (depthBehind depth c) rest + 1

theorem depthBehind_eq {depth : Nat} {c : Char} (hdepth : 0 < depth) (h : ¬ (c = '\x7d' ∧ depth ≤ 1)) :
    0 < depthBehind depth c ∧ (depthBehind depth c : Int) = depth + openBraces [c] := by
  unfold depthBehind
  split
  · next hopen =>
    subst hopen
    exact ⟨Nat.succ_pos _, rfl⟩
  · next hopen =>
    split
    · next hclose =>
      subst hclose
      have htwo : 1 < depth := by simpa using h
      have hone : openBraces ['\x7d'] = -1 := rfl
      omega
    · next hclose =>
      have hnone : openBraces [c] = 0 := by simp [openBraces, hopen, hclose]
      omega

/-- A text without braces is counted through. -/
theorem countedLength_append {front : List Char} (hopen : '\x7b' ∉ front) (hclose : '\x7d' ∉ front)
    (depth : Nat) (after : List Char) :
    countedLength depth (front ++ after) = front.length + countedLength depth after := by
  induction front with
  | nil => simp
  | cons c front ih =>
    rw [List.mem_cons, not_or] at hopen hclose
    have hsame : depthBehind depth c = depth := by
      rw [depthBehind, if_neg (Ne.symm hopen.1), if_neg (Ne.symm hclose.1)]
    rw [List.cons_append, countedLength, if_neg (fun h => hclose.1 h.1.symm), hsame,
      ih hopen.2 hclose.2, List.length_cons]
    omega

/-- From a depth on, a text closes at a place what was open, and nothing closes it before. -/
structure ClosesAt (depth : Nat) (text : List Char) (n : Nat) : Prop where
  lt : n < text.length
  zero : depth + openBraces (text.take (n + 1)) = 0
  first : ∀ k < n, depth + openBraces (text.take (k + 1)) ≠ 0

/-- Counting finds the first place behind which no brace is open, or there is none. -/
theorem countedLength_cases {depth : Nat} (hdepth : 0 < depth) (text : List Char) :
    (∃ n, ClosesAt depth text n ∧ countedLength depth text = n + 1) ∨
      (∀ n < text.length, depth + openBraces (text.take (n + 1)) ≠ 0) ∧
        countedLength depth text = text.length := by
  induction text generalizing depth with
  | nil => exact Or.inr ⟨nofun, rfl⟩
  | cons c text ih =>
    rw [countedLength]
    split
    · next hc =>
      obtain ⟨rfl, hle⟩ := hc
      obtain rfl : depth = 1 := by omega
      exact Or.inl ⟨0, ⟨Nat.succ_pos _, rfl, nofun⟩, rfl⟩
    · next hc =>
      obtain ⟨hpos, hopen⟩ := depthBehind_eq hdepth hc
      have htake : ∀ n, (depth : Int) + openBraces ((c :: text).take (n + 1)) =
          depthBehind depth c + openBraces (text.take n) := by
        intro n
        rw [List.take_succ_cons, openBraces_cons, hopen, Int.add_assoc]
      -- the character itself closes nothing, so what is open behind it decides
      have hstays : ∀ n, (∀ k < n, (depthBehind depth c : Int) + openBraces (text.take (k + 1)) ≠ 0) →
          ∀ k < n + 1, (depth : Int) + openBraces ((c :: text).take (k + 1)) ≠ 0 := by
        intro n hfirst k hk
        rw [htake]
        cases k with
        | zero =>
          rw [List.take_zero, show openBraces [] = 0 from rfl]
          omega
        | succ k => exact hfirst k (Nat.lt_of_succ_lt_succ hk)
      rcases ih hpos with ⟨n, hn, hlength⟩ | ⟨hnone, hlength⟩
      · exact Or.inl ⟨n + 1, ⟨Nat.succ_lt_succ hn.lt, by rw [htake, hn.zero], hstays n hn.first⟩,
          by rw [hlength]⟩
      · exact Or.inr ⟨hstays text.length hnone, by rw [hlength, List.length_cons]⟩

/-! ### The two masks -/

/-- Blanks belong to the block that they stand in. -/
theorem takeBlock_blank_append (depth : Nat) (part after : List Char) :
    (takeBlock depth (blank part ++ after)).1.length = part.length + (takeBlock depth after).1.length := by
  induction part with
  | nil => simp [blank]
  | cons c part ih =>
    have hcons : blank (c :: part) = (if c = '\n' then c else ' ') :: blank part := rfl
    have hmem : (if c = '\n' then c else ' ') ∈ blank [c] := List.mem_cons_self
    generalize (if c = '\n' then c else ' ') = d at hcons hmem
    have hd := eq_or_eq_of_mem_blank hmem
    have hquote : isQuote d = false := (isCode_of_mem_blank hmem).2
    have hopen : d ≠ '\x7b' := by rcases hd with rfl | rfl <;> decide
    have hclose : d ≠ '\x7d' := by rcases hd with rfl | rfl <;> decide
    rw [hcons, List.cons_append, takeBlock, if_neg (Bool.eq_false_iff.mp hquote),
      if_neg (fun h => hclose h.1)]
    simp only [if_neg hopen, if_neg hclose, List.length_cons, ih]
    omega

/-- Passing over literals in one mask and counting in the other come to the same. -/
theorem length_takeBlock_maskComments (depth : Nat) (text : List Char) :
    (takeBlock depth (maskComments text)).1.length = countedLength depth (mask text) := by
  induction text using induction_on_pieces generalizing depth with
  | nil => simp [maskComments, takeBlock, countedLength]
  | code c after hopens ih =>
    rw [maskComments, mask, maskWith_of_opensNothing _ hopens, maskWith_of_opensNothing _ hopens,
      takeBlock, countedLength, if_neg (Bool.eq_false_iff.mp hopens.notQuote)]
    split
    · rfl
    · exact congrArg (· + 1) (ih _)
  | comment comment after hcomment ih =>
    have hopen : '\x7b' ∉ blank comment := fun hmem => by simpa using eq_or_eq_of_mem_blank hmem
    have hclose : '\x7d' ∉ blank comment := fun hmem => by simpa using eq_or_eq_of_mem_blank hmem
    rw [maskComments, mask, maskWith_comment _ hcomment, maskWith_comment _ hcomment, ← maskComments,
      ← mask, takeBlock_blank_append, countedLength_append hopen hclose, ih, blank, List.length_map]
  | literal quote body after hquote htake ih =>
    have hopen : '\x7b' ∉ blankLiteral quote body :=
      notMem_blankLiteral hquote (by decide) (by decide) (by decide)
    have hclose : '\x7d' ∉ blankLiteral quote body :=
      notMem_blankLiteral hquote (by decide) (by decide) (by decide)
    have hlength := (forall₂_blankLiteral quote body).length_eq
    rw [maskComments, mask, maskWith_literal _ hquote htake, maskWith_literal _ hquote htake,
      ← maskComments, ← mask, List.cons_append, takeBlock, if_pos hquote,
      takeLiteral_append_maskComments hquote htake,
      countedLength_append hopen hclose, ← ih, ← hlength]
    simp only [List.length_cons, List.length_append]

/-! ### The place behind a block -/

/-- Counting on from an opening brace is counting from its place. -/
theorem level_add {text rest : List Char} {first : Nat} (h : text.drop first = '\x7b' :: rest) (n : Nat) :
    level text first (first + n) = 1 + openBraces (rest.take n) := by
  rw [level, h, show first + n + 1 - first = n + 1 by omega, List.take_succ_cons, openBraces_cons]
  rfl

/-- What an opening brace opened stays open as long as nothing behind it has closed it. -/
theorem level_ne_zero {text rest : List Char} {first n last : Nat}
    (h : text.drop first = '\x7b' :: rest)
    (hopen : ∀ k < n, (1 : Int) + openBraces (rest.take (k + 1)) ≠ 0)
    (hfirst : first ≤ last) (hlast : last < first + (n + 1)) : level text first last ≠ 0 := by
  obtain ⟨k, rfl⟩ := Nat.exists_eq_add_of_le hfirst
  rw [level_add h]
  cases k with
  | zero =>
    rw [List.take_zero]
    decide
  | succ k => exact hopen k (by omega)

/-- Counting from an opening brace on comes to the place behind the closing one, or to the end. -/
theorem add_countedLength {text : List Char} {first : Nat} (h : text[first]? = some '\x7b') :
    first + countedLength 0 (text.drop first) =
      ((closing? text first).map (· + 1)).getD text.length := by
  have hdrop := drop_of_getElem? h
  have hlength : text.length - first = (text.drop (first + 1)).length + 1 := by
    rw [← List.length_drop, hdrop, List.length_cons]
  have hcount : countedLength 0 (text.drop first) = countedLength 1 (text.drop (first + 1)) + 1 := by
    rw [hdrop]
    rfl
  rw [hcount]
  rcases countedLength_cases Nat.one_pos (text.drop (first + 1)) with ⟨n, hn, heq⟩ | ⟨hnone, heq⟩
  · have hclosing : closing? text first = some (first + (n + 1)) := by
      have hlt := hn.lt
      rw [closing?, List.find?_range'_eq_some]
      refine ⟨beq_iff_eq.mpr ((level_add hdrop _).trans hn.zero),
        List.mem_range'_1.mpr (by omega), fun last hfirst hlast => ?_⟩
      rw [Bool.not_eq_true', beq_eq_false_iff_ne]
      exact level_ne_zero hdrop hn.first hfirst hlast
    rw [hclosing, heq]
    rfl
  · have hclosing : closing? text first = none := by
      rw [closing?, List.find?_range'_eq_none]
      intro last hfirst hlast
      rw [Bool.not_eq_true', beq_eq_false_iff_ne]
      exact level_ne_zero hdrop hnone hfirst (hlength ▸ hlast)
    rw [hclosing, heq, Option.map_none, Option.getD_none]
    omega

/-- **The two masks agree on where a block ends.**  Where the mask without comments and literals shows an
opening brace, passing over literals in the text without comments comes to the place behind the first one
at which counting braces in the mask comes back to zero, or to the end of the text if it never does. -/
theorem blockEnd_maskComments (code : List Char) (start : Nat) (h : (mask code)[start]? = some '\x7b') :
    blockEnd (maskComments code) start =
      ((closing? (mask code) start).map (· + 1)).getD code.length := by
  have hregion := regions_of_getElem?_mask h (by decide) (by decide) (by decide)
  rw [blockEnd, ← maskComments_drop hregion, length_takeBlock_maskComments, mask_drop hregion,
    add_countedLength h, (keepsPlaces_mask code).length_eq]

/-- A brace in a literal, one in a comment, and a block in the block. -/
theorem blockEnd_maskComments_literal :
    let code := "f \x7b\"\x7d\\\"\" /*\x7d*/ \x7b\x7d \x7d \x7d".toList
    (mask code)[2]? = some '\x7b' ∧
      blockEnd (maskComments code) 2 = ((closing? (mask code) 2).map (· + 1)).getD code.length := by
  intro code
  have h : (mask code)[2]? = some '\x7b' := by decide +kernel
  exact ⟨h, blockEnd_maskComments code 2 h⟩

end Coach.Source
