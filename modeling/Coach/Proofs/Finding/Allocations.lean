import Coach.Finding.Allocation
import Coach.Proofs.Text.Locality
import Coach.Proofs.Text.Parts

/-!
# Allocations on a line that is changed

What an allocation is told by ends with a bracket or a brace, so a change of the line behind it leaves
the allocation what it was.  A size between brackets takes precedence over items between braces wherever
it stands, so the change must not make up such a size: neither a comparison without its equality sign nor
another literal between brackets does.

## Main statements

* `newArray_of_comparison`, `newArray_of_brackets`: no size between brackets is made up
* `allocation_append`: the allocation of a line whose rest is changed
-/

namespace Coach.Finding

open Coach.Text

/-! ### Sizes between brackets -/

/-- What the allocation of an array says before the bracket of its size. -/
def newArrayHead : List Pattern :=
  [.group 1 .word, .space, .char '=', .space, .text "new", .space1, .word, .space]

/-- What stands between the brackets of the size. -/
def newArraySize : List Pattern := [.space, .group 2 .digits, .space]

theorem newArray_eq : newArray =
    .all (.boundary :: (newArrayHead ++ .char '[' :: (newArraySize ++ [.char ']']))) := rfl

/-- The size of an array stands between brackets, behind a word that begins there. -/
theorem newArray_occursIn_iff {text : List Char} : newArray.occursIn text = true ↔
    ∃ before head size after, text = before ++ (head ++ '[' :: (size ++ ']' :: after)) ∧
      (∀ c, before.getLast? = some c → isWord c = false) ∧
        (Pattern.all newArrayHead).Takes head ∧ (Pattern.all newArraySize).Takes size := by
  have hplain : (Pattern.all (newArrayHead ++ .char '[' :: (newArraySize ++ [.char ']']))).Plain := by
    simp [newArrayHead, newArraySize, Pattern.all, Pattern.Plain, Pattern.space, Pattern.char,
      Pattern.space1, Pattern.plus, Pattern.word, Pattern.digits, Pattern.plain_text]
  have hsteady : (Pattern.all (newArrayHead ++ .char '[' :: (newArraySize ++ [.char ']']))).Steady := by
    have hplus : ∀ p : Char → Bool, (Pattern.plus (.one p)).Steady := fun p =>
      ⟨trivial, Pattern.steady_star_one p⟩
    have hspace1 : Pattern.space1.Steady := hplus _
    have hword : Pattern.word.Steady := hplus _
    have hdigits : Pattern.digits.Steady := hplus _
    simp [newArrayHead, newArraySize, Pattern.all, Pattern.Steady, Pattern.steady_space, Pattern.char,
      Pattern.steady_text, hspace1, hword, hdigits]
  have htakes : ∀ taken, (Pattern.all (newArrayHead ++ .char '[' :: (newArraySize ++ [.char ']']))).Takes
      taken ↔ ∃ head size, taken = head ++ '[' :: (size ++ [']']) ∧
        (Pattern.all newArrayHead).Takes head ∧ (Pattern.all newArraySize).Takes size := by
    intro taken
    rw [Pattern.takes_all_append (List.cons_ne_nil _ _)]
    constructor
    · rintro ⟨head, _, rfl, hhead, _, rest, rfl, hopen, hrest⟩
      obtain rfl := Pattern.takes_char.mp hopen
      obtain ⟨size, _, rfl, hsize, hclose⟩ := (@Pattern.takes_all_append newArraySize [.char ']']
        (List.cons_ne_nil _ _) rest).mp hrest
      obtain rfl := Pattern.takes_char.mp hclose
      exact ⟨head, size, rfl, hhead, hsize⟩
    · rintro ⟨head, size, rfl, hhead, hsize⟩
      exact ⟨head, _, rfl, hhead, ['['], _, rfl, Pattern.takes_char.mpr rfl,
        (@Pattern.takes_all_append newArraySize [.char ']'] (List.cons_ne_nil _ _) _).mpr
          ⟨size, [']'], rfl, hsize, Pattern.takes_char.mpr rfl⟩⟩
  have hne : newArrayHead ++ .char '[' :: (newArraySize ++ [.char ']']) ≠ [] := List.cons_ne_nil _ _
  rw [newArray_eq, Pattern.occursIn_boundary_iff hne hplain hsteady]
  · constructor
    · rintro ⟨before, taken, after, rfl, hbefore, htaken⟩
      obtain ⟨head, size, rfl, hhead, hsize⟩ := (htakes taken).mp htaken
      exact ⟨before, head, size, after, by simp, hbefore, hhead, hsize⟩
    · rintro ⟨before, head, size, after, rfl, hbefore, hhead, hsize⟩
      exact ⟨before, _, after, by simp, hbefore, (htakes _).mpr ⟨head, size, rfl, hhead, hsize⟩⟩
  · rintro taken ⟨_, rest, rfl, hword, -⟩
    obtain ⟨hne, hname⟩ := Pattern.takes_plus_one.mp hword
    obtain ⟨c, name, rfl⟩ := List.exists_cons_of_ne_nil hne
    exact ⟨c, name ++ rest, rfl, hname c List.mem_cons_self⟩

section Made

variable {left right : List Char}

theorem notMem_of_takes_newArrayHead {head : List Char} {c : Char}
    (hhead : (Pattern.all newArrayHead).Takes head) (hc : c = '<' ∨ c = ']') : c ∉ head := by
  have hwithin : (Pattern.all newArrayHead).Within (· ≠ c) := by
    simp only [newArrayHead, Pattern.all, Pattern.Within, Pattern.within_text_iff, Pattern.within_char_iff,
      Pattern.within_space_iff, Pattern.within_space1_iff, Pattern.within_word_iff]
    rcases hc with rfl | rfl <;> decide
  exact fun hmem => hhead.within hwithin c hmem rfl

theorem notMem_of_takes_newArraySize {size : List Char} {c : Char}
    (hsize : (Pattern.all newArraySize).Takes size) (hc : c = '<' ∨ c = '[' ∨ c = ']') : c ∉ size := by
  have hwithin : (Pattern.all newArraySize).Within (· ≠ c) := by
    simp only [newArraySize, Pattern.all, Pattern.Within, Pattern.digits, Pattern.within_plus_one_iff,
      Pattern.within_space_iff]
    rcases hc with rfl | rfl | rfl <;> decide
  exact fun hmem => hsize.within hwithin c hmem rfl

/-- A comparison without its equality sign makes up no size. -/
theorem newArray_of_comparison (h : newArray.occursIn (left ++ '<' :: right) = true) :
    newArray.occursIn (left ++ '<' :: '=' :: right) = true := by
  rw [newArray_occursIn_iff] at h ⊢
  obtain ⟨before, head, size, after, heq, hbefore, hhead, hsize⟩ := h
  have hnot : '<' ∉ head ++ '[' :: (size ++ [']']) := by
    simp [notMem_of_takes_newArrayHead hhead, notMem_of_takes_newArraySize hsize]
  have hcut : before ++ (head ++ '[' :: (size ++ [']']) ++ after) = left ++ '<' :: right := by
    simpa using heq.symm
  rcases exists_beside hnot hcut with ⟨more, rfl, -⟩ | ⟨more, rfl, rfl⟩
  · exact ⟨before, head, size, more ++ '<' :: '=' :: right, by simp, hbefore, hhead, hsize⟩
  · refine ⟨left ++ '<' :: '=' :: more, head, size, after, by simp, fun c hc => ?_, hhead, hsize⟩
    cases hlast : more.getLast? with
    | none =>
      obtain rfl := List.getLast?_eq_none_iff.mp hlast
      rw [List.getLast?_append, List.getLast?_cons_cons, List.getLast?_singleton, Option.some_or] at hc
      obtain rfl := Option.some.inj hc
      decide
    | some d =>
      refine hbefore c ?_
      simpa [List.getLast?_append, List.getLast?_cons, hlast] using hc

/-- Another literal between brackets makes up no size. -/
theorem newArray_of_brackets {digits digits' : List Char} (hne : digits ≠ [])
    (hdigits : ∀ c ∈ digits, isDecimal c = true) (hdigits' : ∀ c ∈ digits', isDecimal c = true)
    (h : newArray.occursIn (left ++ '[' :: (digits' ++ ']' :: right)) = true) :
    newArray.occursIn (left ++ '[' :: (digits ++ ']' :: right)) = true := by
  rw [newArray_occursIn_iff] at h ⊢
  obtain ⟨before, head, size, after, heq, hbefore, hhead, hsize⟩ := h
  have hbracket : ∀ {c : Char}, isDecimal c = false → c ∉ digits' := fun hc hmem => by
    rw [hdigits' _ hmem] at hc
    cases hc
  rcases exists_beside_brackets (notMem_of_takes_newArrayHead hhead (Or.inr rfl))
      (notMem_of_takes_newArraySize hsize (Or.inr (Or.inl rfl)))
      (notMem_of_takes_newArraySize hsize (Or.inr (Or.inr rfl))) (hbracket (c := '[') (by decide))
      (hbracket (c := ']') (by decide)) heq.symm with ⟨more, rfl⟩ | ⟨rfl, -, -⟩ | ⟨more, rfl, rfl⟩
  · exact ⟨before, head, size, more ++ '[' :: (digits ++ ']' :: right), by simp, hbefore, hhead, hsize⟩
  · -- the literal is the size
    have hnil : Pattern.space.Takes [] := Pattern.takes_space.mpr (List.forall_mem_nil _)
    exact ⟨before, head, digits, right, by simp, hbefore, hhead, [], digits, rfl, hnil, digits, [],
      (List.append_nil digits).symm, Pattern.takes_plus_one.mpr ⟨hne, hdigits⟩, hnil⟩
  · refine ⟨left ++ '[' :: (digits ++ ']' :: more), head, size, after, by simp, fun c hc => ?_, hhead,
      hsize⟩
    refine hbefore c ?_
    rw [List.getLast?_append, List.getLast?_cons, List.getLast?_append, List.getLast?_cons] at hc ⊢
    exact hc

end Made

/-! ### The rest of the line -/

/-- What stands before the brace that closes the items of an array. -/
def arrayLiteralItems : List Pattern :=
  [.boundary, .word, .space, .char '[', .space, .char ']', .space, .group 1 .word, .space, .char '=',
    .space, .char '\x7b', .group 2 (.star (.noneOf "\x7b\x7d"))]

section Rest

variable {front : List Char} {m : Match}

theorem search?_newArray (h : newArray.search? (front ++ m.rest) = some m) (rest : List Char) :
    ∃ m', newArray.search? (front ++ rest) = some m' ∧ m'.rest = rest ∧
      ∀ number, m'.group number = m.group number := by
  have hshort : ∀ p ∈ .boundary :: (newArrayHead ++ .char '[' :: newArraySize), p.Shortsighted := by
    simp [newArrayHead, newArraySize, Pattern.shortsighted_boundary, Pattern.shortsighted_text,
      Pattern.Shortsighted, Pattern.word, Pattern.space, Pattern.space1, Pattern.digits, Pattern.plus,
      Pattern.char]
  have hwithin : ∀ p ∈ .boundary :: (newArrayHead ++ .char '[' :: newArraySize), p.Within (· ≠ ']') := by
    simp only [newArrayHead, newArraySize, List.cons_append, List.nil_append, List.forall_mem_cons,
      List.not_mem_nil, false_implies, implies_true, Pattern.boundary, Pattern.Within,
      Pattern.within_word_iff, Pattern.within_space_iff, Pattern.within_space1_iff,
      Pattern.within_char_iff, Pattern.within_text_iff, Pattern.digits, Pattern.within_plus_one_iff]
    decide
  exact Pattern.search?_append (fun p hp => ⟨hshort p hp, hwithin p hp⟩) rfl h rest

theorem search?_arrayLiteral (h : arrayLiteral.search? (front ++ m.rest) = some m) (rest : List Char) :
    ∃ m', arrayLiteral.search? (front ++ rest) = some m' ∧ m'.rest = rest ∧
      ∀ number, m'.group number = m.group number := by
  have hshort : ∀ p ∈ arrayLiteralItems, p.Shortsighted := by
    simp [arrayLiteralItems, Pattern.shortsighted_boundary, Pattern.Shortsighted, Pattern.word,
      Pattern.space, Pattern.plus, Pattern.char, Pattern.noneOf]
  have hwithin : ∀ p ∈ arrayLiteralItems, p.Within (· ≠ '\x7d') := by
    simp only [arrayLiteralItems, List.forall_mem_cons, List.not_mem_nil, false_implies, implies_true,
      Pattern.boundary, Pattern.Within, Pattern.within_word_iff, Pattern.within_space_iff,
      Pattern.within_char_iff, Pattern.within_noneOf_iff]
    decide
  exact Pattern.search?_append (fun p hp => ⟨hshort p hp, hwithin p hp⟩) rfl h rest

end Rest

/-- **The allocation of a line whose rest is changed** is what it was, if no size is made up. -/
theorem allocation_append {front rest : List Char} {a : Allocation}
    (h : allocation (front ++ a.rest) = some (some a))
    (hmade : newArray.occursIn (front ++ rest) = true → newArray.occursIn (front ++ a.rest) = true) :
    allocation (front ++ rest) = some (some { a with rest }) := by
  unfold allocation at h
  split at h
  · next m hm =>
    obtain ⟨size, hsize, heq⟩ := Option.map_eq_some_iff.mp h
    obtain rfl := Option.some.inj heq
    dsimp only at h ⊢
    obtain ⟨m', hm', hrest, hgroup⟩ := search?_newArray hm rest
    rw [allocation, hm']
    dsimp only
    rw [hgroup, hgroup, hsize, hrest, Option.map_some]
  · next hnone =>
    have hnone' : newArray.search? (front ++ rest) = none := by
      rw [← Option.not_isSome_iff_eq_none]
      intro hsome
      have hold : (newArray.search? (front ++ a.rest)).isSome = true := hmade hsome
      rw [hnone] at hold
      cases hold
    split at h
    · next m hm =>
      obtain rfl := Option.some.inj (Option.some.inj h)
      dsimp only at h ⊢
      obtain ⟨m', hm', hrest, hgroup⟩ := search?_arrayLiteral hm rest
      rw [allocation, hnone', hm']
      dsimp only
      rw [hgroup, hgroup, hrest]
    · cases h

end Coach.Finding
