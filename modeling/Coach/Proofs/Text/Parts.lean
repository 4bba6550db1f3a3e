import Coach.Text.Basic

/-!
# Parts of a text

A text of which a part is cut off, or that is broken at a part, is put together from the pieces.  Where a
text has a certain character, a part without it stands before or behind that place.  A part with one pair
of brackets at its end stands before or behind another such pair, or shares it.

## Main statements

* `eq_append_of_dropStart?`, `eq_append_of_breakOn?`: a text and its pieces
* `startsWith_iff`, `endsWith_iff`: what a text begins and ends with
* `takeWhile_run`: a run of characters, which ends where one of another kind follows
* `exists_beside`: a part without a character
* `exists_beside_brackets`: a part that ends with a pair of brackets
-/

namespace Coach.Text

variable {before part after left right inner inner' : List Char} {c : Char}

theorem eq_append_of_dropStart? {start text rest : List Char} (h : dropStart? start text = some rest) :
    text = start ++ rest := by
  induction start generalizing text with
  | nil => exact Option.some.inj h
  | cons s start ih =>
    cases text with
    | nil => cases h
    | cons c text =>
      simp only [dropStart?] at h
      split at h
      · next heq => rw [heq, ih h, List.cons_append]
      · cases h

theorem dropStart?_append (start rest : List Char) : dropStart? start (start ++ rest) = some rest := by
  induction start with
  | nil => rfl
  | cons c start ih => rw [List.cons_append, dropStart?, if_pos rfl, ih]

theorem startsWith_iff {text start : List Char} : startsWith text start = true ↔ start <+: text := by
  rw [startsWith, Option.isSome_iff_exists]
  constructor
  · rintro ⟨rest, hrest⟩
    exact ⟨rest, (eq_append_of_dropStart? hrest).symm⟩
  · rintro ⟨rest, rfl⟩
    exact ⟨rest, dropStart?_append start rest⟩

theorem endsWith_iff {text ending : List Char} : endsWith text ending = true ↔ ending <:+ text := by
  rw [endsWith, startsWith_iff, List.reverse_prefix]

theorem eq_append_of_breakOn? {text : List Char} (h : breakOn? part text = some (before, after)) :
    text = before ++ (part ++ after) := by
  induction text generalizing before with
  | nil =>
    simp only [breakOn?, List.isEmpty_iff] at h
    split at h
    · next hpart =>
      obtain ⟨rfl, rfl⟩ := Prod.mk.inj (Option.some.inj h)
      rw [hpart]
      rfl
    · cases h
  | cons c text ih =>
    simp only [breakOn?] at h
    split at h
    · next hdrop =>
      obtain ⟨rfl, rfl⟩ := Prod.mk.inj (Option.some.inj h)
      rw [eq_append_of_dropStart? hdrop, List.nil_append]
    · obtain ⟨⟨before, after⟩, hbreak, heq⟩ := Option.map_eq_some_iff.mp h
      obtain ⟨rfl, rfl⟩ := Prod.mk.inj heq
      rw [ih hbreak]
      rfl

/-- What stands before a character that a text has not stands behind that text. -/
theorem exists_of_append_cons (hc : c ∉ part) (h : part ++ after = left ++ c :: right) :
    ∃ more, left = part ++ more ∧ after = more ++ c :: right := by
  rcases List.append_eq_append_iff.mp h with ⟨more, hmore, hafter⟩ | ⟨more, hpart, hcons⟩
  · exact ⟨more, hmore, hafter⟩
  · cases more with
    | nil => exact ⟨[], by simpa using hpart.symm, hcons.symm⟩
    | cons d more =>
      obtain ⟨rfl, -⟩ := List.cons.inj hcons
      exact absurd (hpart ▸ by simp) hc

/-- The first of a character parts a text in one way. -/
theorem eq_of_append_cons (hc : c ∉ part) (hc' : c ∉ left) (h : part ++ c :: after = left ++ c :: right) :
    part = left ∧ after = right := by
  obtain ⟨more, rfl, hright⟩ := exists_of_append_cons hc h
  cases more with
  | nil => exact ⟨(List.append_nil part).symm, (List.cons.inj hright).2⟩
  | cons d more =>
    obtain ⟨rfl, -⟩ := List.cons.inj hright
    exact absurd (by simp) hc'

/-- What stands behind a character that a text has not stands before that text. -/
theorem exists_of_cons_append (hc : c ∉ part) (h : before ++ part = left ++ c :: right) :
    ∃ more, before = left ++ c :: more ∧ right = more ++ part := by
  have hreverse := congrArg List.reverse h
  simp only [List.reverse_append, List.reverse_cons, List.append_assoc, List.singleton_append] at hreverse
  obtain ⟨more, hright, hbefore⟩ := exists_of_append_cons (by simpa using hc) hreverse
  refine ⟨more.reverse, ?_, ?_⟩
  · rw [← List.reverse_reverse before, hbefore]
    simp
  · rw [← List.reverse_reverse right, hright]
    simp

/-- A part of a text without a character stands before or behind that character. -/
theorem exists_beside (hc : c ∉ part) (h : before ++ (part ++ after) = left ++ c :: right) :
    (∃ more, left = before ++ (part ++ more) ∧ after = more ++ c :: right) ∨
      ∃ more, before = left ++ c :: more ∧ right = more ++ (part ++ after) := by
  rcases List.append_eq_append_iff.mp h with ⟨gap, rfl, hgap⟩ | ⟨gap, rfl, hgap⟩
  · obtain ⟨more, rfl, hafter⟩ := exists_of_append_cons hc hgap
    exact Or.inl ⟨more, rfl, hafter⟩
  · cases gap with
    | nil =>
      have hcut : part ++ after = [] ++ c :: right := hgap.symm
      obtain ⟨more, hnil, hafter⟩ := exists_of_append_cons hc hcut
      obtain ⟨rfl, rfl⟩ := List.append_eq_nil_iff.mp hnil.symm
      exact Or.inl ⟨[], by simp, hafter⟩
    | cons d gap =>
      obtain ⟨rfl, hright⟩ := List.cons.inj hgap
      exact Or.inr ⟨gap, rfl, hright⟩

/-- A part of a text that ends with a pair of brackets stands before or behind a pair, or ends with it. -/
theorem exists_beside_brackets (hclose : ']' ∉ part) (hinner : '[' ∉ inner)
    (hinner' : ']' ∉ inner) (hother : '[' ∉ inner') (hother' : ']' ∉ inner')
    (h : before ++ (part ++ '[' :: (inner ++ ']' :: after)) = left ++ '[' :: (inner' ++ ']' :: right)) :
    (∃ more, left = before ++ (part ++ '[' :: (inner ++ ']' :: more))) ∨
      (left = before ++ part ∧ inner = inner' ∧ after = right) ∨
        ∃ more, before = left ++ '[' :: (inner' ++ ']' :: more) ∧
          right = more ++ (part ++ '[' :: (inner ++ ']' :: after)) := by
  rw [← List.append_assoc] at h
  rcases List.append_eq_append_iff.mp h with ⟨gap, rfl, hgap⟩ | ⟨gap, hleft, hgap⟩
  · cases gap with
    | nil =>
      -- both have the same opening bracket
      obtain ⟨rfl, rfl⟩ := eq_of_append_cons hinner' hother' (List.cons.inj hgap).2
      exact Or.inr (Or.inl ⟨by simp, rfl, rfl⟩)
    | cons d gap =>
      obtain ⟨rfl, hrest⟩ := List.cons.inj hgap
      have hsplit : inner ++ ([']'] ++ after) = gap ++ '[' :: (inner' ++ ']' :: right) := hrest
      rw [← List.append_assoc] at hsplit
      obtain ⟨more, rfl, -⟩ := exists_of_append_cons (by simpa using hinner) hsplit
      exact Or.inl ⟨more, by simp⟩
  · cases gap with
    | nil =>
      obtain ⟨rfl, rfl⟩ := eq_of_append_cons hother' hinner' (List.cons.inj hgap).2
      exact Or.inr (Or.inl ⟨by simpa using hleft.symm, rfl, rfl⟩)
    | cons d gap =>
      obtain ⟨rfl, hrest⟩ := List.cons.inj hgap
      have hsplit : inner' ++ ([']'] ++ right) = gap ++ '[' :: (inner ++ ']' :: after) := hrest
      rw [← List.append_assoc] at hsplit
      obtain ⟨more, rfl, hright⟩ := exists_of_append_cons (by simpa using hother) hsplit
      have hbefore : before ++ part = left ++ '[' :: inner' ++ ']' :: more := by simpa using hleft
      obtain ⟨more', rfl, rfl⟩ := exists_of_cons_append hclose hbefore
      exact Or.inr (Or.inr ⟨more', by simp, by simpa using hright⟩)

theorem of_mem_takeWhile {α : Type} {p : α → Bool} {text : List α} : ∀ c ∈ text.takeWhile p, p c = true :=
  List.all_eq_true.mp List.all_takeWhile

/-- Where a run ends, something of another kind follows. -/
theorem of_mem_head_dropWhile {α : Type} {p : α → Bool} {text : List α} :
    ∀ c ∈ (text.dropWhile p).head?, p c = false := by
  intro c hc
  have hnot := List.head?_dropWhile_not p text
  rw [hc] at hnot
  simpa using hnot

/-- A run of characters ends where a character of another kind follows. -/
theorem takeWhile_run {α : Type} {p : α → Bool} {run after : List α} (hrun : ∀ c ∈ run, p c = true)
    (hafter : ∀ c ∈ after.head?, p c = false) :
    (run ++ after).takeWhile p = run ∧ (run ++ after).dropWhile p = after := by
  rw [List.takeWhile_append_of_pos hrun, List.dropWhile_append_of_pos hrun]
  cases after with
  | nil => exact ⟨List.append_nil run, rfl⟩
  | cons c rest =>
    have hc : p c = false := hafter c rfl
    simp [hc]

end Coach.Text
