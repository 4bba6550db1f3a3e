import Coach.Proofs.Text.Matching

/-!
# The texts that a pattern takes

A pattern that refers to no group and looks at nothing but the characters it takes has a language: the
texts it may take, whatever stands before and behind them.  Two matches of such a pattern can therefore be
compared where the surroundings differ.

## Main definitions

* `Pattern.Plain`: no test and no reference
* `Pattern.Takes`: the texts that a plain pattern takes

## Main statements

* `Pattern.exists_takes_of_matches`, `Pattern.matches_of_takes`: a plain pattern moves over one of its
  texts, and over any of them
* `Pattern.matches_all_append`: patterns one after another, cut anywhere
-/

namespace Coach.Text.Pattern

/-- The pattern refers to no group and looks at nothing but what it takes. -/
def Plain : Pattern → Prop
  | .seq first second => first.Plain ∧ second.Plain
  | .alt first second => first.Plain ∧ second.Plain
  | .star body => body.Plain
  | .group _ body => body.Plain
  | .again _ => False
  | .test _ => False
  | _ => True

/-- The texts that a plain pattern takes. -/
def Takes : Pattern → List Char → Prop
  | .empty => fun text => text = []
  | .one p => fun text => ∃ c, p c = true ∧ text = [c]
  | .seq first second => fun text => ∃ one two, text = one ++ two ∧ first.Takes one ∧ second.Takes two
  | .alt first second => fun text => first.Takes text ∨ second.Takes text
  | .star body => fun text => ∃ pieces : List (List Char), text = pieces.flatten ∧
      ∀ piece ∈ pieces, body.Takes piece
  | .group _ body => body.Takes
  | _ => fun _ => False

section Cursors

variable {before rest : List Char} {groups : List Binding} {c' : Cursor}

/-- A plain pattern moves over one of its texts. -/
theorem exists_takes_of_matches {p : Pattern} (hplain : p.Plain)
    (h : p.Matches (.behind before rest groups) c') :
    ∃ taken rest' groups', rest = taken ++ rest' ∧ p.Takes taken ∧
      c' = .behind (before ++ taken) rest' groups' := by
  induction p generalizing before rest groups c' with
  | empty =>
    obtain rfl := h
    exact ⟨[], rest, groups, rfl, rfl, by rw [List.append_nil]⟩
  | one p =>
    obtain ⟨x, rest', rfl, hx, rfl⟩ := matches_one.mp h
    exact ⟨[x], rest', groups, rfl, ⟨x, hx, rfl⟩, rfl⟩
  | seq first second ih₁ ih₂ =>
    obtain ⟨d, hd, h⟩ := h
    obtain ⟨one, rest, groups₁, rfl, hone, rfl⟩ := ih₁ hplain.1 hd
    obtain ⟨two, rest, groups₂, rfl, htwo, rfl⟩ := ih₂ hplain.2 h
    exact ⟨one ++ two, rest, groups₂, by rw [List.append_assoc], ⟨one, two, rfl, hone, htwo⟩,
      by rw [List.append_assoc]⟩
  | alt first second ih₁ ih₂ =>
    rcases h with h | h
    · obtain ⟨taken, rest', groups', rfl, htaken, rfl⟩ := ih₁ hplain.1 h
      exact ⟨taken, rest', groups', rfl, Or.inl htaken, rfl⟩
    · obtain ⟨taken, rest', groups', rfl, htaken, rfl⟩ := ih₂ hplain.2 h
      exact ⟨taken, rest', groups', rfl, Or.inr htaken, rfl⟩
  | star body ih =>
    change Relation.ReflTransGen _ _ _ at h
    induction h with
    | refl => exact ⟨[], rest, groups, rfl, ⟨[], rfl, nofun⟩, by rw [List.append_nil]⟩
    | tail _ hstep ih' =>
      obtain ⟨_, rest, groups₁, rfl, ⟨pieces, rfl, hpieces⟩, rfl⟩ := ih'
      obtain ⟨last, rest, groups₂, rfl, hlast, rfl⟩ := ih hplain hstep
      refine ⟨pieces.flatten ++ last, rest, groups₂, by rw [List.append_assoc],
        ⟨pieces ++ [last], by simp, fun piece hpiece => ?_⟩, by rw [List.append_assoc]⟩
      rcases List.mem_append.mp hpiece with hpiece | hpiece
      · exact hpieces piece hpiece
      · rwa [List.mem_singleton.mp hpiece]
  | group number body ih =>
    obtain ⟨d, hd, rfl⟩ := h
    obtain ⟨taken, rest', groups', rfl, htaken, rfl⟩ := ih hplain hd
    exact ⟨taken, rest', _, rfl, htaken, rfl⟩
  | again number => exact hplain.elim
  | test holds => exact hplain.elim

/-- A plain pattern moves over any of its texts. -/
theorem matches_of_takes {p : Pattern} {taken : List Char} (hplain : p.Plain) (h : p.Takes taken) :
    ∃ groups',
      p.Matches (.behind before (taken ++ rest) groups) (.behind (before ++ taken) rest groups') := by
  induction p generalizing before rest groups taken with
  | empty =>
    obtain rfl := h
    exact ⟨groups, congrArg (Cursor.behind · rest groups) (List.append_nil before)⟩
  | one p =>
    obtain ⟨x, hx, rfl⟩ := h
    exact ⟨groups, matches_one.mpr ⟨x, rest, rfl, hx, rfl⟩⟩
  | seq first second ih₁ ih₂ =>
    obtain ⟨one, two, rfl, hone, htwo⟩ := h
    obtain ⟨groups₁, h₁⟩ := @ih₁ before (two ++ rest) groups _ hplain.1 hone
    obtain ⟨groups₂, h₂⟩ := @ih₂ (before ++ one) rest groups₁ _ hplain.2 htwo
    rw [← List.append_assoc] at h₁
    rw [List.append_assoc] at h₂
    exact ⟨groups₂, _, h₁, h₂⟩
  | alt first second ih₁ ih₂ =>
    rcases h with h | h
    · obtain ⟨groups', h⟩ := ih₁ hplain.1 h
      exact ⟨groups', Or.inl h⟩
    · obtain ⟨groups', h⟩ := ih₂ hplain.2 h
      exact ⟨groups', Or.inr h⟩
  | star body ih =>
    obtain ⟨pieces, rfl, hpieces⟩ := h
    change ∃ groups', Relation.ReflTransGen _ _ _
    induction pieces generalizing before groups with
    | nil => exact ⟨groups, by simpa using Relation.ReflTransGen.refl⟩
    | cons piece pieces ih' =>
      obtain ⟨groups₁, h₁⟩ := @ih before (pieces.flatten ++ rest) groups _ hplain
        (hpieces piece List.mem_cons_self)
      obtain ⟨groups₂, h₂⟩ := @ih' (before ++ piece) groups₁ fun other hother =>
        hpieces other (List.mem_cons_of_mem _ hother)
      rw [← List.append_assoc] at h₁
      rw [List.append_assoc] at h₂
      exact ⟨groups₂, .head h₁ h₂⟩
  | group number body ih =>
    obtain ⟨groups', h⟩ := @ih before rest groups _ hplain h
    exact ⟨_, _, h, rfl⟩
  | again number => exact hplain.elim
  | test holds => exact hplain.elim

end Cursors

/-! ### Sequences -/

theorem matches_all_cons {p q : Pattern} {ps : List Pattern} {c c' : Cursor} :
    (all (p :: q :: ps)).Matches c c' ↔ ∃ d, p.Matches c d ∧ (all (q :: ps)).Matches d c' := Iff.rfl

/-- Patterns one after another can be cut anywhere. -/
theorem matches_all_append {ps qs : List Pattern} (hqs : qs ≠ []) {c c' : Cursor} :
    (all (ps ++ qs)).Matches c c' ↔ ∃ d, (all ps).Matches c d ∧ (all qs).Matches d c' := by
  obtain ⟨q, qs, rfl⟩ := List.exists_cons_of_ne_nil hqs
  induction ps generalizing c with
  | nil => exact ⟨fun h => ⟨c, rfl, h⟩, by rintro ⟨_, rfl, h⟩; exact h⟩
  | cons p ps ih =>
    cases ps with
    | nil => exact Iff.rfl
    | cons p' ps =>
      simp only [List.cons_append, matches_all_cons] at ih ⊢
      constructor
      · rintro ⟨d, hd, h⟩
        obtain ⟨e, he, h⟩ := ih.mp h
        exact ⟨e, ⟨d, hd, he⟩, h⟩
      · rintro ⟨e, ⟨d, hd, he⟩, h⟩
        exact ⟨d, hd, ih.mpr ⟨e, he, h⟩⟩

/-- The texts of patterns one after another can be cut anywhere. -/
theorem takes_all_append {ps qs : List Pattern} (hqs : qs ≠ []) {text : List Char} :
    (all (ps ++ qs)).Takes text ↔ ∃ one two, text = one ++ two ∧ (all ps).Takes one ∧ (all qs).Takes two := by
  obtain ⟨q, qs, rfl⟩ := List.exists_cons_of_ne_nil hqs
  induction ps generalizing text with
  | nil => exact ⟨fun h => ⟨[], text, rfl, rfl, h⟩, by rintro ⟨_, _, rfl, rfl, h⟩; exact h⟩
  | cons p ps ih =>
    cases ps with
    | nil => exact Iff.rfl
    | cons p' ps =>
      constructor
      · rintro ⟨one, _, rfl, hone, h⟩
        obtain ⟨two, three, rfl, htwo, hthree⟩ := ih.mp h
        exact ⟨one ++ two, three, by rw [List.append_assoc], ⟨one, two, rfl, hone, htwo⟩, hthree⟩
      · rintro ⟨_, three, rfl, ⟨one, two, rfl, hone, htwo⟩, hthree⟩
        exact ⟨one, two ++ three, by rw [List.append_assoc], hone, ih.mpr ⟨two, three, rfl, htwo, hthree⟩⟩

/-- A pattern within a class takes characters of that class. -/
theorem Takes.within {q : Char → Prop} {p : Pattern} (hwithin : p.Within q) {text : List Char}
    (h : p.Takes text) : ∀ c ∈ text, q c := by
  induction p generalizing text with
  | empty =>
    obtain rfl := h
    exact nofun
  | one p =>
    obtain ⟨x, hx, rfl⟩ := h
    intro c hc
    rw [List.mem_singleton.mp hc]
    exact hwithin x hx
  | seq first second ih₁ ih₂ =>
    obtain ⟨one, two, rfl, hone, htwo⟩ := h
    intro c hc
    exact (List.mem_append.mp hc).elim (ih₁ hwithin.1 hone c) (ih₂ hwithin.2 htwo c)
  | alt first second ih₁ ih₂ => exact h.elim (ih₁ hwithin.1) (ih₂ hwithin.2)
  | star body ih =>
    obtain ⟨pieces, rfl, hpieces⟩ := h
    intro c hc
    obtain ⟨piece, hpiece, hc⟩ := List.mem_flatten.mp hc
    exact ih hwithin (hpieces piece hpiece) c hc
  | group number body ih => exact ih hwithin h
  | again number => exact h.elim
  | test holds => exact h.elim

theorem plain_chars (word : List Char) : (chars word).Plain := by
  induction word with
  | nil => trivial
  | cons x word ih => exact ⟨trivial, ih⟩

theorem plain_text (s : String) : (text s).Plain := plain_chars s.toList

theorem plain_word : word.Plain := ⟨trivial, trivial⟩

/-! ### The texts of derived forms -/

section Forms

variable {taken : List Char}

@[simp] theorem takes_text {s : String} : (text s).Takes taken ↔ taken = s.toList := by
  unfold text
  induction s.toList generalizing taken with
  | nil => exact Iff.rfl
  | cons x word ih =>
    constructor
    · rintro ⟨_, two, rfl, ⟨c, hc, rfl⟩, htwo⟩
      obtain rfl := eq_of_beq hc
      rw [ih.mp htwo]
      rfl
    · rintro rfl
      exact ⟨[x], word, rfl, ⟨x, beq_self_eq_true x, rfl⟩, ih.mpr rfl⟩

@[simp] theorem takes_char {x : Char} : (char x).Takes taken ↔ taken = [x] := by
  constructor
  · rintro ⟨c, hc, rfl⟩
    rw [eq_of_beq hc]
  · rintro rfl
    exact ⟨x, beq_self_eq_true x, rfl⟩

/-- A class repeated takes the texts of its characters. -/
theorem takes_star_one {p : Char → Bool} :
    (Pattern.star (.one p)).Takes taken ↔ ∀ c ∈ taken, p c = true := by
  constructor
  · rintro ⟨pieces, rfl, hpieces⟩ c hc
    obtain ⟨piece, hpiece, hc⟩ := List.mem_flatten.mp hc
    obtain ⟨x, hx, rfl⟩ := hpieces piece hpiece
    rwa [List.mem_singleton.mp hc]
  · intro h
    refine ⟨taken.map fun c => [c], (List.flatMap_singleton' taken).symm, fun piece hpiece => ?_⟩
    obtain ⟨c, hc, rfl⟩ := List.mem_map.mp hpiece
    exact ⟨c, h c hc, rfl⟩

@[simp] theorem takes_space : space.Takes taken ↔ ∀ c ∈ taken, isSpace c = true := takes_star_one

/-- A pattern repeated at least once takes pieces one after another. -/
theorem takes_plus {p : Pattern} : (plus p).Takes taken ↔
    ∃ pieces : List (List Char), pieces ≠ [] ∧ taken = pieces.flatten ∧ ∀ piece ∈ pieces, p.Takes piece := by
  constructor
  · rintro ⟨one, _, rfl, hone, pieces, rfl, hpieces⟩
    exact ⟨one :: pieces, List.cons_ne_nil _ _, rfl, List.forall_mem_cons.mpr ⟨hone, hpieces⟩⟩
  · rintro ⟨pieces, hne, rfl, hpieces⟩
    obtain ⟨one, pieces, rfl⟩ := List.exists_cons_of_ne_nil hne
    obtain ⟨hone, hpieces⟩ := List.forall_mem_cons.mp hpieces
    exact ⟨one, pieces.flatten, rfl, hone, pieces, rfl, hpieces⟩

/-- A class repeated at least once takes the texts of its characters that are not empty. -/
theorem takes_plus_one {p : Char → Bool} :
    (plus (.one p)).Takes taken ↔ taken ≠ [] ∧ ∀ c ∈ taken, p c = true := by
  constructor
  · rintro ⟨_, rest, rfl, ⟨c, hc, rfl⟩, hrest⟩
    refine ⟨List.cons_ne_nil _ _, fun d hd => ?_⟩
    rcases List.mem_cons.mp hd with rfl | hd
    · exact hc
    · exact takes_star_one.mp hrest d hd
  · rintro ⟨hne, h⟩
    obtain ⟨c, rest, rfl⟩ := List.exists_cons_of_ne_nil hne
    exact ⟨[c], rest, rfl, ⟨c, h c List.mem_cons_self, rfl⟩,
      takes_star_one.mpr fun d hd => h d (List.mem_cons_of_mem _ hd)⟩

end Forms

/-! ### Groups -/

section Groups

variable {number : Nat} {c c' : Cursor}

/-- The pattern does not bind a group. -/
def Unbound (number : Nat) : Pattern → Prop
  | .seq first second => first.Unbound number ∧ second.Unbound number
  | .alt first second => first.Unbound number ∧ second.Unbound number
  | .star body => body.Unbound number
  | .group other body => other ≠ number ∧ body.Unbound number
  | _ => True

theorem unbound_text (number : Nat) (s : String) : (text s).Unbound number := by
  unfold text
  induction s.toList with
  | nil => trivial
  | cons x word ih => exact ⟨trivial, ih⟩

theorem group?_of_matches {p : Pattern} (hp : p.Unbound number) (h : p.Matches c c') :
    c'.group? number = c.group? number := by
  induction p generalizing c c' with
  | empty => exact congrArg (Cursor.group? · number) h
  | one p =>
    obtain ⟨x, rest, -, -, rfl⟩ := h
    rfl
  | seq first second ih₁ ih₂ =>
    obtain ⟨d, hd, h⟩ := h
    exact (ih₂ hp.2 h).trans (ih₁ hp.1 hd)
  | alt first second ih₁ ih₂ => exact h.elim (ih₁ hp.1) (ih₂ hp.2)
  | star body ih =>
    change Relation.ReflTransGen _ _ _ at h
    induction h with
    | refl => rfl
    | tail _ hstep ih' => exact (ih hp hstep).trans ih'
  | group other body ih =>
    obtain ⟨d, hd, rfl⟩ := h
    rw [← ih hp.2 hd]
    simp only [Cursor.group?, List.find?_cons, beq_eq_false_iff_ne.mpr hp.1]
  | again other =>
    obtain ⟨bound, -, -, rfl⟩ := h
    generalize bound.length = n
    induction n generalizing c with
    | zero => rfl
    | succ n ih =>
      unfold Cursor.advance
      split
      · rfl
      · exact ih
  | test holds => exact congrArg (Cursor.group? · number) h.2

/-- A group that is bound once is bound to a text of its body. -/
theorem exists_group_of_matches (ps : List Pattern) {qs : List Pattern} {q body : Pattern}
    (hbody : body.Plain) (hqs : (all (q :: qs)).Unbound number) {before rest : List Char}
    (h : (all (ps ++ .group number body :: q :: qs)).Matches (.behind before rest []) c') :
    ∃ text, c'.group? number = some text ∧ body.Takes text := by
  obtain ⟨d, hd, e, ⟨f, hf, rfl⟩, h⟩ := (matches_all_append (List.cons_ne_nil _ _)).mp h
  obtain ⟨taken, rest, groups, rfl, rfl⟩ := exists_taken_of_matches hd
  obtain ⟨text, rest, groups', rfl, htext, rfl⟩ := exists_takes_of_matches hbody hf
  exact ⟨text, (group?_of_matches hqs h).trans (Cursor.group?_behind_self text rest), htext⟩

end Groups

/-! ### Texts without a character -/

section Without

variable {x : Char}

theorem within_one_iff {p : Char → Bool} : (Pattern.one p).Within (· ≠ x) ↔ p x = false := by
  constructor
  · intro h
    exact Bool.eq_false_iff.mpr fun hx => h x hx rfl
  · rintro h c hc rfl
    rw [hc] at h
    cases h

theorem within_char_iff {y : Char} : (char y).Within (· ≠ x) ↔ x ≠ y := by
  rw [char, within_one_iff, beq_eq_false_iff_ne]

theorem within_noneOf_iff {s : String} : (noneOf s).Within (· ≠ x) ↔ x ∈ s.toList := by
  rw [noneOf, within_one_iff, Bool.not_eq_false', List.contains_iff_mem]

theorem within_chars_iff {word : List Char} : (chars word).Within (· ≠ x) ↔ x ∉ word := by
  induction word with
  | nil => exact iff_of_true trivial List.not_mem_nil
  | cons y word ih => exact (and_congr within_char_iff ih).trans (by rw [List.mem_cons, not_or])

theorem within_text_iff {s : String} : (text s).Within (· ≠ x) ↔ x ∉ s.toList := within_chars_iff

theorem within_space_iff : space.Within (· ≠ x) ↔ isSpace x = false := within_one_iff

theorem within_plus_one_iff {p : Char → Bool} : (plus (.one p)).Within (· ≠ x) ↔ p x = false := by
  rw [← within_one_iff]
  exact and_self_iff

theorem within_space1_iff : space1.Within (· ≠ x) ↔ isSpace x = false := within_plus_one_iff

theorem within_word_iff : word.Within (· ≠ x) ↔ isWord x = false := within_plus_one_iff

end Without

/-! ### Occurrences -/

/-- A plain pattern occurs where one of its texts stands. -/
theorem exists_takes_of_occursIn {p : Pattern} (hplain : p.Plain) {text : List Char}
    (h : p.occursIn text = true) :
    ∃ before taken after, text = before ++ (taken ++ after) ∧ p.Takes taken := by
  obtain ⟨m, hm⟩ := Option.isSome_iff_exists.mp h
  obtain ⟨rest, htext, hmatch⟩ := matches_of_search? hm
  obtain ⟨taken, after, groups, rfl, htaken, -⟩ := exists_takes_of_matches hplain hmatch
  exact ⟨m.before, taken, after, htext, htaken⟩

/-- A pattern behind a word boundary, each text of which begins with a word character, occurs where one of
its texts stands behind no word character. -/
theorem occursIn_boundary_iff {ps : List Pattern} (hne : ps ≠ []) (hplain : (all ps).Plain)
    (hsteady : (all ps).Steady)
    (hword : ∀ taken, (all ps).Takes taken → ∃ c more, taken = c :: more ∧ isWord c = true)
    (text : List Char) : (all (.boundary :: ps)).occursIn text = true ↔ ∃ before taken after,
      text = before ++ (taken ++ after) ∧ (∀ c, before.getLast? = some c → isWord c = false) ∧
        (all ps).Takes taken := by
  obtain ⟨q, ps, rfl⟩ := List.exists_cons_of_ne_nil hne
  have hiff := occursIn_iff (p := all (.boundary :: q :: ps)) ⟨trivial, hsteady⟩ text
  rw [hiff]
  have htest : ∀ {before rest : List Char} {c : Char} {more : List Char}, rest = c :: more →
      isWord c = true → (((before.getLast?.elim false isWord) != (rest.head?.elim false isWord)) = true ↔
        ∀ c, before.getLast? = some c → isWord c = false) := by
    rintro before _ c more rfl hc
    cases before.getLast? with
    | none => simp [hc]
    | some d => simp [hc]
  constructor
  · rintro ⟨before, rest, c', rfl, d, ⟨hboundary, rfl⟩, hmatch⟩
    obtain ⟨taken, rest, -, rfl, htaken, -⟩ := exists_takes_of_matches hplain hmatch
    obtain ⟨c, more, rfl, hc⟩ := hword taken htaken
    exact ⟨before, c :: more, rest, rfl, (htest rfl hc).mp hboundary, htaken⟩
  · rintro ⟨before, taken, after, rfl, hbefore, htaken⟩
    obtain ⟨c, more, rfl, hc⟩ := hword taken htaken
    obtain ⟨groups, hmatch⟩ := matches_of_takes hplain htaken
    exact ⟨before, _, _, rfl, _, ⟨(htest rfl hc).mpr hbefore, rfl⟩, hmatch⟩

end Coach.Text.Pattern
