import Coach.Text.Pattern
import Mathlib.Logic.Relation

/-!
# What a pattern matches

The matcher tries the ways in which a pattern matches, one after another.  Here these ways are a
relation between cursors, without order and without continuation, and the matcher is related to it:
what it accepts is one of the ways, and it accepts something whenever there is a way.

## Main definitions

* `Pattern.Matches`: the cursors that a pattern may lead to
* `Pattern.Steady`: no repetition may go round without moving on
* `Pattern.Within`: a pattern that takes characters of a class only
* `Cursor.behind`: the cursor behind a text that has been read

## Main statements

* `Pattern.run_sound`, `Pattern.run_complete`: the matcher and the relation
* `Pattern.occursIn_iff`: a steady pattern occurs in a text where it matches between two parts of it

## Design notes

A repetition of the matcher ends when the text does, so a body that matches the empty text could use up
its rounds and leave a way untried.  `Steady` excludes that.  All patterns in use are steady.
-/

namespace Coach.Text

/-- The cursor behind a text that has been read. -/
def Cursor.behind (before rest : List Char) (groups : List Binding) : Cursor :=
  { last := before.getLast?, rest, groups }

/-- A group is bound to the text between its ends. -/
theorem Binding.text_eq (number : Nat) (taken rest : List Char) :
    ({ number, start := taken ++ rest, stop := rest } : Binding).text = taken := by
  simp [Binding.text]

section Groups

variable {before rest : List Char} {groups : List Binding} {number other : Nat}

theorem Cursor.group?_behind_self (taken rest' : List Char) :
    (Cursor.behind before rest (⟨number, taken ++ rest', rest'⟩ :: groups)).group? number =
      some taken := by
  simp only [Cursor.group?, Cursor.behind, List.find?_cons, beq_self_eq_true, Option.map_some,
    Binding.text_eq]

theorem Cursor.group?_behind_of_ne (h : other ≠ number) (start stop : List Char) :
    (Cursor.behind before rest (⟨other, start, stop⟩ :: groups)).group? number =
      (Cursor.behind before rest groups).group? number := by
  simp only [Cursor.group?, Cursor.behind, List.find?_cons, beq_eq_false_iff_ne.mpr h]

end Groups

namespace Pattern

/-- The cursors that a pattern may lead to. -/
def Matches : Pattern → Cursor → Cursor → Prop
  | .empty => fun c c' => c' = c
  | .one p => fun c c' => ∃ x rest, c.rest = x :: rest ∧ p x = true ∧ c' = { c with last := some x, rest }
  | .seq first second => fun c c' => ∃ d, first.Matches c d ∧ second.Matches d c'
  | .alt first second => fun c c' => first.Matches c c' ∨ second.Matches c c'
  | .star body => Relation.ReflTransGen body.Matches
  | .group number body => fun c c' => ∃ d, body.Matches c d ∧
    c' = { d with groups := { number, start := c.rest, stop := d.rest } :: d.groups }
  | .again number => fun c c' => ∃ bound, c.group? number = some bound ∧
    (dropStart? bound c.rest).isSome = true ∧ c' = c.advance bound.length
  | .test holds => fun c c' => holds c.last c.rest = true ∧ c' = c

/-- No repetition goes round without moving on. -/
def Steady : Pattern → Prop
  | .seq first second => first.Steady ∧ second.Steady
  | .alt first second => first.Steady ∧ second.Steady
  | .star body => body.Steady ∧ ∀ c c', body.Matches c c' → c'.rest.length < c.rest.length
  | .group _ body => body.Steady
  | _ => True

/-- The pattern takes characters of a class only, and refers to no group. -/
def Within (p : Char → Prop) : Pattern → Prop
  | .one q => ∀ c, q c = true → p c
  | .seq first second => first.Within p ∧ second.Within p
  | .alt first second => first.Within p ∧ second.Within p
  | .star body => body.Within p
  | .group _ body => body.Within p
  | .again _ => False
  | _ => True

/-! ### The matcher -/

section Matcher

variable {α : Type} {k : Cursor → Option α} {c : Cursor} {answer : α}

theorem repeatStep_sound {step : (Cursor → Option α) → Cursor → Option α} {R : Cursor → Cursor → Prop}
    (hstep : ∀ {k c}, step k c = some answer → ∃ d, R c d ∧ k d = some answer) (bound : List Char)
    (h : repeatStep step k bound c = some answer) :
    ∃ c', Relation.ReflTransGen R c c' ∧ k c' = some answer := by
  induction bound generalizing c with
  | nil => exact ⟨c, .refl, h⟩
  | cons _ bound ih =>
    simp only [repeatStep] at h
    split at h
    · next hfirst =>
      obtain ⟨d, hd, h⟩ := hstep (hfirst.trans h)
      obtain ⟨c', hc', h⟩ := ih h
      exact ⟨c', .head hd hc', h⟩
    · exact ⟨c, .refl, h⟩

/-- The rounds are enough for every way, since each takes at least one character. -/
theorem repeatStep_complete {step : (Cursor → Option α) → Cursor → Option α}
    {R : Cursor → Cursor → Prop}
    (hstep : ∀ {k c d}, R c d → (k d).isSome = true → (step k c).isSome = true)
    (hless : ∀ c d, R c d → d.rest.length < c.rest.length) (bound : List Char) {c' : Cursor}
    (hbound : c.rest.length ≤ bound.length) (hmatch : Relation.ReflTransGen R c c')
    (h : (k c').isSome = true) : (repeatStep step k bound c).isSome = true := by
  induction bound generalizing c with
  | nil =>
    rcases hmatch.cases_head with rfl | ⟨d, hd, -⟩
    · exact h
    · have hlt := hless c d hd
      simp only [List.length_nil] at hbound
      omega
  | cons _ bound ih =>
    simp only [repeatStep]
    split
    · rfl
    · next hnone =>
      rcases hmatch.cases_head with rfl | ⟨d, hd, hrest⟩
      · exact h
      · have hlt := hless c d hd
        simp only [List.length_cons] at hbound
        have hsome := hstep hd (ih (by omega) hrest)
        rw [hnone] at hsome
        cases hsome

/-- What the matcher accepts is one of the ways. -/
theorem run_sound (p : Pattern) (h : p.run k c = some answer) :
    ∃ c', p.Matches c c' ∧ k c' = some answer := by
  induction p generalizing k c with
  | empty => exact ⟨c, rfl, h⟩
  | one p =>
    simp only [run] at h
    split at h
    · cases h
    · next x rest hrest =>
      split at h
      · next hx => exact ⟨_, ⟨x, rest, hrest, hx, rfl⟩, h⟩
      · cases h
  | seq first second ih₁ ih₂ =>
    obtain ⟨d, hd, h⟩ := ih₁ h
    obtain ⟨c', hc', h⟩ := ih₂ h
    exact ⟨c', ⟨d, hd, hc'⟩, h⟩
  | alt first second ih₁ ih₂ =>
    simp only [run] at h
    split at h
    · next hfirst =>
      obtain ⟨c', hc', h⟩ := ih₁ (hfirst.trans h)
      exact ⟨c', Or.inl hc', h⟩
    · obtain ⟨c', hc', h⟩ := ih₂ h
      exact ⟨c', Or.inr hc', h⟩
  | star body ih =>
    exact repeatStep_sound ih _ h
  | group number body ih =>
    obtain ⟨d, hd, h⟩ := ih h
    exact ⟨_, ⟨d, hd, rfl⟩, h⟩
  | again number =>
    simp only [run] at h
    split at h
    · cases h
    · next bound hbound =>
      split at h
      · cases h
      · next hdrop => exact ⟨_, ⟨bound, hbound, by rw [hdrop]; rfl, rfl⟩, h⟩
  | test holds =>
    simp only [run] at h
    split at h
    · next hholds => exact ⟨c, ⟨hholds, rfl⟩, h⟩
    · cases h

/-- What the matcher accepts of one pattern after another, with what it does at the second. -/
theorem run_seq_sound {first second : Pattern} (h : (Pattern.seq first second).run k c = some answer) :
    ∃ d, first.Matches c d ∧ second.run k d = some answer :=
  first.run_sound h

/-- The matcher accepts something whenever one of the ways is accepted. -/
theorem run_complete (p : Pattern) (hsteady : p.Steady) {c' : Cursor} (hmatch : p.Matches c c')
    (h : (k c').isSome = true) : (p.run k c).isSome = true := by
  induction p generalizing k c c' with
  | empty =>
    obtain rfl := hmatch
    exact h
  | one p =>
    obtain ⟨x, rest, hrest, hx, rfl⟩ := hmatch
    simp only [run, hrest, hx, if_true]
    exact h
  | seq first second ih₁ ih₂ =>
    obtain ⟨d, hd, hc'⟩ := hmatch
    exact ih₁ hsteady.1 hd (ih₂ hsteady.2 hc' h)
  | alt first second ih₁ ih₂ =>
    simp only [run]
    split
    · rfl
    · next hfirst =>
      rcases hmatch with hmatch | hmatch
      · have := ih₁ hsteady.1 hmatch h
        rw [hfirst] at this
        cases this
      · exact ih₂ hsteady.2 hmatch h
  | star body ih =>
    -- there are as many rounds as characters left
    refine repeatStep_complete (R := body.Matches) ?_ hsteady.2 _ (Nat.le_refl _) hmatch h
    exact fun hd h => ih hsteady.1 hd h
  | group number body ih =>
    obtain ⟨d, hd, rfl⟩ := hmatch
    exact ih hsteady hd h
  | again number =>
    obtain ⟨bound, hgroup, hdrop, rfl⟩ := hmatch
    obtain ⟨rest, hrest⟩ := Option.isSome_iff_exists.mp hdrop
    simp only [run, hgroup, hrest]
    exact h
  | test holds =>
    obtain ⟨hholds, rfl⟩ := hmatch
    simp only [run, hholds, if_true]
    exact h

/-- Any characters, as many as possible, are all that is left, if that is accepted. -/
theorem run_star_any (h : k { c with last := c.rest.getLast?.or c.last, rest := [] } = some answer) :
    (Pattern.star (.one fun _ => true)).run k c = some answer := by
  obtain ⟨last, rest, groups⟩ := c
  change repeatStep (fun k' c' => (Pattern.one fun _ => true).run k' c') k rest
    { last, rest, groups } = some answer
  induction rest generalizing last with
  | nil => exact h
  | cons x rest ih =>
    have hlast : rest.getLast?.or (some x) = (x :: rest).getLast?.or last := by
      rw [List.getLast?_cons]
      cases rest.getLast? <;> rfl
    have hrest := ih (some x) (by simpa only [hlast] using h)
    have hstep : (Pattern.one fun _ => true).run
        (repeatStep (fun k' c' => (Pattern.one fun _ => true).run k' c') k rest)
        { last, rest := x :: rest, groups } = some answer := hrest
    rw [repeatStep, hstep]

end Matcher

/-! ### Derived forms, behind a text that has been read -/

section Behind

variable {before rest : List Char} {groups : List Binding} {c' : Cursor}

@[simp] theorem matches_one {p : Char → Bool} :
    (Pattern.one p).Matches (.behind before rest groups) c' ↔
      ∃ x rest', rest = x :: rest' ∧ p x = true ∧ c' = .behind (before ++ [x]) rest' groups := by
  simp [Matches, Cursor.behind]

@[simp] theorem matches_empty :
    Pattern.empty.Matches (.behind before rest groups) c' ↔ c' = .behind before rest groups := Iff.rfl

@[simp] theorem matches_seq {first second : Pattern} {c : Cursor} :
    (Pattern.seq first second).Matches c c' ↔ ∃ d, first.Matches c d ∧ second.Matches d c' := Iff.rfl

@[simp] theorem matches_alt {first second : Pattern} {c : Cursor} :
    (Pattern.alt first second).Matches c c' ↔ first.Matches c c' ∨ second.Matches c c' := Iff.rfl

@[simp] theorem matches_optional {p : Pattern} {c : Cursor} :
    (optional p).Matches c c' ↔ p.Matches c c' ∨ c' = c := Iff.rfl

@[simp] theorem matches_char {x : Char} :
    (char x).Matches (.behind before rest groups) c' ↔
      ∃ rest', rest = x :: rest' ∧ c' = .behind (before ++ [x]) rest' groups := by
  constructor
  · intro h
    obtain ⟨y, rest', rfl, hy, rfl⟩ := matches_one.mp h
    obtain rfl := eq_of_beq hy
    exact ⟨rest', rfl, rfl⟩
  · rintro ⟨rest', rfl, rfl⟩
    exact matches_one.mpr ⟨x, rest', rfl, beq_self_eq_true x, rfl⟩

theorem matches_chars {word : List Char} :
    (chars word).Matches (.behind before rest groups) c' ↔
      ∃ rest', rest = word ++ rest' ∧ c' = .behind (before ++ word) rest' groups := by
  induction word generalizing before rest with
  | nil => simp [chars]
  | cons x word ih =>
    simp only [chars, matches_seq, matches_char]
    constructor
    · rintro ⟨_, ⟨rest', rfl, rfl⟩, h⟩
      obtain ⟨rest', rfl, rfl⟩ := ih.mp h
      exact ⟨rest', rfl, by rw [List.append_assoc]; rfl⟩
    · rintro ⟨rest', rfl, rfl⟩
      refine ⟨_, ⟨word ++ rest', rfl, rfl⟩, ih.mpr ⟨rest', rfl, ?_⟩⟩
      rw [List.append_assoc]
      rfl

@[simp] theorem matches_text {s : String} :
    (text s).Matches (.behind before rest groups) c' ↔
      ∃ rest', rest = s.toList ++ rest' ∧ c' = .behind (before ++ s.toList) rest' groups :=
  matches_chars

/-- A class repeated takes any run of its characters. -/
theorem matches_star_one {p : Char → Bool} :
    (Pattern.star (.one p)).Matches (.behind before rest groups) c' ↔
      ∃ run rest', rest = run ++ rest' ∧ (∀ x ∈ run, p x = true) ∧
        c' = .behind (before ++ run) rest' groups := by
  constructor
  · intro h
    change Relation.ReflTransGen _ _ _ at h
    induction h with
    | refl => exact ⟨[], rest, rfl, by simp, by simp⟩
    | tail _ hstep ih =>
      obtain ⟨run, rest', rfl, hrun, rfl⟩ := ih
      obtain ⟨x, rest', rfl, hx, rfl⟩ := matches_one.mp hstep
      refine ⟨run ++ [x], rest', by simp, ?_, by simp⟩
      intro y hy
      rcases List.mem_append.mp hy with hy | hy
      · exact hrun y hy
      · rwa [List.mem_singleton.mp hy]
  · rintro ⟨run, rest', rfl, hrun, rfl⟩
    change Relation.ReflTransGen _ _ _
    induction run generalizing before with
    | nil => simpa using Relation.ReflTransGen.refl
    | cons x run ih =>
      refine .head (matches_one.mpr ⟨x, run ++ rest', rfl, hrun x List.mem_cons_self, rfl⟩) ?_
      have hrun' : ∀ y ∈ run, p y = true := fun y hy => hrun y (List.mem_cons_of_mem _ hy)
      have hrest : Relation.ReflTransGen (Pattern.one p).Matches
          (.behind (before ++ [x]) (run ++ rest') groups)
          (.behind (before ++ [x] ++ run) rest' groups) := ih hrun'
      rwa [List.append_assoc] at hrest

@[simp] theorem matches_space :
    space.Matches (.behind before rest groups) c' ↔
      ∃ blanks rest', rest = blanks ++ rest' ∧ (∀ x ∈ blanks, isSpace x = true) ∧
        c' = .behind (before ++ blanks) rest' groups :=
  matches_star_one

/-- A class repeated at least once takes any run of its characters that is not empty. -/
theorem matches_plus_one {p : Char → Bool} :
    (plus (.one p)).Matches (.behind before rest groups) c' ↔
      ∃ run rest', run ≠ [] ∧ rest = run ++ rest' ∧ (∀ x ∈ run, p x = true) ∧
        c' = .behind (before ++ run) rest' groups := by
  constructor
  · rintro ⟨_, hfirst, hmore⟩
    obtain ⟨x, _, rfl, hx, rfl⟩ := matches_one.mp hfirst
    obtain ⟨run, rest', rfl, hrun, rfl⟩ := matches_star_one.mp hmore
    refine ⟨x :: run, rest', List.cons_ne_nil x run, rfl, fun y hy => ?_, by simp⟩
    rcases List.mem_cons.mp hy with rfl | hy
    · exact hx
    · exact hrun y hy
  · rintro ⟨run, rest', hne, rfl, hrun, rfl⟩
    cases run with
    | nil => exact absurd rfl hne
    | cons x run =>
      refine ⟨_, matches_one.mpr ⟨x, run ++ rest', rfl, hrun x List.mem_cons_self, rfl⟩,
        matches_star_one.mpr ⟨run, rest', rfl, fun y hy => hrun y (List.mem_cons_of_mem _ hy), ?_⟩⟩
      simp

@[simp] theorem matches_notBefore {p : Char → Bool} {c : Cursor} :
    (notBefore p).Matches c c' ↔ (∀ x, c.rest.head? = some x → p x = false) ∧ c' = c := by
  refine and_congr_left fun _ => ?_
  cases c.rest with
  | nil => simp
  | cons x rest => simp

@[simp] theorem matches_notAfter {p : Char → Bool} :
    (notAfter p).Matches (.behind before rest groups) c' ↔
      (∀ x, before.getLast? = some x → p x = false) ∧ c' = .behind before rest groups := by
  refine and_congr_left fun _ => ?_
  simp only [Cursor.behind]
  cases before.getLast? with
  | none => simp
  | some x => simp

/-- A group is bound to what its body takes. -/
theorem matches_group {number : Nat} {body : Pattern} {c : Cursor} :
    (Pattern.group number body).Matches c c' ↔ ∃ d, body.Matches c d ∧
      c' = { d with groups := { number, start := c.rest, stop := d.rest } :: d.groups } := Iff.rfl

/-- A pattern moves over a text. -/
theorem exists_taken_of_matches {p : Pattern} (h : p.Matches (.behind before rest groups) c') :
    ∃ taken rest' groups', rest = taken ++ rest' ∧ c' = .behind (before ++ taken) rest' groups' := by
  have hstay : ∃ taken rest' groups', rest = taken ++ rest' ∧
      Cursor.behind before rest groups = .behind (before ++ taken) rest' groups' :=
    ⟨[], rest, groups, rfl, by rw [List.append_nil]⟩
  induction p generalizing before rest groups c' with
  | empty => exact matches_empty.mp h ▸ hstay
  | one p =>
    obtain ⟨x, rest', rfl, -, rfl⟩ := matches_one.mp h
    exact ⟨[x], rest', groups, rfl, rfl⟩
  | seq first second ih₁ ih₂ =>
    obtain ⟨d, hd, h⟩ := h
    obtain ⟨one, rest, groups, rfl, rfl⟩ := ih₁ hd hstay
    obtain ⟨two, rest, groups, rfl, rfl⟩ := ih₂ h ⟨[], rest, groups, rfl, by rw [List.append_nil]⟩
    exact ⟨one ++ two, rest, groups, by rw [List.append_assoc], by rw [List.append_assoc]⟩
  | alt first second ih₁ ih₂ => exact h.elim (ih₁ · hstay) (ih₂ · hstay)
  | star body ih =>
    change Relation.ReflTransGen _ _ _ at h
    induction h with
    | refl => exact hstay
    | tail _ hstep ih' =>
      obtain ⟨one, rest, groups, rfl, rfl⟩ := ih'
      obtain ⟨two, rest, groups, rfl, rfl⟩ := ih hstep ⟨[], rest, groups, rfl, by rw [List.append_nil]⟩
      exact ⟨one ++ two, rest, groups, by rw [List.append_assoc], by rw [List.append_assoc]⟩
  | group number body ih =>
    obtain ⟨d, hd, rfl⟩ := h
    obtain ⟨taken, rest, groups, rfl, rfl⟩ := ih hd hstay
    exact ⟨taken, rest, _, rfl, rfl⟩
  | again number =>
    obtain ⟨bound, -, -, rfl⟩ := h
    generalize bound.length = n
    clear hstay
    induction n generalizing before rest with
    | zero => exact ⟨[], rest, groups, rfl, by rw [List.append_nil]; rfl⟩
    | succ n ih =>
      cases rest with
      | nil => exact ⟨[], [], groups, rfl, by rw [List.append_nil]; rfl⟩
      | cons x rest =>
        obtain ⟨taken, rest, groups, rfl, heq⟩ := @ih (before ++ [x]) rest
        refine ⟨x :: taken, rest, groups, rfl, ?_⟩
        rw [List.append_assoc, Cursor.behind, List.getLast?_concat] at heq
        exact heq
  | test holds => exact h.2 ▸ hstay

/-- What a pattern within a class takes. -/
theorem exists_taken_of_within {q : Char → Prop} {p : Pattern} (hwithin : p.Within q)
    (h : p.Matches (.behind before rest groups) c') :
    ∃ taken rest' groups', rest = taken ++ rest' ∧ (∀ c ∈ taken, q c) ∧
      c' = .behind (before ++ taken) rest' groups' := by
  induction p generalizing before rest groups c' with
  | empty =>
    obtain rfl := matches_empty.mp h
    exact ⟨[], rest, groups, rfl, nofun, by rw [List.append_nil]⟩
  | one p =>
    obtain ⟨x, rest', rfl, hx, rfl⟩ := matches_one.mp h
    refine ⟨[x], rest', groups, rfl, fun c hc => ?_, rfl⟩
    rw [List.mem_singleton.mp hc]
    exact hwithin x hx
  | seq first second ih₁ ih₂ =>
    obtain ⟨d, hd, h⟩ := h
    obtain ⟨one, rest, groups, rfl, hone, rfl⟩ := ih₁ hwithin.1 hd
    obtain ⟨two, rest, groups, rfl, htwo, rfl⟩ := ih₂ hwithin.2 h
    refine ⟨one ++ two, rest, groups, by rw [List.append_assoc], fun c hc => ?_,
      by rw [List.append_assoc]⟩
    exact (List.mem_append.mp hc).elim (hone c) (htwo c)
  | alt first second ih₁ ih₂ => exact h.elim (ih₁ hwithin.1) (ih₂ hwithin.2)
  | star body ih =>
    change Relation.ReflTransGen _ _ _ at h
    induction h with
    | refl => exact ⟨[], rest, groups, rfl, nofun, by rw [List.append_nil]⟩
    | tail _ hstep ih' =>
      obtain ⟨one, rest, groups, rfl, hone, rfl⟩ := ih'
      obtain ⟨two, rest, groups, rfl, htwo, rfl⟩ := ih hwithin hstep
      refine ⟨one ++ two, rest, groups, by rw [List.append_assoc], fun c hc => ?_,
        by rw [List.append_assoc]⟩
      exact (List.mem_append.mp hc).elim (hone c) (htwo c)
  | group number body ih =>
    obtain ⟨d, hd, rfl⟩ := h
    obtain ⟨taken, rest, groups, rfl, htaken, rfl⟩ := ih hwithin hd
    exact ⟨taken, rest, _, rfl, htaken, rfl⟩
  | again number => exact hwithin.elim
  | test holds =>
    obtain ⟨-, rfl⟩ := h
    exact ⟨[], rest, groups, rfl, nofun, by rw [List.append_nil]⟩

end Behind

theorem within_text {p : Char → Prop} {s : String} (h : ∀ c ∈ s.toList, p c) :
    (text s).Within p := by
  unfold text
  generalize s.toList = word at h
  induction word with
  | nil => trivial
  | cons x word ih =>
    refine ⟨fun c hc => ?_, ih fun c hc => h c (List.mem_cons_of_mem _ hc)⟩
    rw [eq_of_beq hc]
    exact h x List.mem_cons_self

theorem steady_text (s : String) : (text s).Steady := by
  unfold text
  induction s.toList with
  | nil => trivial
  | cons x word ih => exact ⟨trivial, ih⟩

theorem steady_star_one (p : Char → Bool) : (Pattern.star (.one p)).Steady := by
  refine ⟨trivial, ?_⟩
  rintro c c' ⟨x, rest, hrest, -, rfl⟩
  simp [hrest]

theorem steady_space : space.Steady := steady_star_one _

/-! ### Matching -/

/-- A match at the beginning of a text is where the matcher comes to. -/
theorem run_of_match? {p : Pattern} {text : List Char} {m : Match} (h : p.match? text = some m) :
    p.run some (.behind [] text []) = some m.after := by
  obtain ⟨after, hrun, rfl⟩ := Option.map_eq_some_iff.mp h
  exact hrun

/-- A match at the beginning of a text is one of the ways. -/
theorem matches_of_match? {p : Pattern} {text : List Char} {m : Match} (h : p.match? text = some m) :
    p.Matches (.behind [] text []) m.after := by
  obtain ⟨c', hmatch, heq⟩ := p.run_sound (run_of_match? h)
  obtain rfl := Option.some.inj heq
  exact hmatch

/-- A group of any characters is bound to all that is left. -/
theorem group?_of_run_plus_any {number : Nat} {before rest : List Char} {groups : List Binding}
    {after : Cursor}
    (h : (Pattern.group number (.plus (.one fun _ => true))).run some (.behind before rest groups) =
      some after) : after.group? number = some rest := by
  cases rest with
  | nil => cases h
  | cons x rest =>
    have hall := run_star_any (c := { last := some x, rest, groups })
      (k := fun c' => some { c' with groups := ⟨number, x :: rest, c'.rest⟩ :: c'.groups }) rfl
    obtain rfl := Option.some.inj (hall.symm.trans h)
    simp [Cursor.group?, Binding.text]

/-! ### Searching -/

theorem isSome_matchAt? {p : Pattern} (hsteady : p.Steady) (c : Cursor) :
    (p.matchAt? c).isSome = true ↔ ∃ c', p.Matches c c' := by
  simp only [matchAt?, Option.isSome_map]
  constructor
  · intro h
    obtain ⟨after, hafter⟩ := Option.isSome_iff_exists.mp h
    obtain ⟨c', hmatch, -⟩ := p.run_sound hafter
    exact ⟨c', hmatch⟩
  · rintro ⟨c', hmatch⟩
    exact p.run_complete hsteady hmatch rfl

/-- A match that is found is one of the ways from its beginning on. -/
theorem matches_of_searchFrom? {p : Pattern} {before text : List Char} {m : Match}
    (h : p.searchFrom? before.getLast? text = some m) :
    ∃ rest, text = m.before ++ rest ∧ p.Matches (.behind (before ++ m.before) rest []) m.after := by
  induction text generalizing before m with
  | nil =>
    obtain ⟨after, hrun, rfl⟩ := Option.map_eq_some_iff.mp h
    obtain ⟨c', hmatch, heq⟩ := p.run_sound hrun
    obtain rfl := Option.some.inj heq
    exact ⟨[], rfl, by rwa [List.append_nil]⟩
  | cons x text ih =>
    simp only [searchFrom?] at h
    split at h
    · next m' hm =>
      obtain rfl := Option.some.inj h
      obtain ⟨after, hrun, rfl⟩ := Option.map_eq_some_iff.mp hm
      obtain ⟨c', hmatch, heq⟩ := p.run_sound hrun
      obtain rfl := Option.some.inj heq
      exact ⟨x :: text, rfl, by rwa [List.append_nil]⟩
    · obtain ⟨m', hm, rfl⟩ := Option.map_eq_some_iff.mp h
      rw [← List.getLast?_concat (l := before)] at hm
      obtain ⟨rest, htext, hmatch⟩ := ih hm
      exact ⟨rest, congrArg (x :: ·) htext, by rwa [List.append_assoc] at hmatch⟩

theorem matches_of_search? {p : Pattern} {text : List Char} {m : Match} (h : p.search? text = some m) :
    ∃ rest, text = m.before ++ rest ∧ p.Matches (.behind m.before rest []) m.after := by
  have hfrom : p.searchFrom? ([] : List Char).getLast? text = some m := h
  exact matches_of_searchFrom? hfrom

/-- A search goes through all the places of the text. -/
theorem isSome_searchFrom? {p : Pattern} (hsteady : p.Steady) (before text : List Char) :
    (p.searchFrom? before.getLast? text).isSome = true ↔
      ∃ taken rest c', text = taken ++ rest ∧ p.Matches (.behind (before ++ taken) rest []) c' := by
  induction text generalizing before with
  | nil =>
    simp only [searchFrom?]
    rw [isSome_matchAt? hsteady]
    constructor
    · rintro ⟨c', hmatch⟩
      exact ⟨[], [], c', rfl, by rwa [List.append_nil]⟩
    · rintro ⟨taken, rest, c', htext, hmatch⟩
      obtain ⟨rfl, rfl⟩ := List.append_eq_nil_iff.mp htext.symm
      rw [List.append_nil] at hmatch
      exact ⟨c', hmatch⟩
  | cons x text ih =>
    have hhere := isSome_matchAt? hsteady (.behind before (x :: text) [])
    have hlater := ih (before ++ [x])
    rw [List.getLast?_concat] at hlater
    simp only [searchFrom?]
    cases hm : p.matchAt? { last := before.getLast?, rest := x :: text } with
    | some m =>
      obtain ⟨c', hmatch⟩ := hhere.mp (by rw [Cursor.behind, hm]; rfl)
      exact iff_of_true rfl ⟨[], x :: text, c', rfl, by rwa [List.append_nil]⟩
    | none =>
      rw [Option.isSome_map, hlater]
      constructor
      · rintro ⟨taken, rest, c', rfl, hmatch⟩
        exact ⟨x :: taken, rest, c', rfl, by rwa [List.append_assoc] at hmatch⟩
      · rintro ⟨taken, rest, c', htext, hmatch⟩
        cases taken with
        | nil =>
          rw [List.append_nil, ← show x :: text = rest from htext] at hmatch
          have hsome := hhere.mpr ⟨c', hmatch⟩
          rw [Cursor.behind, hm] at hsome
          cases hsome
        | cons y taken =>
          obtain ⟨rfl, rfl⟩ := List.cons.inj htext
          exact ⟨taken, rest, c', rfl, by rwa [List.append_assoc]⟩

/-- The match that a search finds begins where a match begins first. -/
theorem length_before_le_of_searchFrom? {p : Pattern} (hsteady : p.Steady)
    {before text taken rest : List Char} {m : Match} {c' : Cursor}
    (h : p.searchFrom? before.getLast? text = some m)
    (htext : text = taken ++ rest) (hmatch : p.Matches (.behind (before ++ taken) rest []) c') :
    m.before.length ≤ taken.length := by
  induction text generalizing before taken m with
  | nil =>
    obtain ⟨after, -, rfl⟩ := Option.map_eq_some_iff.mp h
    exact Nat.zero_le _
  | cons x text ih =>
    simp only [searchFrom?] at h
    split at h
    · next m' hm =>
      obtain rfl := Option.some.inj h
      obtain ⟨after, -, rfl⟩ := Option.map_eq_some_iff.mp hm
      exact Nat.zero_le _
    · next hnone =>
      obtain ⟨m', hm, rfl⟩ := Option.map_eq_some_iff.mp h
      cases taken with
      | nil =>
        rw [List.append_nil, ← show x :: text = rest from htext] at hmatch
        have hsome := (isSome_matchAt? hsteady _).mpr ⟨c', hmatch⟩
        rw [Cursor.behind, hnone] at hsome
        cases hsome
      | cons y taken =>
        obtain ⟨rfl, rfl⟩ := List.cons.inj htext
        rw [← List.getLast?_concat (l := before)] at hm
        exact Nat.succ_le_succ (ih hm rfl (by rwa [List.append_assoc]))

theorem length_before_le_of_search? {p : Pattern} (hsteady : p.Steady) {taken rest : List Char}
    {m : Match} {c' : Cursor} (h : p.search? (taken ++ rest) = some m)
    (hmatch : p.Matches (.behind taken rest []) c') : m.before.length ≤ taken.length := by
  have hfrom : p.searchFrom? ([] : List Char).getLast? (taken ++ rest) = some m := h
  exact length_before_le_of_searchFrom? hsteady hfrom rfl hmatch

/-- A search passes over a text whose characters do not begin a match. -/
theorem searchFrom?_append {x : Char} {p q : Pattern} {ps : List Pattern} {m : Match}
    (hp : p = all (char x :: q :: ps)) (before : List Char) {start rest : List Char} (hstart : x ∉ start)
    (h : p.matchAt? (.behind (before ++ start) rest []) = some m) :
    ∃ m', p.searchFrom? before.getLast? (start ++ rest) = some m' ∧ m'.after = m.after := by
  induction start generalizing before with
  | nil =>
    rw [List.append_nil] at h
    refine ⟨m, ?_, rfl⟩
    cases rest with
    | nil => exact h
    | cons y rest =>
      rw [List.nil_append, searchFrom?]
      have hhere : p.matchAt? { last := before.getLast?, rest := y :: rest } = some m := h
      rw [hhere]
  | cons y start ih =>
    rw [List.mem_cons, not_or] at hstart
    have hnone : p.matchAt? { last := before.getLast?, rest := y :: (start ++ rest) } = none := by
      subst hp
      simp [matchAt?, all, run, char, Ne.symm hstart.1]
    obtain ⟨m', hsearch, hafter⟩ := ih (before ++ [y]) hstart.2 (by simpa using h)
    rw [List.getLast?_concat] at hsearch
    refine ⟨{ m' with before := y :: m'.before }, ?_, hafter⟩
    rw [List.cons_append, searchFrom?, hnone, hsearch]
    rfl

/-- Each of the matches in a text is one of the ways from its beginning on. -/
theorem matches_of_mem_searchAllFrom {p : Pattern} {bound before text : List Char} {m : Match}
    (h : m ∈ p.searchAllFrom bound before.getLast? text) :
    ∃ taken rest, text = taken ++ rest ∧ p.Matches (.behind (before ++ taken) rest []) m.after := by
  induction bound generalizing before text m with
  | nil =>
    unfold searchAllFrom at h
    split at h
    · cases h
    · next m' hm =>
      obtain rfl := List.mem_singleton.mp h
      obtain ⟨rest, htext, hmatch⟩ := matches_of_searchFrom? hm
      exact ⟨m.before, rest, htext, hmatch⟩
  | cons _ bound ih =>
    unfold searchAllFrom at h
    split at h
    · cases h
    · next first hfirst =>
      obtain ⟨rest, rfl, hmatch⟩ := matches_of_searchFrom? hfirst
      have hhere : ∃ taken rest', first.before ++ rest = taken ++ rest' ∧
          p.Matches (.behind (before ++ taken) rest' []) first.after := ⟨_, _, rfl, hmatch⟩
      obtain ⟨taken, rest', groups, rfl, hafter⟩ := exists_taken_of_matches hmatch
      -- what is found later stands behind this match
      have hlater : ∀ {passed rest m'}, rest' = passed ++ rest →
          m' ∈ p.searchAllFrom bound (before ++ (first.before ++ (taken ++ passed))).getLast? rest →
          ∃ taken' rest'', first.before ++ (taken ++ rest') = taken' ++ rest'' ∧
            p.Matches (.behind (before ++ taken') rest'' []) m'.after := by
        rintro passed rest m' rfl hmem
        obtain ⟨taken', rest'', rfl, hmatch'⟩ := ih hmem
        refine ⟨first.before ++ (taken ++ (passed ++ taken')), rest'', ?_, ?_⟩
        · simp only [List.append_assoc]
        · simpa only [List.append_assoc] using hmatch'
      simp only [hafter, Cursor.behind] at h
      split at h
      · split at h
        · obtain rfl := List.mem_singleton.mp h
          exact hhere
        · next x rest =>
          have hlast : (before ++ (first.before ++ (taken ++ [x]))).getLast? = some x := by
            simp only [← List.append_assoc, List.getLast?_concat]
          have hmore := fun {m'} => @hlater [x] rest m' rfl
          rw [hlast] at hmore
          rcases List.mem_cons.mp h with rfl | h
          · exact hhere
          · split at h
            · cases h
            · next next more hnext =>
              rw [hnext] at hmore
              rcases List.mem_cons.mp h with rfl | h
              · have hfirst' := hmore (List.mem_cons_self : next ∈ next :: more)
                exact hfirst'
              · exact hmore (List.mem_cons_of_mem _ h)
      · rcases List.mem_cons.mp h with rfl | h
        · exact hhere
        · refine @hlater [] _ _ rfl ?_
          rwa [List.append_nil, ← List.append_assoc]

theorem matches_of_mem_searchAll {p : Pattern} {text : List Char} {m : Match} (h : m ∈ p.searchAll text) :
    ∃ before rest, text = before ++ rest ∧ p.Matches (.behind before rest []) m.after := by
  have hfrom : m ∈ p.searchAllFrom text ([] : List Char).getLast? text := h
  exact matches_of_mem_searchAllFrom hfrom

/-- A pattern occurs where it matches between two parts of the text. -/
theorem occursIn_iff {p : Pattern} (hsteady : p.Steady) (text : List Char) :
    p.occursIn text = true ↔
      ∃ before rest c', text = before ++ rest ∧ p.Matches (.behind before rest []) c' :=
  isSome_searchFrom? hsteady [] text

end Pattern

end Coach.Text
