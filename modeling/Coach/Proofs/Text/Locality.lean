import Coach.Proofs.Text.Language

/-!
# What a pattern sees of a text

A pattern that ends with a character which nothing before it takes sees the text up to that character
only.  The matcher therefore goes the same ways in two texts that differ behind such a character, and a
search finds the same match with the same groups.

## Main definitions

* `Pattern.Shortsighted`: no more than the next character is looked at in advance
* `Alike`: two cursors on texts that differ in what stands at their ends

## Main statements

* `Pattern.run_alike`: the matcher goes the same ways up to a character that the pattern does not take
* `Pattern.search?_append`: a match is found whatever stands behind it
-/

namespace Coach.Text

/-- The texts that the groups are bound to. -/
def Cursor.bound (c : Cursor) : List (Nat × List Char) := c.groups.map fun b => (b.number, b.text)

theorem Cursor.group?_eq (c : Cursor) (number : Nat) :
    c.group? number = (c.bound.find? (·.1 == number)).map (·.2) := by
  rw [Cursor.group?, Cursor.bound, List.find?_map, Option.map_map]
  rfl

/-- Two cursors on the same text, behind which something else stands. -/
structure Alike (behind behind' text : List Char) (c c' : Cursor) : Prop where
  last : c.last = c'.last
  rest : c.rest = text ++ behind
  rest' : c'.rest = text ++ behind'
  bound : c.bound = c'.bound

namespace Pattern

/-- No more than the next character is looked at in advance, and what is repeated is a class. -/
def Shortsighted : Pattern → Prop
  | .seq first second => first.Shortsighted ∧ second.Shortsighted
  | .alt first second => first.Shortsighted ∧ second.Shortsighted
  | .star (.one _) => True
  | .star _ => False
  | .group _ body => body.Shortsighted
  | .again _ => False
  | .test holds => ∀ last rest rest', rest.head? = rest'.head? → holds last rest = holds last rest'
  | _ => True

theorem shortsighted_boundary : boundary.Shortsighted := fun last rest rest' h => by simp only [h]

theorem shortsighted_text (s : String) : (text s).Shortsighted := by
  unfold text
  induction s.toList with
  | nil => trivial
  | cons x word ih => exact ⟨trivial, ih⟩

section Alike

variable {behind behind' : List Char} {stop : Char} {α : Type} {Q : α → α → Prop}
  {k k' : Cursor → Option α}

/-- A class is repeated as often on both texts. -/
theorem repeatStep_alike {p : Char → Bool} (hstop : p stop = false)
    (hk : ∀ {text c c'}, Alike behind behind' (text ++ [stop]) c c' → Option.Rel Q (k c) (k' c'))
    {text bound bound' : List Char} (hbound : text.length < bound.length)
    (hbound' : text.length < bound'.length) {c c' : Cursor}
    (h : Alike behind behind' (text ++ [stop]) c c') :
    Option.Rel Q (repeatStep (fun k c => (Pattern.one p).run k c) k bound c)
      (repeatStep (fun k c => (Pattern.one p).run k c) k' bound' c') := by
  induction text generalizing bound bound' c c' with
  | nil =>
    obtain ⟨y, bound, rfl⟩ := List.exists_cons_of_length_pos hbound
    obtain ⟨y', bound', rfl⟩ := List.exists_cons_of_length_pos hbound'
    have hrest : c.rest = stop :: behind := h.rest
    have hrest' : c'.rest = stop :: behind' := h.rest'
    simp only [repeatStep, run, hrest, hrest', hstop, Bool.false_eq_true, if_false]
    exact @hk [] _ _ h
  | cons x text ih =>
    obtain ⟨y, bound, rfl⟩ := List.exists_cons_of_length_pos (Nat.zero_lt_of_lt hbound)
    obtain ⟨y', bound', rfl⟩ := List.exists_cons_of_length_pos (Nat.zero_lt_of_lt hbound')
    have hrest : c.rest = x :: (text ++ [stop] ++ behind) := h.rest
    have hrest' : c'.rest = x :: (text ++ [stop] ++ behind') := h.rest'
    simp only [List.length_cons, Nat.add_lt_add_iff_right] at hbound hbound'
    by_cases hx : p x = true
    · have hone : ∀ k : Cursor → Option α, (Pattern.one p).run k c =
          k { c with last := some x, rest := text ++ [stop] ++ behind } := fun k => by
        simp only [run, hrest, hx, if_true]
      have hone' : ∀ k : Cursor → Option α, (Pattern.one p).run k c' =
          k { c' with last := some x, rest := text ++ [stop] ++ behind' } := fun k => by
        simp only [run, hrest', hx, if_true]
      have hmoved : Alike behind behind' (text ++ [stop])
          { c with last := some x, rest := text ++ [stop] ++ behind }
          { c' with last := some x, rest := text ++ [stop] ++ behind' } := ⟨rfl, rfl, rfl, h.bound⟩
      have hmore := ih hbound hbound' hmoved
      simp only [repeatStep, hone, hone']
      generalize repeatStep _ k bound _ = answer at hmore ⊢
      generalize repeatStep _ k' bound' _ = answer' at hmore ⊢
      cases hmore with
      | some hq => exact .some hq
      | none => exact @hk (x :: text) _ _ h
    · simp only [repeatStep, run, hrest, hrest', hx]
      exact @hk (x :: text) _ _ h

/-- The matcher goes the same ways on both texts, up to a character that the pattern does not take. -/
theorem run_alike {p : Pattern} (hp : p.Shortsighted) (hstop : p.Within (· ≠ stop))
    (hk : ∀ {text c c'}, Alike behind behind' (text ++ [stop]) c c' → Option.Rel Q (k c) (k' c'))
    {text : List Char} {c c' : Cursor} (h : Alike behind behind' (text ++ [stop]) c c') :
    Option.Rel Q (p.run k c) (p.run k' c') := by
  induction p generalizing k k' text c c' with
  | empty => exact hk h
  | one p =>
    cases text with
    | nil =>
      have hrest : c.rest = stop :: behind := h.rest
      have hrest' : c'.rest = stop :: behind' := h.rest'
      have hnot : p stop = false := Bool.eq_false_iff.mpr fun hx => hstop stop hx rfl
      simp only [run, hrest, hrest', hnot, Bool.false_eq_true, if_false]
      exact .none
    | cons x text =>
      have hrest : c.rest = x :: (text ++ [stop] ++ behind) := h.rest
      have hrest' : c'.rest = x :: (text ++ [stop] ++ behind') := h.rest'
      simp only [run, hrest, hrest']
      split
      · exact @hk text _ _ ⟨rfl, rfl, rfl, h.bound⟩
      · exact .none
  | seq first second ih₁ ih₂ => exact ih₁ hp.1 hstop.1 (fun h => ih₂ hp.2 hstop.2 hk h) h
  | alt first second ih₁ ih₂ =>
    have hfirst := ih₁ hp.1 hstop.1 hk h
    simp only [run]
    generalize first.run k c = answer at hfirst ⊢
    generalize first.run k' c' = answer' at hfirst ⊢
    cases hfirst with
    | some hq => exact .some hq
    | none => exact ih₂ hp.2 hstop.2 hk h
  | star body =>
    cases body with
    | one p =>
      have hnot : p stop = false := Bool.eq_false_iff.mpr fun hx => hstop stop hx rfl
      refine repeatStep_alike hnot hk ?_ ?_ h
      · simp only [h.rest, List.length_append, List.length_singleton]
        omega
      · simp only [h.rest', List.length_append, List.length_singleton]
        omega
    | _ => exact hp.elim
  | group number body ih =>
    refine ih hp hstop (fun {later d d'} hd => ?_) h
    -- a group is bound to the text between, wherever it ends
    refine @hk later _ _ ⟨hd.last, hd.rest, hd.rest', ?_⟩
    have htext : ∀ {start stop' tail : List Char}, start = text ++ [stop] ++ tail →
        stop' = later ++ [stop] ++ tail → ({ number, start, stop := stop' } : Binding).text =
          (text ++ [stop]).take (text.length - later.length) := by
      rintro _ _ tail rfl rfl
      rw [Binding.text, List.length_append, List.length_append, List.length_append, List.length_append,
        Nat.add_sub_add_right, Nat.add_sub_add_right, List.take_append_of_le_length (by simp; omega)]
    have hbound := hd.bound
    simp only [Cursor.bound, List.map_cons, htext h.rest hd.rest, htext h.rest' hd.rest'] at hbound ⊢
    rw [hbound]
  | again number => exact hp.elim
  | test holds =>
    have hhead : c.rest.head? = c'.rest.head? := by
      rw [h.rest, h.rest']
      cases text <;> rfl
    simp only [run, h.last, hp c'.last _ _ hhead]
    split
    · exact hk h
    · exact .none

end Alike

/-! ### Patterns that end with a character -/

section Stop

variable {ps : List Pattern} {stop : Char} {behind behind' : List Char}

/-- A pattern that ends with a character moves up to it and past it. -/
theorem exists_of_matches_stop {before rest : List Char} {c' : Cursor}
    (h : (all (ps ++ [char stop])).Matches (.behind before rest []) c') :
    ∃ taken, rest = taken ++ stop :: c'.rest := by
  obtain ⟨d, hd, hstop⟩ := (matches_all_append (List.cons_ne_nil _ _)).mp h
  obtain ⟨taken, rest', groups, rfl, rfl⟩ := exists_taken_of_matches hd
  obtain ⟨rest, rfl, rfl⟩ := matches_char.mp hstop
  exact ⟨taken, rfl⟩

/-- Before a match ends stands its last character. -/
theorem exists_of_search?_stop {text : List Char} {m : Match}
    (h : (all (ps ++ [char stop])).search? text = some m) : ∃ front, text = front ++ stop :: m.rest := by
  obtain ⟨rest, htext, hmatch⟩ := matches_of_search? h
  obtain ⟨taken, rfl⟩ := exists_of_matches_stop hmatch
  exact ⟨m.before ++ taken, by rw [htext, List.append_assoc]; rfl⟩

variable (hps : ∀ p ∈ ps, p.Shortsighted ∧ p.Within (· ≠ stop))

include hps

/-- A pattern that ends with a character which nothing before it takes matches alike. -/
theorem run_all_alike {α : Type} {Q : α → α → Prop} {k k' : Cursor → Option α}
    (hk : ∀ {text c c'}, Alike behind behind' text c c' → Option.Rel Q (k c) (k' c'))
    {text : List Char} {c c' : Cursor} (h : Alike behind behind' (text ++ [stop]) c c') :
    Option.Rel Q ((all (ps ++ [char stop])).run k c) ((all (ps ++ [char stop])).run k' c') := by
  induction ps generalizing text c c' with
  | nil =>
    obtain ⟨x, rest, htext⟩ := List.exists_cons_of_ne_nil
      (List.append_ne_nil_of_right_ne_nil text (List.cons_ne_nil stop []))
    have hrest := h.rest
    have hrest' := h.rest'
    rw [htext, List.cons_append] at hrest hrest'
    simp only [List.nil_append, all, char, run, hrest, hrest']
    split
    · exact @hk rest _ _ ⟨rfl, rfl, rfl, h.bound⟩
    · exact .none
  | cons p ps ih =>
    obtain ⟨q, qs, hqs⟩ := List.exists_cons_of_ne_nil
      (List.append_ne_nil_of_right_ne_nil ps (List.cons_ne_nil (char stop) []))
    have hlater := fun {text c c'} => @ih (fun q hq => hps q (List.mem_cons_of_mem _ hq)) text c c'
    rw [hqs] at hlater
    rw [List.cons_append, hqs]
    exact run_alike (hps p List.mem_cons_self).1 (hps p List.mem_cons_self).2 hlater h

/-- A search that ends where the texts begin to differ ends there in both of them. -/
theorem searchFrom?_alike {before front : List Char} {m : Match}
    (h : (all (ps ++ [char stop])).searchFrom? before.getLast? (front ++ stop :: behind) = some m)
    (hm : behind.length ≤ m.rest.length) : ∃ m' text,
      (all (ps ++ [char stop])).searchFrom? before.getLast? (front ++ stop :: behind') = some m' ∧
        Alike behind behind' text m.after m'.after := by
  have hhere : ∀ {text last}, Option.Rel (fun c c' => ∃ text, Alike behind behind' text c c')
      ((all (ps ++ [char stop])).run some { last, rest := text ++ stop :: behind })
      ((all (ps ++ [char stop])).run some { last, rest := text ++ stop :: behind' }) := by
    intro text last
    have hstart : Alike behind behind' (text ++ [stop]) { last, rest := text ++ stop :: behind }
        { last, rest := text ++ stop :: behind' } :=
      ⟨rfl, by rw [List.append_assoc]; rfl, by rw [List.append_assoc]; rfl, rfl⟩
    exact run_all_alike hps (fun h => .some ⟨_, h⟩) hstart
  induction front generalizing before m with
  | nil =>
    have hmatch := @hhere [] before.getLast?
    simp only [List.nil_append, searchFrom?, matchAt?] at h hmatch ⊢
    generalize run _ some _ = answer at h hmatch
    generalize run _ some _ = answer' at hmatch ⊢
    cases hmatch with
    | some hq =>
      obtain ⟨text, halike⟩ := hq
      obtain rfl := Option.some.inj h
      exact ⟨_, text, rfl, halike⟩
    | none =>
      -- what is found later ends behind the place
      obtain ⟨m', hm', rfl⟩ := Option.map_eq_some_iff.mp h
      rw [← List.getLast?_concat (l := before)] at hm'
      obtain ⟨rest, hbehind, hmatch⟩ := matches_of_searchFrom? hm'
      obtain ⟨taken, rfl⟩ := exists_of_matches_stop hmatch
      have hlength := congrArg List.length hbehind
      simp only [Match.rest, List.length_cons, List.length_append] at hm hlength
      omega
  | cons x front ih =>
    have hmatch := @hhere (x :: front) before.getLast?
    simp only [List.cons_append, searchFrom?, matchAt?] at h hmatch ⊢
    generalize run _ some _ = answer at h hmatch
    generalize run _ some _ = answer' at hmatch ⊢
    cases hmatch with
    | some hq =>
      obtain ⟨text, halike⟩ := hq
      obtain rfl := Option.some.inj h
      exact ⟨_, text, rfl, halike⟩
    | none =>
      obtain ⟨m₁, hm₁, rfl⟩ := Option.map_eq_some_iff.mp h
      rw [← List.getLast?_concat (l := before)] at hm₁
      obtain ⟨m', text, hm', halike⟩ := ih hm₁ hm
      rw [List.getLast?_concat] at hm'
      exact ⟨{ m' with before := x :: m'.before }, text, by simp [hm'], halike⟩

/-- **A match is found whatever stands behind it**, and its groups are the same. -/
theorem search?_append {p : Pattern} (hp : p = all (ps ++ [char stop])) {front : List Char} {m : Match}
    (h : p.search? (front ++ m.rest) = some m) (rest : List Char) :
    ∃ m', p.search? (front ++ rest) = some m' ∧ m'.rest = rest ∧
      ∀ number, m'.group number = m.group number := by
  subst hp
  obtain ⟨before, hbefore⟩ := exists_of_search?_stop h
  obtain rfl : front = before ++ [stop] := by
    rw [← List.append_left_inj m.rest, hbefore, List.append_assoc]
    rfl
  have hfrom : (all (ps ++ [char stop])).searchFrom? ([] : List Char).getLast?
      (before ++ stop :: m.rest) = some m := hbefore ▸ h
  obtain ⟨m', text, hm', halike⟩ := @searchFrom?_alike _ _ _ rest hps _ _ _ hfrom (Nat.le_refl _)
  have hnil : text = [] := by
    have hrest : m.rest = text ++ m.rest := halike.rest
    exact List.append_left_eq_self.mp hrest.symm
  subst hnil
  refine ⟨m', ?_, halike.rest', fun number => ?_⟩
  · rw [List.append_assoc]
    exact hm'
  · rw [Match.group, Match.group, Match.group?, Match.group?, Cursor.group?_eq, Cursor.group?_eq,
      halike.bound]

end Stop

end Pattern

end Coach.Text
