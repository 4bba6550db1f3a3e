import Coach.Proofs.Text.Language
import Coach.Proofs.Text.Parts

/-!
# Texts in which a pattern is replaced

Replacing a pattern cuts a text into characters that are kept and texts that are replaced.  No match
begins at a character that is kept; so whatever of the pattern is found afterwards has come up where
something was filled in.  Where a fill stands in brackets, nothing that has no brackets comes up.

## Main definitions

* `Segment`: a character that is kept, or a text that is replaced
* `Pattern.Prefers`: the text that the matcher takes first
* `Pattern.Cuts`: the segments into which a search from left to right cuts a text
* `Pattern.Tangible`: a pattern whose places can be told by its texts, as `Pattern.isTame` checks
* `Pattern.Unbracketed`: a pattern that has nothing to do with brackets

## Main statements

* `Pattern.Tangible.exists_cuts`: the segments of a text, with what is replaced in them
* `Pattern.Unbracketed.not_occursIn_replace`: a fill in brackets brings up no pattern without brackets
* `Pattern.Unbracketed.not_occursIn_replace_self`: and of such a pattern, replaced, nothing is left
-/

namespace Coach.Text

/-! ### Segments -/

/-- A segment of a text in which a pattern is replaced. -/
inductive Segment where
  | kept (c : Char)
  | replaced (taken : List Char)

namespace Segment

/-- The text with what a function makes of each text that is replaced. -/
def spelled (f : List Char → List Char) : List Segment → List Char
  | [] => []
  | .kept c :: segments => c :: spelled f segments
  | .replaced taken :: segments => f taken ++ spelled f segments

/-- The text as it was. -/
def before (segments : List Segment) : List Char := spelled id segments

/-- The text with a fill for what is replaced. -/
def behind (fill : List Char) (segments : List Segment) : List Char := spelled (fun _ => fill) segments

section Spelling

variable {f : List Char → List Char} {fill taken : List Char} {c : Char} {segments more : List Segment}

@[simp] theorem spelled_append : spelled f (segments ++ more) = spelled f segments ++ spelled f more := by
  induction segments with
  | nil => rfl
  | cons s segments ih => cases s <;> simp [spelled, ih]

@[simp] theorem spelled_map_kept (text : List Char) : spelled f (text.map .kept) = text := by
  induction text with
  | nil => rfl
  | cons c text ih => rw [List.map_cons, spelled, ih]

@[simp] theorem before_kept : before (.kept c :: segments) = c :: before segments := rfl

@[simp] theorem before_replaced : before (.replaced taken :: segments) = taken ++ before segments := rfl

@[simp] theorem before_append : before (segments ++ more) = before segments ++ before more := spelled_append

@[simp] theorem before_map_kept (text : List Char) : before (text.map .kept) = text := spelled_map_kept text

@[simp] theorem behind_kept : behind fill (.kept c :: segments) = c :: behind fill segments := rfl

@[simp] theorem behind_replaced : behind fill (.replaced taken :: segments) = fill ++ behind fill segments :=
  rfl

@[simp] theorem behind_append :
    behind fill (segments ++ more) = behind fill segments ++ behind fill more := spelled_append

@[simp] theorem behind_map_kept (text : List Char) : behind fill (text.map .kept) = text :=
  spelled_map_kept text

end Spelling

end Segment

namespace Pattern

open Segment

variable {p q : Pattern} {fill : List Char} {segments more : List Segment}

/-! ### The matches of a plain pattern -/

theorem exists_behind (last : Option Char) (rest : List Char) (groups : List Binding) :
    ∃ before, ({ last, rest, groups } : Cursor) = .behind before rest groups := by
  refine ⟨last.toList, ?_⟩
  cases last <;> rfl

/-- The text that the matcher takes first where this text and the rest stand. -/
def Prefers (p : Pattern) (taken rest : List Char) : Prop :=
  ∃ last after, p.run some { last, rest := taken ++ rest } = some after ∧ after.rest = rest

theorem Prefers.takes {taken rest : List Char} (hplain : p.Plain) (h : p.Prefers taken rest) :
    p.Takes taken := by
  obtain ⟨last, after, hrun, rfl⟩ := h
  obtain ⟨before, hbefore⟩ := exists_behind last (taken ++ after.rest) []
  obtain ⟨c', hmatch, heq⟩ := p.run_sound hrun
  obtain rfl := Option.some.inj heq
  rw [hbefore] at hmatch
  obtain ⟨taken', rest, groups, htext, htaken, hafter⟩ := exists_takes_of_matches hplain hmatch
  have hrest : c'.rest = rest := by rw [hafter]; rfl
  rw [hrest] at htext
  rwa [List.append_cancel_right htext]

/-- Where nothing is matched, no text of the pattern begins. -/
theorem matchAt?_eq_none_iff (hplain : p.Plain) (hsteady : p.Steady) {last : Option Char}
    {rest : List Char} : p.matchAt? { last, rest } = none ↔
      ∀ taken after, p.Takes taken → rest ≠ taken ++ after := by
  obtain ⟨before, hbefore⟩ := exists_behind last rest []
  have hiff := isSome_matchAt? hsteady { last, rest }
  rw [← Option.not_isSome_iff_eq_none, hiff]
  constructor
  · rintro hnone taken after htaken rfl
    obtain ⟨groups, hmatch⟩ : ∃ groups, p.Matches (.behind before (taken ++ after) [])
        (.behind (before ++ taken) after groups) := matches_of_takes hplain htaken
    exact hnone ⟨_, hbefore ▸ hmatch⟩
  · rintro hnone ⟨c', hmatch⟩
    rw [hbefore] at hmatch
    obtain ⟨taken, after, groups, htext, htaken, -⟩ := exists_takes_of_matches hplain hmatch
    exact hnone taken after htaken htext

/-- A plain pattern occurs exactly where one of its texts stands. -/
theorem occursIn_iff_takes (hplain : p.Plain) (hsteady : p.Steady) {text : List Char} :
    p.occursIn text = true ↔
      ∃ before taken after, text = before ++ (taken ++ after) ∧ p.Takes taken := by
  refine ⟨exists_takes_of_occursIn hplain, ?_⟩
  rintro ⟨before, taken, after, rfl, htaken⟩
  obtain ⟨groups, hmatch⟩ : ∃ groups, p.Matches (.behind before (taken ++ after) [])
      (.behind (before ++ taken) after groups) := matches_of_takes hplain htaken
  exact (occursIn_iff hsteady _).mpr ⟨before, taken ++ after, _, rfl, hmatch⟩

/-! ### Cutting a text -/

/-- The segments into which a search from left to right cuts a text. -/
inductive Cuts (p : Pattern) : List Segment → Prop
  | nil : Cuts p []
  | kept {c : Char} {segments : List Segment}
      (hnone : ∀ taken after, p.Takes taken → c :: before segments ≠ taken ++ after)
      (h : Cuts p segments) : Cuts p (.kept c :: segments)
  | replaced {taken : List Char} {segments : List Segment}
      (hprefers : p.Prefers taken (before segments)) (h : Cuts p segments) :
      Cuts p (.replaced taken :: segments)

/-- A pattern whose places can be told by its texts, none of which is empty. -/
structure Tangible (p : Pattern) : Prop where
  plain : p.Plain
  steady : p.Steady
  not_takes_nil : ¬ p.Takes []

/-- Whether the pattern refers to nothing and repeats only classes, and none of its classes has one of some
characters. -/
def isTame (without : List Char) : Pattern → Bool
  | .empty => true
  | .one cls => without.all fun c => !cls c
  | .seq first second => first.isTame without && second.isTame without
  | .alt first second => first.isTame without && second.isTame without
  | .star (.one cls) => without.all fun c => !cls c
  | .group _ body => body.isTame without
  | _ => false

section Tame

variable {without : List Char}

theorem plain_of_isTame (h : p.isTame without = true) : p.Plain := by
  fun_induction isTame without p with
  | case3 first second ih₁ ih₂ => exact ((Bool.and_eq_true _ _).mp h).imp ih₁ ih₂
  | case4 first second ih₁ ih₂ => exact ((Bool.and_eq_true _ _).mp h).imp ih₁ ih₂
  | case6 _ body ih => exact ih h
  | case7 => cases h
  | _ => trivial

theorem steady_of_isTame (h : p.isTame without = true) : p.Steady := by
  fun_induction isTame without p with
  | case3 first second ih₁ ih₂ => exact ((Bool.and_eq_true _ _).mp h).imp ih₁ ih₂
  | case4 first second ih₁ ih₂ => exact ((Bool.and_eq_true _ _).mp h).imp ih₁ ih₂
  | case5 cls => exact steady_star_one cls
  | case6 _ body ih => exact ih h
  | _ => trivial

theorem within_of_isTame (h : p.isTame without = true) : p.Within (· ∉ without) := by
  have hcls : ∀ {cls : Char → Bool}, (without.all fun c => !cls c) = true →
      ∀ c, cls c = true → c ∉ without := fun hall c hc hmem => by
    have hnot := List.all_eq_true.mp hall c hmem
    rw [hc] at hnot
    cases hnot
  fun_induction isTame without p with
  | case2 cls => exact hcls h
  | case3 first second ih₁ ih₂ => exact ((Bool.and_eq_true _ _).mp h).imp ih₁ ih₂
  | case4 first second ih₁ ih₂ => exact ((Bool.and_eq_true _ _).mp h).imp ih₁ ih₂
  | case5 cls => exact hcls h
  | case6 _ body ih => exact ih h
  | case7 => cases h
  | _ => trivial

theorem tangible_of_isTame (h : p.isTame without = true) (hnil : p.occursIn [] = false) : p.Tangible where
  plain := plain_of_isTame h
  steady := steady_of_isTame h
  not_takes_nil htakes := by
    have hoccurs : p.occursIn [] = true := (occursIn_iff_takes (plain_of_isTame h) (steady_of_isTame h)).mpr
      ⟨[], [], [], rfl, htakes⟩
    rw [hnil] at hoccurs
    cases hoccurs

end Tame

theorem Tangible.not_occursIn_nil (hp : p.Tangible) : p.occursIn [] = false := by
  rw [← Bool.not_eq_true]
  intro hoccurs
  obtain ⟨before, taken, after, heq, htaken⟩ := exists_takes_of_occursIn hp.plain hoccurs
  obtain rfl := (List.append_eq_nil_iff.mp (List.append_eq_nil_iff.mp heq.symm).2).1
  exact hp.not_takes_nil htaken

/-- A pattern that takes something moves on when it is repeated. -/
theorem Tangible.steady_star (hp : p.Tangible) : (Pattern.star p).Steady := by
  refine ⟨hp.steady, fun c c' hmatch => ?_⟩
  obtain ⟨last, rest, groups⟩ := c
  obtain ⟨before, hbefore⟩ := exists_behind last rest groups
  rw [hbefore] at hmatch ⊢
  obtain ⟨taken, rest, groups, rfl, htaken, rfl⟩ := exists_takes_of_matches hp.plain hmatch
  have hne : taken ≠ [] := by
    rintro rfl
    exact hp.not_takes_nil htaken
  have hpos := List.length_pos_iff.mpr hne
  simp only [Cursor.behind, List.length_append]
  omega

/-- What is replaced is a text of the pattern. -/
theorem Cuts.takes (hplain : p.Plain) (h : p.Cuts segments) {taken : List Char}
    (hmem : .replaced taken ∈ segments) : p.Takes taken := by
  induction h with
  | nil => cases hmem
  | kept _ _ ih => exact ih (List.mem_of_ne_of_mem Segment.noConfusion hmem)
  | replaced hprefers _ ih =>
    rcases List.mem_cons.mp hmem with heq | hmem
    · obtain rfl := Segment.replaced.inj heq
      exact hprefers.takes hplain
    · exact ih hmem

theorem Cuts.tail {s : Segment} (h : p.Cuts (s :: segments)) : p.Cuts segments := by
  cases h <;> assumption

theorem Cuts.of_append (h : p.Cuts (segments ++ more)) : p.Cuts more := by
  induction segments with
  | nil => exact h
  | cons s segments ih => exact ih h.tail

/-- A text in which nothing is matched is kept. -/
theorem Tangible.cuts_of_none (hp : p.Tangible) {last : Option Char} {text : List Char}
    (h : p.searchFrom? last text = none) : p.Cuts (text.map .kept) := by
  induction text generalizing last with
  | nil => exact .nil
  | cons c text ih =>
    rw [searchFrom?] at h
    split at h
    · cases h
    · next hnone =>
      refine .kept ?_ (ih (Option.map_eq_none_iff.mp h))
      rw [before_map_kept]
      exact (matchAt?_eq_none_iff hp.plain hp.steady).mp hnone

/-- A match at a cursor is what the matcher takes first. -/
theorem prefers_of_matchAt? {last : Option Char} {text : List Char} {m : Match}
    (h : p.matchAt? { last, rest := text } = some m) :
    m.before = [] ∧ text = m.taken ++ m.rest ∧ p.Prefers m.taken m.rest := by
  obtain ⟨after, hrun, rfl⟩ := Option.map_eq_some_iff.mp h
  obtain ⟨front, hfront⟩ := exists_behind last text []
  obtain ⟨c', hmatch, heq⟩ := p.run_sound hrun
  obtain rfl := Option.some.inj heq
  rw [hfront] at hmatch
  obtain ⟨taken, rest, groups, rfl, hafter⟩ := exists_taken_of_matches hmatch
  have hrest : c'.rest = rest := by rw [hafter]; rfl
  have htaken : (taken ++ rest).take ((taken ++ rest).length - c'.rest.length) = taken := by
    rw [hrest, List.length_append, Nat.add_sub_cancel, List.take_left' rfl]
  refine ⟨rfl, ?_, last, c', ?_, rfl⟩
  · rw [htaken, Match.rest, hrest]
  · rwa [htaken, Match.rest, hrest]

/-- A match that is found, with what stands before and behind it, is the text. -/
theorem eq_of_searchFrom? {last : Option Char} {text : List Char} {m : Match}
    (h : p.searchFrom? last text = some m) : text = m.before ++ (m.taken ++ m.rest) := by
  induction text generalizing last m with
  | nil =>
    obtain ⟨hbefore, htext, -⟩ := prefers_of_matchAt? h
    rwa [hbefore]
  | cons c text ih =>
    rw [searchFrom?] at h
    split at h
    · next m' hm =>
      obtain rfl := Option.some.inj h
      obtain ⟨hbefore, htext, -⟩ := prefers_of_matchAt? hm
      rwa [hbefore]
    · obtain ⟨m', hm', rfl⟩ := Option.map_eq_some_iff.mp h
      exact congrArg (c :: ·) (ih hm')

/-- The first match, and what may stand behind it. -/
theorem Tangible.cuts_of_some (hp : p.Tangible) {last : Option Char} {text : List Char} {m : Match}
    (h : p.searchFrom? last text = some m) :
    text = m.before ++ (m.taken ++ m.rest) ∧ m.taken ≠ [] ∧
      ∀ segments, p.Cuts segments → before segments = m.rest →
        p.Cuts (m.before.map .kept ++ .replaced m.taken :: segments) := by
  have hne : ∀ {taken rest}, p.Prefers taken rest → taken ≠ [] := by
    rintro _ _ hprefers rfl
    exact hp.not_takes_nil (hprefers.takes hp.plain)
  induction text generalizing last m with
  | nil =>
    obtain ⟨hbefore, htext, hprefers⟩ := prefers_of_matchAt? h
    exact absurd (List.append_eq_nil_iff.mp htext.symm).1 (hne hprefers)
  | cons c text ih =>
    rw [searchFrom?] at h
    split at h
    · next m' hm =>
      obtain rfl := Option.some.inj h
      obtain ⟨hbefore, htext, hprefers⟩ := prefers_of_matchAt? hm
      rw [hbefore]
      exact ⟨htext, hne hprefers, fun segments hcuts heq => .replaced (heq ▸ hprefers) hcuts⟩
    · next hnone =>
      obtain ⟨m', hm', rfl⟩ := Option.map_eq_some_iff.mp h
      obtain ⟨rfl, htaken, hcuts⟩ := ih hm'
      refine ⟨rfl, htaken, fun segments hsegments heq => .kept ?_ (hcuts segments hsegments heq)⟩
      have hbefore : before (m'.before.map .kept ++ .replaced m'.taken :: segments) =
          m'.before ++ (m'.taken ++ m'.rest) := by
        rw [before_append, before_map_kept, before_replaced, heq]
        rfl
      change ∀ taken after, p.Takes taken →
        c :: before (m'.before.map .kept ++ .replaced m'.taken :: segments) ≠ taken ++ after
      rw [hbefore]
      exact (matchAt?_eq_none_iff hp.plain hp.steady).mp hnone

/-- What is made of a text by filling in something for each match. -/
def filled (f : Match → List Char) (text : List Char) : List Match → List Char
  | [] => text
  | m :: found => m.before ++ (f m ++ filled f m.rest found)

theorem filled_eq (f : Match → List Char) {found : List Match} {final : Match} (text : List Char)
    (h : found.getLast? = some final) :
    filled f text found = found.flatMap (fun m => m.before ++ f m) ++ final.rest := by
  induction found generalizing text with
  | nil => cases h
  | cons m found ih =>
    rw [List.getLast?_cons] at h
    cases hfound : found.getLast? with
    | none =>
      obtain rfl : m = final := by simpa [hfound] using h
      rw [List.getLast?_eq_none_iff.mp hfound]
      simp [filled, Match.rest]
    | some last =>
      obtain rfl : last = final := by simpa [hfound] using h
      rw [filled, ih m.rest hfound, List.flatMap_cons]
      simp

theorem replace_eq_filled (f : Match → List Char) (text : List Char) :
    p.replace f text = filled f text (p.searchAll text) := by
  unfold replace
  cases hlast : (p.searchAll text).getLast? with
  | none =>
    rw [List.getLast?_eq_none_iff.mp hlast]
    rfl
  | some final => exact (filled_eq f text hlast).symm

theorem Tangible.exists_cuts_from (hp : p.Tangible) (fill : List Char) {bound text : List Char}
    (hbound : text.length ≤ bound.length) (last : Option Char) :
    ∃ segments, p.Cuts segments ∧ before segments = text ∧
      behind fill segments = filled (fun _ => fill) text (p.searchAllFrom bound last text) := by
  induction bound generalizing text last with
  | nil =>
    obtain rfl := List.eq_nil_of_length_eq_zero (Nat.le_zero.mp hbound)
    refine ⟨[], .nil, rfl, ?_⟩
    unfold searchAllFrom
    split
    · rfl
    · next m hm =>
      obtain ⟨htext, htaken, -⟩ := hp.cuts_of_some hm
      exact absurd (List.append_eq_nil_iff.mp (List.append_eq_nil_iff.mp htext.symm).2).1 htaken
  | cons b bound ih =>
    unfold searchAllFrom
    split
    · next hnone => exact ⟨text.map .kept, hp.cuts_of_none hnone, by simp, by simp [filled]⟩
    · next m hm =>
      obtain ⟨rfl, htaken, hcuts⟩ := hp.cuts_of_some hm
      have hlength : m.rest.length ≤ bound.length := by
        have hpos := List.length_pos_iff.mpr htaken
        simp only [List.length_append, List.length_cons] at hbound
        omega
      obtain ⟨segments, hsegments, hbefore, hbehind⟩ := ih hlength m.after.last
      refine ⟨m.before.map .kept ++ .replaced m.taken :: segments, hcuts segments hsegments hbefore,
        ?_, ?_⟩
      · rw [before_append, before_map_kept, before_replaced, hbefore]
      · rw [behind_append, behind_map_kept, behind_replaced, hbehind]
        simp only [List.isEmpty_eq_false_iff.mpr htaken, Bool.false_eq_true, if_false, filled, Match.rest]

/-- **Replacing cuts a text into segments.** -/
theorem Tangible.exists_cuts (hp : p.Tangible) (fill text : List Char) :
    ∃ segments, p.Cuts segments ∧ before segments = text ∧
      behind fill segments = p.replace (fun _ => fill) text := by
  obtain ⟨segments, hcuts, hbefore, hbehind⟩ := hp.exists_cuts_from fill (Nat.le_refl text.length) none
  exact ⟨segments, hcuts, hbefore, by rw [hbehind, replace_eq_filled, searchAll]⟩

/-- A text in which a pattern does not occur is left as it is. -/
theorem replace_of_not_occursIn {f : Match → List Char} {text : List Char}
    (h : p.occursIn text = false) : p.replace f text = text := by
  have hnone : p.searchFrom? none text = none := by
    rw [occursIn, Option.isSome_eq_false_iff, Option.isNone_iff_eq_none] at h
    exact h
  have hall : p.searchAll text = [] := by
    rw [searchAll]
    unfold searchAllFrom
    rw [hnone]
  rw [replace_eq_filled, hall, filled]

/-! ### What is kept -/

section Kept

variable {f : List Char → List Char} {c : Char} {word start left right after : List Char}

/-- The text is bounded by characters that a word has not, and does not hold the word. -/
def Apart (word part : List Char) : Prop :=
  ∃ opening inner closing, part = opening :: (inner ++ [closing]) ∧ opening ∉ word ∧ closing ∉ word ∧
    ¬ word <:+: inner

/-- A word at the beginning is kept where nothing that is replaced can begin. -/
theorem exists_kept_of_spelled (hf : ∀ taken, .replaced taken ∈ segments → Apart word (f taken))
    (h : spelled f segments = word ++ after) :
    ∃ more, segments = word.map .kept ++ more ∧ spelled f more = after := by
  have hhead : ∀ taken, .replaced taken ∈ segments → ∃ x tail, f taken = x :: tail ∧ x ∉ word :=
    fun taken hmem => by
      obtain ⟨opening, inner, closing, heq, hopen, -⟩ := hf taken hmem
      exact ⟨opening, _, heq, hopen⟩
  clear hf
  induction word generalizing segments with
  | nil => exact ⟨segments, rfl, h⟩
  | cons d word ih =>
    cases segments with
    | nil => nomatch h
    | cons s segments =>
      cases s with
      | kept e =>
        obtain ⟨rfl, hrest⟩ := List.cons.inj h
        obtain ⟨more, rfl, hmore⟩ := ih hrest fun taken hmem => by
          obtain ⟨x, tail, heq, hx⟩ := hhead taken (List.mem_cons_of_mem _ hmem)
          exact ⟨x, tail, heq, fun hin => hx (List.mem_cons_of_mem _ hin)⟩
        exact ⟨more, rfl, hmore⟩
      | replaced taken =>
        obtain ⟨x, tail, heq, hx⟩ := hhead taken List.mem_cons_self
        rw [spelled, heq] at h
        exact absurd (List.mem_cons.mpr (Or.inl (List.cons.inj h).1)) hx

/-- A word that nothing replaced can hold, begin in or end in, is kept. -/
theorem exists_kept_of_apart (hne : word ≠ [])
    (hf : ∀ taken, .replaced taken ∈ segments → Apart word (f taken))
    (h : spelled f segments = start ++ (word ++ after)) :
    ∃ front more, segments = front ++ (word.map .kept ++ more) ∧ spelled f front = start ∧
      spelled f more = after := by
  induction segments generalizing start with
  | nil =>
    have hnil := (List.append_eq_nil_iff.mp (List.append_eq_nil_iff.mp h.symm).2).1
    exact absurd hnil hne
  | cons s segments ih =>
    have hrest : ∀ taken, .replaced taken ∈ segments → Apart word (f taken) :=
      fun taken hmem => hf taken (List.mem_cons_of_mem _ hmem)
    cases s with
    | kept c =>
      cases start with
      | nil =>
        obtain ⟨more, hmore, hafter⟩ := exists_kept_of_spelled hf h
        exact ⟨[], more, hmore, rfl, hafter⟩
      | cons d start =>
        obtain ⟨rfl, htail⟩ := List.cons.inj h
        obtain ⟨front, more, rfl, rfl, hafter⟩ := ih hrest htail
        exact ⟨.kept c :: front, more, rfl, rfl, hafter⟩
    | replaced taken =>
      obtain ⟨opening, inner, closing, heq, hopen, hclose, hinner⟩ := hf taken List.mem_cons_self
      have hpart : start ++ (word ++ after) = [] ++ opening :: (inner ++ closing :: spelled f segments) := by
        rw [← h, spelled, heq]
        simp
      rcases exists_beside hopen hpart with ⟨more, hnil, -⟩ | ⟨start, rfl, htail⟩
      · exact absurd (List.append_eq_nil_iff.mp (List.append_eq_nil_iff.mp hnil.symm).2).1 hne
      rcases exists_beside hclose htail.symm with ⟨more, hin, -⟩ | ⟨start, rfl, hspelled⟩
      · exact absurd ⟨start, more, by rw [hin, List.append_assoc]⟩ hinner
      · obtain ⟨front, more, rfl, rfl, hafter⟩ := ih hrest hspelled
        refine ⟨.replaced taken :: front, more, rfl, ?_, hafter⟩
        rw [spelled, heq]
        simp

/-- A character that nothing replaced has, is kept. -/
theorem exists_kept_of_not_mem (hf : ∀ taken, .replaced taken ∈ segments → c ∉ f taken)
    (h : spelled f segments = left ++ c :: right) :
    ∃ front more, segments = front ++ .kept c :: more ∧ spelled f front = left ∧
      spelled f more = right := by
  induction segments generalizing left with
  | nil => exact absurd h.symm (List.append_ne_nil_of_right_ne_nil _ (List.cons_ne_nil _ _))
  | cons s segments ih =>
    have hrest : ∀ taken, .replaced taken ∈ segments → c ∉ f taken :=
      fun taken hmem => hf taken (List.mem_cons_of_mem _ hmem)
    cases s with
    | kept d =>
      cases left with
      | nil =>
        obtain ⟨rfl, htail⟩ := List.cons.inj h
        exact ⟨[], segments, rfl, rfl, htail⟩
      | cons e left =>
        obtain ⟨rfl, htail⟩ := List.cons.inj h
        obtain ⟨front, more, rfl, rfl, hmore⟩ := ih hrest htail
        exact ⟨.kept d :: front, more, rfl, rfl, hmore⟩
    | replaced taken =>
      obtain ⟨left, rfl, htail⟩ := exists_of_append_cons (hf taken List.mem_cons_self) h
      obtain ⟨front, more, rfl, rfl, hmore⟩ := ih hrest htail
      exact ⟨.replaced taken :: front, more, rfl, rfl, hmore⟩

end Kept

/-! ### Fills in brackets -/

section Brackets

variable {inner : List Char}

/-- A pattern that has nothing to do with brackets, nor with what stands between them in a fill. -/
structure Unbracketed (inner : List Char) (p : Pattern) : Prop extends Tangible p where
  within : p.Within (· ∉ ['[', ']'])
  not_inside : p.occursIn inner = false

theorem unbracketed_of_isTame (h : p.isTame ['[', ']'] = true) (hnil : p.occursIn [] = false)
    (hinside : p.occursIn inner = false) : p.Unbracketed inner where
  toTangible := tangible_of_isTame h hnil
  within := within_of_isTame h
  not_inside := hinside

variable (hp : p.Unbracketed inner)

include hp

/-- What is found of such a pattern where something is filled in, is kept. -/
theorem Unbracketed.exists_kept
    (h : p.occursIn (behind ('[' :: (inner ++ [']'])) segments) = true) :
    ∃ front word more, segments = front ++ (word.map .kept ++ more) ∧ p.Takes word := by
  obtain ⟨start, word, after, heq, hword⟩ := exists_takes_of_occursIn hp.plain h
  have hne : word ≠ [] := by
    rintro rfl
    exact hp.not_takes_nil hword
  have hinner : ¬ word <:+: inner := by
    rintro ⟨left, right, hmid⟩
    have hinside : p.occursIn inner = true := (occursIn_iff_takes hp.plain hp.steady).mpr
      ⟨left, word, right, by rw [← hmid, List.append_assoc], hword⟩
    rw [hp.not_inside] at hinside
    cases hinside
  obtain ⟨front, more, rfl, -, -⟩ := exists_kept_of_apart hne (fun _ _ => ⟨'[', inner, ']', rfl,
    fun hmem => hword.within hp.within _ hmem (by simp),
    fun hmem => hword.within hp.within _ hmem (by simp), hinner⟩) heq
  exact ⟨front, word, more, rfl, hword⟩

/-- **A fill in brackets brings up no pattern without brackets.** -/
theorem Unbracketed.not_occursIn_replace (hq : q.Tangible) {text : List Char}
    (h : p.occursIn text = false) :
    p.occursIn (q.replace (fun _ => '[' :: (inner ++ [']'])) text) = false := by
  obtain ⟨segments, -, rfl, hbehind⟩ := hq.exists_cuts ('[' :: (inner ++ [']'])) text
  rw [← hbehind, ← Bool.not_eq_true]
  intro hoccurs
  obtain ⟨front, word, more, rfl, hword⟩ := hp.exists_kept hoccurs
  rw [(occursIn_iff_takes hp.plain hp.steady).mpr ⟨before front, word, before more, by simp, hword⟩] at h
  cases h

/-- Where such a pattern is replaced by a fill in brackets, nothing is left of it. -/
theorem Unbracketed.not_occursIn_replace_self (text : List Char) :
    p.occursIn (p.replace (fun _ => '[' :: (inner ++ [']'])) text) = false := by
  obtain ⟨segments, hcuts, rfl, hbehind⟩ := hp.exists_cuts ('[' :: (inner ++ [']'])) text
  rw [← hbehind, ← Bool.not_eq_true]
  intro hoccurs
  obtain ⟨front, word, more, rfl, hword⟩ := hp.exists_kept hoccurs
  cases word with
  | nil => exact hp.not_takes_nil hword
  | cons c word =>
    -- a match would have begun at the first character of the word
    cases hcuts.of_append with
    | kept hnone => exact hnone (c :: word) (before more) hword (by simp)

end Brackets

/-! ### A class at the end of a pattern -/

section Greedy

variable {cls : Char → Bool} {c after : Cursor}

theorem repeatStep_ne_none (step : (Cursor → Option Cursor) → Cursor → Option Cursor)
    (bound : List Char) : repeatStep step some bound c ≠ none := by
  cases bound with
  | nil => exact Option.some_ne_none c
  | cons x bound =>
    rw [repeatStep]
    cases step (repeatStep step some bound) c with
    | none => exact Option.some_ne_none c
    | some answer => exact Option.some_ne_none answer

/-- A class repeated is taken as far as it goes. -/
theorem rest_of_run_star_one (h : (Pattern.star (.one cls)).run some c = some after) :
    after.rest = c.rest.dropWhile cls := by
  obtain ⟨last, rest, groups⟩ := c
  change repeatStep (fun k' c' => (Pattern.one cls).run k' c') some rest { last, rest, groups } =
    some after at h
  induction rest generalizing last with
  | nil =>
    obtain rfl := Option.some.inj h
    rfl
  | cons x rest ih =>
    simp only [repeatStep, run] at h
    by_cases hx : cls x = true
    · rw [if_pos hx] at h
      split at h
      · next answer hanswer => rw [List.dropWhile_cons_of_pos hx, ih _ (hanswer.trans h)]
      · next hnone => exact absurd hnone (repeatStep_ne_none _ rest)
    · rw [if_neg hx] at h
      obtain rfl := Option.some.inj h
      rw [List.dropWhile_cons_of_neg hx]

/-- A pattern that ends with a class, taken as often as possible, stops where the class does. -/
theorem Prefers.head_rest (ps : List Pattern) {taken rest : List Char}
    (h : (all (ps ++ [plus (.one cls)])).Prefers taken rest) {x : Char} (hx : rest.head? = some x) :
    cls x = false := by
  obtain ⟨last, after, hrun, rfl⟩ := h
  have hend : ∀ {c : Cursor}, (plus (.one cls)).run some c = some after →
      ∃ text : List Char, after.rest = text.dropWhile cls := by
    intro c hrun
    obtain ⟨d, -, hstar⟩ := run_seq_sound hrun
    exact ⟨d.rest, rest_of_run_star_one hstar⟩
  have hall : ∃ text : List Char, after.rest = text.dropWhile cls := by
    generalize ({ last, rest := taken ++ after.rest } : Cursor) = c at hrun
    induction ps generalizing c with
    | nil => exact hend hrun
    | cons p ps ih =>
      obtain ⟨q, qs, hqs⟩ := List.exists_cons_of_ne_nil
        (List.append_ne_nil_of_right_ne_nil ps (List.cons_ne_nil (plus (.one cls)) []))
      rw [List.cons_append, hqs] at hrun
      obtain ⟨d, -, hrest⟩ := run_seq_sound hrun
      exact ih d (hqs ▸ hrest)
  obtain ⟨text, htext⟩ := hall
  exact of_mem_head_dropWhile x (htext ▸ hx)

end Greedy

end Pattern

end Coach.Text
