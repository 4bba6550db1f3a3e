import Coach.Proofs.Finding.Allocations
import Coach.Proofs.Finding.Changes
import Coach.Proofs.Tutor.LinePatches
import Mathlib.Data.List.Basic

/-!
# Changes proposed for findings about arrays

For a loop that runs too far and for a literal index past the end a change of the line is proposed.  It
is made without regard to the array: the first comparison of the line with an equality sign loses that
sign, or the first literal between brackets is pulled back by one.  Where this is the one place of the
line that the rule objects to, and the index reached there is one past the end, the changed document is
not reported there any more.  An index further out is pulled back by one and reported again.

## Main definitions

* `Edits`: what the proposed change of a line puts in place of what
* `PutsRight`: the one place that a rule objects to is the one that is changed

## Main statements

* `exists_edits_of_proposePatch`: a proposed patch makes such a change
* `evaluate_after_patch`: the change removes what it was proposed for
-/

namespace Coach.Tutor

open Coach.Finding Coach.Source Coach.Text

/-! ### What a patch changes -/

/-- What the change that is proposed for a line puts in place of what, between what stands before it and
behind it: the first comparison loses its equality sign, or the first literal between brackets is made
one less. -/
inductive Edits (category : Category) (line : List Char) :
    List Char → List Char → List Char → List Char → Prop
  | comparison {before after : List Char} (hloop : contains line ['f', 'o', 'r'] = true)
      (h : breakOn? ['<', '='] line = some (before, after)) :
      Edits category line before ['<', '='] ['<'] after
  | index {m : Match} {index : Int} (hcategory : category = .arrayIndexOutOfBounds)
      (hloop : (contains line ['<', '='] && contains line ['f', 'o', 'r']) = false)
      (h : literalIndex.search? line = some m) (hread : readInt (m.group 1) = .ok index)
      (hpos : 0 < index) :
      Edits category line m.before ('[' :: (m.group 1 ++ [']'])) ('[' :: (intText (index - 1) ++ [']']))
        m.rest

/-- The line with its first literal between brackets made one less. -/
theorem exists_of_lowerIndex {line text : List Char} (h : lowerIndex line = .ok (some text)) :
    ∃ m index, literalIndex.search? line = some m ∧ readInt (m.group 1) = .ok index ∧ 0 < index ∧
      text = m.before ++ ('[' :: (intText (index - 1) ++ [']']) ++ m.rest) := by
  unfold lowerIndex at h
  split at h
  · cases h
  · next m hm =>
    cases hread : readInt (m.group 1) with
    | error e => simp [hread, bind, Except.bind] at h
    | ok index =>
      by_cases hpos : 0 < index
      · simp only [hread, bind, Except.bind, pure, Except.pure, hpos, if_true, Except.ok.injEq,
          Option.some.injEq] at h
        exact ⟨m, index, hm, hread, hpos, by simp [← h]⟩
      · simp [hread, bind, Except.bind, pure, Except.pure, hpos] at h

/-- A proposed patch makes such a change. -/
theorem exists_edits_of_proposePatch {d : Document} {found : Diagnostic} {p : Patch}
    (h : proposePatch d found = .ok (some p)) : ∃ line before place new after,
      d.line? found.line = some line ∧ Edits found.category line before place new after ∧
        p = linePatch found.line (before ++ (new ++ after)) := by
  unfold proposePatch at h
  split at h
  · cases h
  · cases hline : d.line? found.line with
    | none => simp [hline] at h
    | some line =>
      rw [hline] at h
      dsimp only at h
      split at h
      · next hloop =>
        rw [Bool.and_eq_true] at hloop
        obtain ⟨⟨before, after⟩, hbreak⟩ := Option.isSome_iff_exists.mp hloop.1
        obtain rfl := Option.some.inj (Except.ok.inj h)
        refine ⟨line, before, _, _, after, rfl, .comparison hloop.2 hbreak, ?_⟩
        simp only [replaceFirst, hbreak, List.append_assoc]
      · next hloop =>
        split at h
        · next hcategory =>
          cases hlower : lowerIndex line with
          | error e => simp [hlower, bind, Except.bind] at h
          | ok lowered =>
            cases lowered with
            | none => simp [hlower, bind, Except.bind, pure, Except.pure] at h
            | some text =>
              simp only [hlower, bind, Except.bind, pure, Except.pure, Option.map_some, Except.ok.injEq,
                Option.some.injEq] at h
              obtain ⟨m, index, hm, hread, hpos, rfl⟩ := exists_of_lowerIndex hlower
              exact ⟨line, _, _, _, _, rfl, .index hcategory (Bool.eq_false_iff.mpr hloop) hm hread hpos,
                h.symm⟩
        · cases h

namespace Edits

variable {category : Category} {line before place new after : List Char}

/-- A literal between brackets. -/
theorem digits_of_search? {m : Match} (h : literalIndex.search? line = some m) :
    line = m.before ++ ('[' :: (m.group 1 ++ [']']) ++ m.rest) ∧ m.group 1 ≠ [] ∧
      ∀ c ∈ m.group 1, isDecimal c = true := by
  obtain ⟨rest, hline, _, hopen, _, ⟨_, hdigits, rfl⟩, hclose⟩ := Pattern.matches_of_search? h
  obtain ⟨rest, rfl, rfl⟩ := Pattern.matches_char.mp hopen
  obtain ⟨run, rest, hne, rfl, hrun, rfl⟩ := Pattern.matches_plus_one.mp hdigits
  obtain ⟨rest, rfl, hafter⟩ := Pattern.matches_char.mp hclose
  have hgroup : m.group 1 = run := by
    rw [Match.group, Match.group?, hafter]
    exact congrArg (Option.getD · []) (Cursor.group?_behind_self run _)
  have hrest : m.rest = rest := by
    rw [Match.rest, hafter]
    rfl
  rw [hgroup, hrest]
  exact ⟨by rw [hline]; simp, hne, hrun⟩

theorem line_eq (h : Edits category line before place new after) :
    line = before ++ (place ++ after) := by
  cases h with
  | comparison _ h => exact eq_append_of_breakOn? h
  | index _ _ h _ _ => exact (digits_of_search? h).1

/-- The change of a line is made at one place. -/
theorem unique {before' place' new' after' : List Char} (h : Edits category line before place new after)
    (h' : Edits category line before' place' new' after') :
    before = before' ∧ new = new' ∧ after = after' := by
  have hboth : ∀ {before after}, breakOn? ['<', '='] line = some (before, after) →
      contains line ['<', '='] = true := fun h => by rw [contains, h]; rfl
  cases h with
  | comparison hloop h =>
    cases h' with
    | comparison _ h' =>
      obtain ⟨rfl, rfl⟩ := Prod.mk.inj (Option.some.inj (h.symm.trans h'))
      exact ⟨rfl, rfl, rfl⟩
    | index _ hnone _ _ _ => simp [hboth h, hloop] at hnone
  | index _ hnone h hread _ =>
    cases h' with
    | comparison hloop h' => simp [hboth h', hloop] at hnone
    | index _ _ h' hread' _ =>
      obtain rfl := Option.some.inj (h.symm.trans h')
      obtain rfl := Except.ok.inj (hread.symm.trans hread')
      exact ⟨rfl, rfl, rfl⟩

theorem isDecimal_of_intText {n : Int} (h : 0 ≤ n) : ∀ c ∈ intText n, isDecimal c = true := by
  intro c hc
  rw [intText, if_neg (Int.not_lt.mpr h)] at hc
  exact isDecimal_of_isDigit (isDigit_of_mem_natDigits hc)

/-- The change makes up no size of an array. -/
theorem newArray_occursIn (h : Edits category line before place new after)
    (hnew : newArray.occursIn (before ++ (new ++ after)) = true) : newArray.occursIn line = true := by
  rw [h.line_eq]
  cases h with
  | comparison _ _ => exact newArray_of_comparison hnew
  | @index m index _ _ h _ hpos =>
    obtain ⟨-, hne, hdigits⟩ := digits_of_search? h
    have hnew' := isDecimal_of_intText (n := index - 1) (by omega)
    simpa using newArray_of_brackets hne hdigits hnew' (by simpa using hnew)

/-- The change makes up no line. -/
theorem notMem_newline (h : Edits category line before place new after) (hline : '\n' ∉ line) :
    '\n' ∉ before ++ (new ++ after) := by
  rw [h.line_eq] at hline
  simp only [List.mem_append, not_or] at hline ⊢
  refine ⟨hline.1, ?_, hline.2.2⟩
  cases h with
  | comparison _ _ => decide
  | @index m index _ _ h _ hpos =>
    simp only [List.mem_cons, List.mem_append, List.not_mem_nil, or_false, not_or]
    refine ⟨by decide, fun hmem => ?_, by decide⟩
    exact absurd (isDecimal_of_intText (n := index - 1) (by omega) _ hmem) (by decide)

end Edits

/-! ### Places that are put right -/

/-- The rule objects to one place of a text only, behind what stands in front of it on the line: the one
that the proposed change of the line is made at.  The index reached there is one past the end. -/
def EditsOnlyPlace (k : ArrayRule) (a : Allocation) (front text : List Char) : Prop :=
  ∀ index before place after, text = before ++ (place ++ after) → k.Reaches a index before place after →
    index = a.size ∧ ∃ new, Edits k.rule.category (front ++ text) (front ++ before) place new after

section Places

variable {k : ArrayRule} {a : Allocation} {front before place new after behind : List Char} {index : Nat}

/-- A number that is read off a text of digits. -/
theorem readNatural_natDigits {n index : Nat} (h : readNatural (natDigits n) = some index) : index = n := by
  have hdecimal : ∀ c ∈ natDigits n, isDecimal c = true := fun c hc =>
    isDecimal_of_isDigit (isDigit_of_mem_natDigits hc)
  rw [readNatural, readInt_of_decimal (natDigits_ne_nil n) hdecimal, ofDigits_natDigits] at h
  split at h
  · next m hm =>
    split at hm
    · cases hm
    · obtain rfl := Except.ok.inj hm
      exact (Option.some.inj h).symm
  · cases h

/-- White space around digits that is made of digits is none. -/
theorem eq_of_append_decimal {left digits right text : List Char} (hleft : ∀ c ∈ left, isSpace c = true)
    (hright : ∀ c ∈ right, isSpace c = true) (htext : ∀ c ∈ text, isDecimal c = true)
    (h : left ++ digits ++ right = text) : digits = text := by
  have hnil : ∀ {blanks : List Char}, (∀ c ∈ blanks, isSpace c = true) →
      (∀ c ∈ blanks, c ∈ text) → blanks = [] := by
    intro blanks hblanks hmem
    refine List.eq_nil_iff_forall_not_mem.mpr fun c hc => ?_
    have hspace := hblanks c hc
    rw [not_isSpace_of_isDecimal (htext c (hmem c hc))] at hspace
    cases hspace
  obtain rfl := hnil hleft fun c hc => h ▸ by simp [hc]
  obtain rfl := hnil hright fun c hc => h ▸ by simp [hc]
  simpa using h

/-- A literal index that is one past the end becomes the last index of the array. -/
theorem exists_digits_of_edits {category : Category} {line start : List Char}
    (hreaches : ArrayRule.literalIndex.Reaches a a.size before place after)
    (hedit : Edits category line start place new behind) : 0 < a.size ∧
      ∃ digits, place = '[' :: (digits ++ [']']) ∧ new = '[' :: (natDigits (a.size - 1) ++ [']']) := by
  generalize hsize : a.size = size at hreaches
  cases hreaches with
  | @access _ _ left run right _ index _ _ hleft hright _ _ hread _ =>
    generalize hplace : '[' :: (left ++ run ++ right ++ [']']) = place at hedit
    cases hedit with
    | comparison _ _ => simp at hplace
    | @index m value _ _ h hvalue hpos =>
      obtain ⟨-, -, hdigits⟩ := Edits.digits_of_search? h
      have hrun' := eq_of_append_decimal hleft hright hdigits
        (List.append_cancel_right (List.cons.inj hplace).2)
      rw [hrun', readNatural, hvalue] at hread
      obtain rfl := Option.some.inj hread
      refine ⟨by omega, m.group 1, rfl, ?_⟩
      rw [intText, if_neg (by omega)]
      congr 3
      omega

/-- On a line with one pair of brackets, a literal index that is one past the end is the only place. -/
theorem editsOnlyPlace_of_brackets {digits : List Char} (hbefore : '[' ∉ before)
    (hafter : '[' ∉ digits ++ ']' :: after) (hclose : ']' ∉ after)
    (hdigits : ∀ c ∈ digits, isDecimal c = true) (hread : readNatural digits = some a.size)
    (hedit : Edits .arrayIndexOutOfBounds (front ++ (before ++ '[' :: (digits ++ ']' :: after)))
      (front ++ before) ('[' :: (digits ++ [']'])) new after) :
    EditsOnlyPlace .literalIndex a front (before ++ '[' :: (digits ++ ']' :: after)) := by
  intro index before' place' after' htext hreaches
  have hopen : ']' ∉ digits := fun hmem => absurd (hdigits _ hmem) (by decide)
  cases hreaches with
  | @access start blanks left run right _ _ _ _ hleft hright _ _ hread' _ =>
    have hcut : before ++ '[' :: (digits ++ ']' :: after) =
        start ++ (a.name ++ blanks) ++ '[' :: (left ++ run ++ right ++ ']' :: after') := by
      simpa using htext
    obtain ⟨rfl, -, hinner⟩ := (List.append_cons_inj_of_notMem hbefore hafter).mp hcut
    obtain ⟨rfl, -, rfl⟩ := (List.append_cons_inj_of_notMem hopen hclose).mp hinner
    rw [eq_of_append_decimal hleft hright hdigits rfl, hread] at hread'
    exact ⟨(Option.some.inj hread').symm, new, hedit⟩

/-- A place that is put right is no place any more, and no other is made up. -/
theorem not_reaches_of_edits (ha : a.Named) (honly : EditsOnlyPlace k a front (before ++ (place ++ after)))
    (hreaches : k.Reaches a a.size before place after)
    (hedit : Edits k.rule.category (front ++ (before ++ (place ++ after))) (front ++ before) place new after)
    {before' place' after' : List Char} (h : before ++ (new ++ after) = before' ++ (place' ++ after')) :
    ¬ k.Reaches a index before' place' after' := by
  intro hreaches'
  -- what is found elsewhere was there before
  have helse : ∀ {before'' after''}, before ++ (place ++ after) = before'' ++ (place' ++ after'') →
      k.Reaches a index before'' place' after'' → before'' ≠ before → False := by
    intro before'' after'' heq hthere hne
    obtain ⟨-, new', hedit'⟩ := honly _ _ _ _ heq hthere
    exact hne (List.append_cancel_left (hedit'.unique hedit).1)
  cases k with
  | loopBound =>
    have hplace : place = ['<', '='] := by
      cases hreaches
      rfl
    subst hplace
    generalize hline : front ++ (before ++ (['<', '='] ++ after)) = line at hedit
    generalize hfront : front ++ before = start at hedit
    cases hedit with
    | comparison _ _ =>
      obtain ⟨before'', after'', heq, hthere, hne⟩ := ArrayRule.reaches_of_comparison ha hreaches h hreaches'
      exact helse heq hthere hne
  | literalIndex =>
    obtain ⟨hpos, digits, rfl, rfl⟩ := exists_digits_of_edits hreaches hedit
    have hdecimal : ∀ c ∈ natDigits (a.size - 1), isDecimal c = true := fun c hc =>
      isDecimal_of_isDigit (isDigit_of_mem_natDigits hc)
    rcases @ArrayRule.reaches_of_brackets _ _ _ _ _ _ _ ha digits _ hdecimal (by simpa using h) hreaches'
      with ⟨rfl, rfl⟩ | ⟨before'', after'', heq, hthere, hne⟩
    · -- the place itself: its index is the last one
      generalize hplace : '[' :: (natDigits (a.size - 1) ++ [']']) = place' at hreaches'
      cases hreaches' with
      | @access _ _ left run right _ index _ _ hone htwo _ _ hread hindex =>
        have hrun' := eq_of_append_decimal hone htwo hdecimal
          (List.append_cancel_right (List.cons.inj hplace).2).symm
        rw [hrun'] at hread
        have hlast := readNatural_natDigits hread
        omega
    · exact helse (by simpa using heq) hthere hne

end Places

/-! ### The whole -/

/-- The proposed change of a line puts right what a rule objects to on it for the allocation of a line. -/
def PutsRight (k : ArrayRule) (d : Document) (index line : Nat) : Prop :=
  ∃ a front text, allocation (contextAt d index).line = some (some a) ∧
    (line, text) ∈ afterAllocation (contextAt d index) a ∧ d.line? line = some (front ++ text) ∧
      EditsOnlyPlace k a front text

theorem mem_lines_of_line? {d : Document} {number : Int} {line : List Char}
    (h : d.line? number = some line) : line ∈ d.lines := by
  obtain ⟨above, below, hlines, -⟩ := exists_of_line? h
  rw [hlines]
  exact List.mem_append_right above List.mem_cons_self

theorem line_contextAt {d : Document} {index : Nat} {line : List Char} (h : d.lines[index]? = some line) :
    (contextAt d index).line = line := by
  simp [contextAt, Context.line, h]

/-- What is read of a line for the allocation of a line, in the changed document. -/
theorem changed_afterAllocation {d d' : Document} {index line : Nat} {a a' : Allocation}
    {front text text' new : List Char}
    (halloc : allocation (contextAt d index).line = some (some a))
    (htext : (line, text) ∈ afterAllocation (contextAt d index) a)
    (hline : d.line? line = some (front ++ text))
    (hmade : newArray.occursIn (front ++ new) = true → newArray.occursIn (front ++ text) = true)
    (hlines : d'.lines = d.lines.set (line - 1) (front ++ new))
    (halloc' : allocation (contextAt d' index).line = some (some a'))
    (htext' : (line, text') ∈ afterAllocation (contextAt d' index) a') :
    text' = new ∧ a'.name = a.name ∧ a'.size = a.size := by
  have hget : d.lines[line - 1]? = some (front ++ text) := by
    obtain ⟨above, below, habove, hnumber⟩ := exists_of_line? hline
    rw [habove, show line - 1 = above.length by omega, List.getElem?_append_right (Nat.le_refl _),
      Nat.sub_self, List.getElem?_cons_zero]
  obtain ⟨hlt, -⟩ := List.getElem?_eq_some_iff.mp hget
  have hchanged : d'.lines[line - 1]? = some (front ++ new) := by
    rw [hlines, List.getElem?_set_self hlt]
  rcases mem_afterAllocation_iff.mp htext with ⟨hnumber, rfl⟩ | ⟨hbehind, hthere⟩
  · -- the line of the allocation itself
    obtain rfl : line = index + 1 := hnumber
    rw [Nat.add_sub_cancel] at hget hchanged
    rw [line_contextAt hget] at halloc
    rw [line_contextAt hchanged, allocation_append halloc hmade] at halloc'
    obtain rfl := Option.some.inj (Option.some.inj halloc')
    rcases mem_afterAllocation_iff.mp htext' with ⟨-, rfl⟩ | ⟨hbehind, -⟩
    · exact ⟨rfl, rfl, rfl⟩
    · simp only [contextAt] at hbehind
      omega
  · -- a line behind the allocation, which is read as a whole
    simp only [contextAt] at hbehind hthere
    obtain rfl : front = [] := List.append_left_eq_self.mp (Option.some.inj (hget.symm.trans hthere))
    have hsame : (contextAt d' index).line = (contextAt d index).line := by
      simp only [contextAt, Context.line, hlines, List.getD_eq_getElem?_getD]
      rw [List.getElem?_set_ne (by omega)]
    rw [hsame, halloc] at halloc'
    obtain rfl := Option.some.inj (Option.some.inj halloc')
    rcases mem_afterAllocation_iff.mp htext' with ⟨hnumber, -⟩ | ⟨-, hthere'⟩
    · simp only [contextAt, Context.lineNumber] at hnumber
      omega
    · exact ⟨Option.some.inj (hthere'.symm.trans hchanged), rfl, rfl⟩

theorem reaches_of_same {k : ArrayRule} {a a' : Allocation} {index : Nat} {before place after : List Char}
    (hname : a'.name = a.name) (hsize : a'.size = a.size) (h : k.Reaches a' index before place after) :
    k.Reaches a index before place after := by
  obtain ⟨name, size, rest⟩ := a
  obtain ⟨name', size', rest'⟩ := a'
  subst hname hsize
  cases h with
  | comparison hopening hlimit => exact .comparison hopening hlimit
  | access hfront hblanks hleft hright hne hdigits hread hindex =>
    exact .access hfront hblanks hleft hright hne hdigits hread hindex

/-- **A proposed change removes what it was proposed for.**  A finding of an array rule at a line, for
the allocation of a line, is answered with a patch.  If the one place of the line that the rule objects
to is the one that is changed, and the index reached there is one past the end of the array, then the
changed document is not reported at that line for that allocation any more. -/
theorem evaluate_after_patch {source : String} {k : ArrayRule} {index : Nat} {found : Diagnostic}
    {p : Patch} (hfound : found ∈ k.rule.evaluate (contextAt (.ofText source) index))
    (hpatch : proposePatch (.ofText source) found = .ok (some p))
    (hright : PutsRight k (.ofText source) index found.line) :
    ∀ other ∈ k.rule.evaluate
      (contextAt ((Document.ofText source).apply { single := some p }).document index),
      other.line ≠ found.line := by
  have hnewline : ∀ line ∈ (Document.ofText source).lines, '\n' ∉ line := fun line hline =>
    notMem_of_mem_splitOn hline
  generalize Document.ofText source = d at hfound hpatch hright hnewline
  intro other hother hsame
  obtain ⟨a, front, text, halloc, hmem, hline, honly⟩ := hright
  -- the place of the finding is the one that is changed
  obtain ⟨hcategory, a₀, text₀, halloc₀, hmem₀, reached, before, place, after, htext₀, hreaches⟩ :=
    ArrayRule.exists_reaches hfound
  obtain rfl := Option.some.inj (Option.some.inj (halloc.symm.trans halloc₀))
  obtain rfl := eq_of_mem_afterAllocation hmem hmem₀
  subst htext₀
  obtain ⟨rfl, new, hedit⟩ := honly _ _ _ _ rfl hreaches
  obtain ⟨line, _, _, _, _, hline', hedit', rfl⟩ := exists_edits_of_proposePatch hpatch
  obtain rfl := Option.some.inj (hline.symm.trans hline')
  rw [hcategory] at hedit'
  obtain ⟨rfl, rfl, rfl⟩ := hedit.unique hedit'
  -- so the changed line has another text at that place
  have hlines := lines_apply_linePatch_set hline
    (hedit.notMem_newline (hnewline _ (mem_lines_of_line? hline)))
  obtain ⟨-, a', text', halloc', hmem', index', before', place', after', rfl, hreaches'⟩ :=
    ArrayRule.exists_reaches hother
  rw [hsame] at hmem'
  have hmade : newArray.occursIn (front ++ (before ++ (new ++ after))) = true →
      newArray.occursIn (front ++ (before ++ (place ++ after))) = true := fun h =>
    hedit.newArray_occursIn (by rwa [List.append_assoc])
  obtain ⟨htext', hname, hsize⟩ :=
    changed_afterAllocation halloc hmem hline hmade (by rw [hlines, List.append_assoc]) halloc' hmem'
  exact not_reaches_of_edits (named_of_allocation halloc) honly hreaches hedit htext'.symm
    (reaches_of_same hname hsize hreaches')

/-- An access to one past the end of an array, on the line behind its allocation. -/
theorem evaluate_after_patch_access :
    let source := "int[] a = new int[3];\na[3] = 1;"
    let found : Diagnostic :=
      ⟨2, "Array index out of bounds. Array size 3, accessed index 3.", .error, .arrayIndexOutOfBounds⟩
    let p : Patch := ⟨2, 2, "a[2] = 1;"⟩
    found ∈ ArrayRule.literalIndex.rule.evaluate (contextAt (.ofText source) 0) ∧
      proposePatch (.ofText source) found = .ok (some p) ∧
        ∀ other ∈ ArrayRule.literalIndex.rule.evaluate
          (contextAt ((Document.ofText source).apply { single := some p }).document 0),
          other.line ≠ found.line := by
  intro source found p
  have hfound : found ∈ ArrayRule.literalIndex.rule.evaluate (contextAt (.ofText source) 0) := by
    decide +kernel
  have hpatch : proposePatch (.ofText source) found = .ok (some p) := by decide +kernel
  refine ⟨hfound, hpatch, evaluate_after_patch hfound hpatch ?_⟩
  obtain ⟨m, hm, hbefore, hgroup, hrest⟩ : ∃ m, literalIndex.search? "a[3] = 1;".toList = some m ∧
      m.before = ['a'] ∧ m.group 1 = ['3'] ∧ m.rest = " = 1;".toList :=
    ⟨_, by rfl, by decide +kernel, by decide +kernel, by decide +kernel⟩
  have hread : readInt (m.group 1) = .ok 3 := by rw [hgroup]; rfl
  have hcategory : found.category = .arrayIndexOutOfBounds := rfl
  have hedit := Edits.index hcategory (by decide +kernel) hm hread (by decide)
  rw [hbefore, hgroup, hrest] at hedit
  have honly : EditsOnlyPlace .literalIndex ⟨['a'], 3, [';']⟩ []
      (['a'] ++ '[' :: (['3'] ++ ']' :: " = 1;".toList)) :=
    editsOnlyPlace_of_brackets (by decide) (by decide) (by decide) (by decide) (by rfl) hedit
  have hline : (contextAt (.ofText source) 0).line = "int[] a = new int[3];".toList := by decide +kernel
  have halloc : allocation (contextAt (.ofText source) 0).line = some (some ⟨['a'], 3, [';']⟩) := by
    rw [hline]
    rfl
  exact ⟨⟨['a'], 3, [';']⟩, [], _, halloc, by decide +kernel, by decide, honly⟩

/-- An access far past the end of an array is pulled back by one, and reported again. -/
theorem exists_found_after_patch :
    let source := "int[] a = new int[3];\na[7] = 1;"
    let found : Diagnostic :=
      ⟨2, "Array index out of bounds. Array size 3, accessed index 7.", .error, .arrayIndexOutOfBounds⟩
    let p : Patch := ⟨2, 2, "a[6] = 1;"⟩
    found ∈ ArrayRule.literalIndex.rule.evaluate (contextAt (.ofText source) 0) ∧
      proposePatch (.ofText source) found = .ok (some p) ∧
        ∃ other ∈ ArrayRule.literalIndex.rule.evaluate
          (contextAt ((Document.ofText source).apply { single := some p }).document 0),
          other.line = found.line := by
  intro source found p
  exact ⟨by decide +kernel, by decide +kernel, by decide +kernel⟩

end Coach.Tutor
