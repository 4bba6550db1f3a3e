import Coach.Finding.Scan
import Coach.Proofs.Number.Digits
import Coach.Proofs.Text.Language
import Coach.Proofs.Text.Parts

/-!
# The places that the array rules object to

The two rules about arrays of a fixed size look for an allocation on the line under scan, and then for
places behind it where an index is reached that the array does not have: a loop up to and with the size
of the array, or a literal index that is not below it.

## Main definitions

* `contextAt`: a line of a document under scan
* `ArrayRule`: the two rules
* `ArrayRule.Reaches`: a place at which an index is reached that the array does not have

## Main statements

* `mem_scan_iff`: what a scan finds is found at some line by some rule
* `ArrayRule.exists_reaches`: what is found at a line is found at a place of it
* `ArrayRule.mem_scan`: a scan reports what an array rule finds
-/

namespace Coach.Finding

open Coach.Source Coach.Text

/-! ### Lines under scan -/

/-- A line of a document under scan. -/
def contextAt (d : Document) (index : Nat) : Context := { lines := d.lines, index, code := d.chars }

/-- What a scan finds is found at some line by some rule. -/
theorem mem_scan_iff {rules : List Rule} {d : Document} {found : Diagnostic} :
    found ∈ scan rules d ↔
      ∃ index < d.lineCount, ∃ r ∈ rules, found ∈ r.evaluate (contextAt d index) := by
  simp only [scan, List.mem_flatMap, List.mem_range]
  rfl

theorem mem_following_iff {c : Context} {number : Nat} {text : List Char} :
    (number, text) ∈ c.following ↔ c.index + 2 ≤ number ∧ c.lines[number - 1]? = some text := by
  rw [Context.following, List.mem_iff_getElem?]
  constructor
  · rintro ⟨i, hi⟩
    obtain ⟨hnumber, htext⟩ := List.getElem?_zip_eq_some.mp hi
    obtain ⟨hlt, hnumber⟩ := List.getElem?_eq_some_iff.mp hnumber
    rw [List.getElem_range', Nat.one_mul] at hnumber
    rw [List.getElem?_drop] at htext
    subst hnumber
    exact ⟨by omega, by rw [← htext]; congr 1; omega⟩
  · rintro ⟨hnumber, htext⟩
    obtain ⟨hlt, -⟩ := List.getElem?_eq_some_iff.mp htext
    refine ⟨number - (c.index + 2), List.getElem?_zip_eq_some.mpr ⟨?_, ?_⟩⟩
    · rw [List.getElem?_eq_some_iff]
      refine ⟨by simp; omega, ?_⟩
      rw [List.getElem_range', Nat.one_mul]
      omega
    · rw [List.getElem?_drop, ← htext]
      congr 1
      omega

/-- The rest of the line behind the allocation, and the lines after it. -/
theorem mem_afterAllocation_iff {c : Context} {a : Allocation} {number : Nat} {text : List Char} :
    (number, text) ∈ afterAllocation c a ↔ (number = c.lineNumber ∧ text = a.rest) ∨
      (c.index + 2 ≤ number ∧ c.lines[number - 1]? = some text) := by
  rw [afterAllocation, List.mem_cons, mem_following_iff, Prod.mk.injEq]

/-- Of each line one text is read. -/
theorem eq_of_mem_afterAllocation {c : Context} {a : Allocation} {number : Nat} {text text' : List Char}
    (h : (number, text) ∈ afterAllocation c a) (h' : (number, text') ∈ afterAllocation c a) :
    text = text' := by
  rw [mem_afterAllocation_iff, Context.lineNumber] at h h'
  rcases h with ⟨rfl, rfl⟩ | ⟨hbehind, hthere⟩
  · rcases h' with ⟨-, rfl⟩ | ⟨hbehind, -⟩
    · rfl
    · omega
  · rcases h' with ⟨rfl, -⟩ | ⟨-, hthere'⟩
    · omega
    · exact Option.some.inj (hthere.symm.trans hthere')

/-! ### Places -/

/-- The rules about arrays of a fixed size. -/
inductive ArrayRule where
  | loopBound
  | literalIndex

/-- The rule in the catalog. -/
def ArrayRule.rule : ArrayRule → Rule
  | .loopBound => ⟨"array-loop-bound", .context, .offByOne, .warning, arrayLoopBound⟩
  | .literalIndex =>
    ⟨"array-literal-index", .context, .arrayIndexOutOfBounds, .error, arrayLiteralIndex⟩

theorem ArrayRule.rule_mem_catalog (k : ArrayRule) : k.rule ∈ catalog := by
  cases k <;> simp [rule, catalog]

/-- What the header of a loop says before its comparison. -/
def loopOpening : List Pattern :=
  [.text "for", .space, .char '(', .star (.one (· != ';')), .char ';', .space, .word, .space]

/-- What the header of a loop up to the size of an array says behind its comparison. -/
def loopLimit (a : Allocation) : List Pattern :=
  [.space, .alt (.chars (natDigits a.size)) (.seq (named a.name) (.text ".length")), .space, .char ';']

/-- At a place of a text, an index is reached that the array does not have.  The place is given by what
stands before it, what stands there and what stands behind it. -/
inductive ArrayRule.Reaches (a : Allocation) :
    ArrayRule → Nat → List Char → List Char → List Char → Prop
  | comparison {front opening limit more : List Char} (hopening : (Pattern.all loopOpening).Takes opening)
      (hlimit : (Pattern.all (loopLimit a)).Takes limit) :
      Reaches a .loopBound a.size (front ++ opening) ['<', '='] (limit ++ more)
  | access {front blanks left digits right after : List Char} {index : Nat}
      (hfront : ∀ c, front.getLast? = some c → isWord c = false)
      (hblanks : ∀ c ∈ blanks, isSpace c = true) (hleft : ∀ c ∈ left, isSpace c = true)
      (hright : ∀ c ∈ right, isSpace c = true) (hne : digits ≠ [])
      (hdigits : ∀ c ∈ digits, isDecimal c = true) (hread : readNatural digits = some index)
      (hindex : a.size ≤ index) :
      Reaches a .literalIndex index (front ++ (a.name ++ blanks))
        ('[' :: (left ++ digits ++ right ++ [']'])) after

/-- A name of word characters. -/
def Allocation.Named (a : Allocation) : Prop := a.name ≠ [] ∧ ∀ c ∈ a.name, isWord c = true

section Soundness

variable {a : Allocation} {text : List Char}

theorem inclusiveBound_eq (a : Allocation) :
    inclusiveBound a = .all (loopOpening ++ .text "<=" :: loopLimit a) := rfl

theorem plain_inclusiveBound (a : Allocation) : (inclusiveBound a).Plain := by
  simp [inclusiveBound, Pattern.all, Pattern.Plain, Pattern.plain_text, Pattern.space, Pattern.char,
    Pattern.word, Pattern.plus, named, Pattern.plain_chars]

/-- A loop header that is found has its comparison somewhere. -/
theorem exists_reaches_of_inclusiveBound (h : (inclusiveBound a).occursIn text = true) :
    ∃ before after, text = before ++ (['<', '='] ++ after) ∧
      ArrayRule.loopBound.Reaches a a.size before ['<', '='] after := by
  obtain ⟨front, taken, more, rfl, htaken⟩ :=
    Pattern.exists_takes_of_occursIn (plain_inclusiveBound a) h
  rw [inclusiveBound_eq, Pattern.takes_all_append (List.cons_ne_nil _ _)] at htaken
  obtain ⟨opening, _, rfl, hopening, _, limit, rfl, hsign, hlimit⟩ := htaken
  obtain rfl := Pattern.takes_text.mp hsign
  exact ⟨front ++ opening, limit ++ more, by simp, .comparison hopening hlimit⟩

/-- What a literal access to an array looks like. -/
theorem exists_reaches_of_literalAccess (ha : a.Named) {digits : List Char} {index : Nat}
    (h : digits ∈ ((literalAccess a.name).searchAll text).map fun m => m.group 1)
    (hread : readNatural digits = some index) (hindex : a.size ≤ index) :
    ∃ before place after, text = before ++ (place ++ after) ∧
      ArrayRule.literalIndex.Reaches a index before place after := by
  obtain ⟨m, hm, rfl⟩ := List.mem_map.mp h
  obtain ⟨front, rest, rfl, hmatch⟩ := Pattern.matches_of_mem_searchAll hm
  obtain ⟨_, ⟨hboundary, rfl⟩, _, hname, _, hspace, _, hopen, _, hspace', _, ⟨_, hdigits, rfl⟩, _,
    hspace'', hclose⟩ := hmatch
  obtain ⟨rest, rfl, rfl⟩ := Pattern.matches_chars.mp hname
  obtain ⟨blanks, rest, rfl, hblanks, rfl⟩ := Pattern.matches_space.mp hspace
  obtain ⟨rest, rfl, rfl⟩ := Pattern.matches_char.mp hopen
  obtain ⟨left, rest, rfl, hleft, rfl⟩ := Pattern.matches_space.mp hspace'
  obtain ⟨run, rest, hne, rfl, hrun, rfl⟩ := Pattern.matches_plus_one.mp hdigits
  obtain ⟨right, rest, rfl, hright, rfl⟩ := Pattern.matches_space.mp hspace''
  obtain ⟨rest, rfl, hafter⟩ := Pattern.matches_char.mp hclose
  have hgroup : m.group 1 = run := by
    rw [Match.group, Match.group?, hafter]
    exact congrArg (Option.getD · []) (Cursor.group?_behind_self run _)
  rw [hgroup] at hread
  have hfront : ∀ c, front.getLast? = some c → isWord c = false := by
    intro c hc
    obtain ⟨x, name, hx⟩ := List.exists_cons_of_ne_nil ha.1
    have hword := ha.2 x (hx ▸ List.mem_cons_self)
    simp only [Cursor.behind, hx, List.cons_append, List.head?_cons, hc, Option.elim, hword] at hboundary
    simpa using hboundary
  refine ⟨front ++ (a.name ++ blanks), '[' :: (left ++ run ++ right ++ [']']), rest, by simp,
    .access hfront hblanks hleft hright hne hrun hread hindex⟩

/-- A size between brackets belongs to a name. -/
theorem isWord_of_newArray {line : List Char} {m : Match} (h : newArray.search? line = some m) :
    m.group 1 ≠ [] ∧ ∀ c ∈ m.group 1, isWord c = true := by
  obtain ⟨rest, -, hmatch⟩ := Pattern.matches_of_search? h
  obtain ⟨name, hname, htaken⟩ := Pattern.exists_group_of_matches [.boundary] Pattern.plain_word
    (by simp [Pattern.all, Pattern.Unbound, Pattern.space, Pattern.char, Pattern.space1, Pattern.plus,
      Pattern.word, Pattern.digits, Pattern.unbound_text]) hmatch
  rw [Match.group, Match.group?, hname]
  exact Pattern.takes_plus_one.mp htaken

theorem isWord_of_arrayLiteral {line : List Char} {m : Match} (h : arrayLiteral.search? line = some m) :
    m.group 1 ≠ [] ∧ ∀ c ∈ m.group 1, isWord c = true := by
  obtain ⟨rest, -, hmatch⟩ := Pattern.matches_of_search? h
  obtain ⟨name, hname, htaken⟩ := Pattern.exists_group_of_matches
    [.boundary, .word, .space, .char '[', .space, .char ']', .space] Pattern.plain_word
    (by simp [Pattern.all, Pattern.Unbound, Pattern.space, Pattern.char, Pattern.noneOf]) hmatch
  rw [Match.group, Match.group?, hname]
  exact Pattern.takes_plus_one.mp htaken

theorem named_of_allocation {line : List Char} (h : allocation line = some (some a)) : a.Named := by
  unfold allocation at h
  split at h
  · next m hm =>
    obtain ⟨size, -, heq⟩ := Option.map_eq_some_iff.mp h
    obtain rfl := Option.some.inj heq
    exact isWord_of_newArray hm
  · split at h
    · next m hm =>
      obtain rfl := Option.some.inj (Option.some.inj h)
      exact isWord_of_arrayLiteral hm
    · cases h

/-- The first index past the size is one of the indices. -/
theorem exists_mem_of_firstPast {size index : Nat} {found : List (List Char)}
    (h : firstPast size found = some (some index)) :
    ∃ digits ∈ found, readNatural digits = some index ∧ size ≤ index := by
  induction found with
  | nil => cases h
  | cons digits found ih =>
    simp only [firstPast, Option.bind_eq_bind, Option.bind_eq_some_iff] at h
    obtain ⟨n, hn, h⟩ := h
    split at h
    · next hle =>
      obtain rfl := Option.some.inj (Option.some.inj h)
      exact ⟨digits, List.mem_cons_self, hn, hle⟩
    · obtain ⟨digits', hmem, hread⟩ := ih h
      exact ⟨digits', List.mem_cons_of_mem _ hmem, hread⟩

theorem exists_mem_of_mapM {α β : Type} {f : α → Option β} {items : List α} {results : List β} {y : β}
    (h : items.mapM f = some results) (hy : y ∈ results) : ∃ x ∈ items, f x = some y := by
  induction items generalizing results with
  | nil =>
    obtain rfl := Option.some.inj h
    cases hy
  | cons x items ih =>
    simp only [List.mapM_cons, Option.bind_eq_bind, Option.bind_eq_some_iff] at h
    obtain ⟨y', hy', more, hmore, h⟩ := h
    obtain rfl := Option.some.inj h
    rcases List.mem_cons.mp hy with rfl | hy
    · exact ⟨x, List.mem_cons_self, hy'⟩
    · obtain ⟨x', hx', heq⟩ := ih hmore hy
      exact ⟨x', List.mem_cons_of_mem _ hx', heq⟩

/-- **What is found is found at a place.**  A finding of an array rule at a line stands for a place of
some line from there on, behind the allocation of an array, at which an index is reached that the array
does not have. -/
theorem ArrayRule.exists_reaches {k : ArrayRule} {c : Context} {found : Diagnostic}
    (h : found ∈ k.rule.evaluate c) : found.category = k.rule.category ∧
      ∃ a text, allocation c.line = some (some a) ∧ (found.line, text) ∈ afterAllocation c a ∧
        ∃ index before place after, text = before ++ (place ++ after) ∧
          k.Reaches a index before place after := by
  obtain ⟨⟨line, message⟩, hhit, rfl⟩ := List.mem_map.mp h
  refine ⟨rfl, ?_⟩
  cases k with
  | loopBound =>
    cases halloc : allocation c.line with
    | none => simp [rule, arrayLoopBound, halloc] at hhit
    | some found =>
      cases found with
      | none => simp [rule, arrayLoopBound, halloc] at hhit
      | some a =>
        simp only [rule, arrayLoopBound, halloc, Option.map_some, Option.getD_some] at hhit
        obtain ⟨⟨number, text⟩, hmem, hhit⟩ := List.mem_filterMap.mp hhit
        dsimp only at hhit
        split at hhit
        · next hoccurs =>
          obtain ⟨rfl, -⟩ := Prod.mk.inj (Option.some.inj hhit)
          obtain ⟨before, after, htext, hreaches⟩ := exists_reaches_of_inclusiveBound hoccurs
          exact ⟨a, text, rfl, hmem, a.size, before, _, after, htext, hreaches⟩
        · cases hhit
  | literalIndex =>
    cases hhits : arrayLiteralIndex c with
    | none => simp [rule, hhits] at hhit
    | some hits =>
      simp only [rule, hhits, Option.getD_some] at hhit
      simp only [arrayLiteralIndex, Option.bind_eq_bind, Option.bind_eq_some_iff] at hhits
      obtain ⟨_ | a, halloc, hhits⟩ := hhits
      · obtain rfl := Option.some.inj hhits
        cases hhit
      · obtain ⟨results, hresults, hhits⟩ := Option.bind_eq_some_iff.mp hhits
        obtain rfl := Option.some.inj hhits
        obtain ⟨_ | hit, hmem, heq⟩ := List.mem_filterMap.mp hhit
        · cases heq
        · obtain rfl := Option.some.inj heq
          obtain ⟨⟨number, text⟩, hpair, hfound⟩ := exists_mem_of_mapM hresults hmem
          obtain ⟨_ | index, hfirst, hfound⟩ := Option.bind_eq_some_iff.mp hfound
          · cases Option.some.inj hfound
          · obtain ⟨rfl, -⟩ := Prod.mk.inj (Option.some.inj (Option.some.inj hfound))
            obtain ⟨digits, hdigits, hread, hindex⟩ := exists_mem_of_firstPast hfirst
            obtain ⟨before, place, after, htext, hreaches⟩ :=
              exists_reaches_of_literalAccess (named_of_allocation halloc) hdigits hread hindex
            exact ⟨a, text, halloc, hpair, index, before, place, after, htext, hreaches⟩

/-- A scan reports what an array rule finds. -/
theorem ArrayRule.mem_scan {k : ArrayRule} {d : Document} {index : Nat} {found : Diagnostic}
    (h : found ∈ k.rule.evaluate (contextAt d index)) : found ∈ scan catalog d := by
  have hindex : index < d.lineCount := by
    refine Nat.lt_of_not_le fun hbeyond => ?_
    obtain ⟨-, a, text, halloc, -⟩ := ArrayRule.exists_reaches h
    have hline : (contextAt d index).line = [] := by
      change d.lines.getD index [] = []
      rw [List.getD_eq_getElem?_getD, List.getElem?_eq_none hbeyond, Option.getD_none]
    have hnone : allocation [] = some none := by rfl
    rw [hline, hnone] at halloc
    cases halloc
  exact mem_scan_iff.mpr ⟨index, hindex, k.rule, k.rule_mem_catalog, h⟩

end Soundness

end Coach.Finding
