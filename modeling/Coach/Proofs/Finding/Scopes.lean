import Coach.Proofs.Finding.Places
import Mathlib.Data.List.Basic

/-!
# Rules read no more than their scope

A rule whose scope is a line looks at nothing but the line under scan, and one whose scope is a context
at nothing but that line and the lines after it.  Neither looks at the lines above, nor at the text of
the document as a whole.  So lines that are put above move the findings of such a rule further down, and
change nothing else about them.

## Main definitions

* `lowered`: hits that are further down by some lines
* `Context.SameLine`, `Context.SameRest`: two places whose lines, or whose remaining lines, are equal

## Main statements

* `hits_of_sameLine`, `hits_of_sameRest`: the rules of the two scopes
* `hits_within_scope`: what the scope of a rule says about the hits in a document below others
* `scan_below`: a scan of a document below others
-/

namespace Coach.Finding

open Coach.Source Coach.Text

/-! ### Places further down -/

/-- What stands at a line, some lines further down. -/
def down {α : Type} (n : Nat) (at_ : Nat × α) : Nat × α := (n + at_.1, at_.2)

/-- Hits some lines further down. -/
def lowered (n : Nat) (hits : Hits) : Hits := hits.map (List.map (down n))

/-- A finding some lines further down. -/
def Diagnostic.lowered (n : Nat) (found : Diagnostic) : Diagnostic := { found with line := n + found.line }

theorem lowered_zero (hits : Hits) : lowered 0 hits = hits := by
  have hdown : down (α := String) 0 = id := funext fun hit => by simp [down]
  rw [lowered, hdown, List.map_id_fun, Option.map_id]
  rfl

/-- The findings are as far down as the hits. -/
theorem Rule.evaluate_of_lowered {r : Rule} {n : Nat} {c c' : Context} (h : r.hits c = lowered n (r.hits c')) :
    r.evaluate c = (r.evaluate c').map (Diagnostic.lowered n) := by
  rw [Rule.evaluate, Rule.evaluate, h]
  cases r.hits c' with
  | none => rfl
  | some hits =>
    simp only [Finding.lowered, Option.map_some, Option.getD_some, List.map_map]
    rfl

/-- Two places with the same line, the first of them some lines further down. -/
structure Context.SameLine (n : Nat) (c c' : Context) : Prop where
  index : c.index = n + c'.index
  line : c.line = c'.line

/-- Two places with the same lines from there on, the first of them some lines further down. -/
structure Context.SameRest (n : Nat) (c c' : Context) : Prop where
  index : c.index = n + c'.index
  fromHere : c.fromHere = c'.fromHere

namespace Context

variable {n : Nat} {c c' : Context}

theorem SameLine.lineNumber (h : c.SameLine n c') : c.lineNumber = n + c'.lineNumber := by
  rw [Context.lineNumber, Context.lineNumber, h.index, Nat.add_assoc]

/-- A line at or after the one under scan. -/
theorem getD_fromHere (c : Context) (i : Nat) : c.lines.getD (c.index + i) [] = c.fromHere.getD i [] := by
  simp [fromHere, List.getD_eq_getElem?_getD]

theorem SameRest.sameLine (h : c.SameRest n c') : c.SameLine n c' where
  index := h.index
  line := by
    have hline : ∀ c : Context, c.line = c.fromHere.getD 0 [] := fun c => c.getD_fromHere 0
    rw [hline, hline, h.fromHere]

theorem SameRest.peek (h : c.SameRest n c') {offset : Int} (hoffset : 0 ≤ offset) :
    c.peek offset = c'.peek offset := by
  obtain ⟨i, rfl⟩ := Int.eq_ofNat_of_zero_le hoffset
  have hpeek : ∀ c : Context, c.peek i = c.fromHere.getD i [] := by
    intro c
    rw [Context.peek, if_pos (by omega), ← Int.natCast_add, Int.toNat_natCast, getD_fromHere]
  rw [hpeek, hpeek, h.fromHere]

theorem SameRest.following (h : c.SameRest n c') : c.following = c'.following.map (down n) := by
  have hrest : ∀ c : Context, c.lines.drop (c.index + 1) = c.fromHere.tail :=
    fun _ => List.tail_drop.symm
  have hnumbers : ∀ start length,
      List.range' (n + start) length = (List.range' start length).map (n + ·) := by
    intro start length
    rw [List.map_add_range', Nat.add_comm]
  simp only [Context.following, hrest, h.fromHere]
  rw [h.index, Nat.add_assoc, hnumbers, List.zip_map_left]
  rfl

/-- Lines above a document leave what follows a line of it. -/
theorem sameRest_append (above lines : List (List Char)) (i : Nat) (code code' : List Char) :
    SameRest above.length { lines := above ++ lines, index := above.length + i, code }
      { lines, index := i, code := code' } where
  index := rfl
  fromHere := by simp [fromHere, List.drop_append]

end Context

section Rules

variable {n : Nat} {c c' : Context}

/-! ### Rules that look at the line -/

theorem lowered_report (h : c.SameLine n c') (holds : Bool) (message : String) :
    c.report holds message = lowered n (c'.report holds message) := by
  cases holds with
  | false => rfl
  | true =>
    rw [Context.report, Context.report, h.lineNumber]
    rfl

/-- A rule that looks for a pattern in the line. -/
theorem lowered_search (h : c.SameLine n c') (p : Pattern) {answer answer' : Match → Hits}
    (hanswer : ∀ m, answer m = lowered n (answer' m)) :
    (match p.search? c.line with | none => some [] | some m => answer m) =
      lowered n (match p.search? c'.line with | none => some [] | some m => answer' m) := by
  rw [h.line]
  cases p.search? c'.line with
  | none => rfl
  | some m => exact hanswer m

theorem lowered_loopSemicolon (h : c.SameLine n c') : loopSemicolon c = lowered n (loopSemicolon c') := by
  refine lowered_search h emptyLoop fun m => ?_
  rw [h.line]
  exact lowered_report h ..

theorem lowered_firstProduct (number : Nat) (products : List (List Char)) :
    firstProduct (n + number) products = lowered n (firstProduct number products) := by
  induction products with
  | nil => rfl
  | cons product rest ih =>
    rw [firstProduct, firstProduct]
    split
    · rfl
    · rfl
    · exact ih

theorem lowered_integerOverflow (h : c.SameLine n c') :
    integerOverflow c = lowered n (integerOverflow c') := by
  rw [integerOverflow, integerOverflow, h.line, h.lineNumber]
  split
  · rfl
  · exact lowered_firstProduct ..

/-- The rules whose scope is a line. -/
theorem hits_of_sameLine {r : Rule} (hr : r ∈ catalog) (hscope : r.scope = .line) (h : c.SameLine n c') :
    r.hits c = lowered n (r.hits c') := by
  have hall : ∀ r ∈ catalog, r.scope ≠ .line ∨ r.hits c = lowered n (r.hits c') := by
    simp only [catalog, List.forall_mem_cons]
    -- one after another, in the order of the catalog
    refine ⟨.inl (by decide), .inr (lowered_search h byZero fun _ => lowered_report h ..), .inl (by decide),
      .inr ?_, .inr (lowered_loopSemicolon h), .inr ?_, .inr ?_, .inl (by decide), .inl (by decide),
      .inl (by decide), .inr (lowered_search h transposedSum fun _ => lowered_report h ..), .inr ?_,
      .inl (by decide), .inl (by decide), .inl (by decide), .inl (by decide), .inl (by decide), .inr ?_,
      .inr (lowered_search h arrayAlias fun _ => lowered_report h ..), .inl (by decide), .inl (by decide),
      .inr (lowered_search h mutableKey fun _ => lowered_report h ..), .inr ?_, .inr ?_,
      .inr (lowered_integerOverflow h), .inl (by decide), List.forall_mem_nil _⟩
    -- the others report under a condition on the line
    all_goals
      simp only [integerDivision, loopFromOne, evenOdd, sumFormula, armstrongSquare, recursiveMid,
        precisionLoss, h.line]
      exact lowered_report h ..
  exact (hall r hr).resolve_left (not_not_intro hscope)

/-! ### Rules that look at the lines after it -/

theorem lowered_infiniteLoop (h : c.SameRest n c') : infiniteLoop c = lowered n (infiniteLoop c') := by
  rw [infiniteLoop, h.sameLine.line, h.fromHere]
  exact lowered_report h.sameLine ..

theorem lowered_sortedFlag (h : c.SameRest n c') : sortedFlag c = lowered n (sortedFlag c') := by
  refine lowered_search h.sameLine flagSet fun m => ?_
  rw [h.peek Int.one_nonneg, h.peek (show (0 : Int) ≤ 2 by decide)]
  exact lowered_report h.sameLine ..

theorem lowered_swapWithoutTemp (h : c.SameRest n c') :
    swapWithoutTemp c = lowered n (swapWithoutTemp c') := by
  refine lowered_search h.sameLine plainAssignment fun m => ?_
  rw [h.peek Int.one_nonneg, h.sameLine.lineNumber, Nat.add_assoc]
  dsimp only
  split <;> rfl

theorem firstNullUse_map_down (name : List Char) (lines : List (Nat × List Char)) :
    firstNullUse name (lines.map (down n)) = (firstNullUse name lines).map (down n) := by
  induction lines with
  | nil => rfl
  | cons line rest ih =>
    rw [List.map_cons, down, firstNullUse, firstNullUse]
    split
    · rfl
    split
    · rfl
    split
    · rfl
    · exact ih

theorem lowered_nullDereference (h : c.SameRest n c') :
    nullDereference c = lowered n (nullDereference c') := by
  refine lowered_search h.sameLine nullInit fun m => ?_
  rw [h.following, firstNullUse_map_down]
  rfl

theorem afterAllocation_of_sameRest (h : c.SameRest n c') (a : Allocation) :
    afterAllocation c a = (afterAllocation c' a).map (down n) := by
  rw [afterAllocation, afterAllocation, h.following, h.sameLine.lineNumber]
  rfl

theorem lowered_arrayLoopBound (h : c.SameRest n c') :
    arrayLoopBound c = lowered n (arrayLoopBound c') := by
  rw [arrayLoopBound, arrayLoopBound, h.sameLine.line, lowered, Option.map_map]
  congr 1
  funext found
  cases found with
  | none => rfl
  | some a =>
    simp only [Function.comp_apply, afterAllocation_of_sameRest h, List.filterMap_map, List.map_filterMap]
    congr 1
    funext line
    obtain ⟨number, text⟩ := line
    by_cases hbound : (inclusiveBound a).occursIn text <;> simp [down, hbound]

/-- Lines that are gone through further down, with an answer at some of them. -/
theorem mapM_map_down {f : Nat × List Char → Option (Option Hit)}
    (hf : ∀ line, f (down n line) = (f line).map (Option.map (down n))) (lines : List (Nat × List Char)) :
    (lines.map (down n)).mapM f = (lines.mapM f).map (List.map (Option.map (down n))) := by
  induction lines with
  | nil => rfl
  | cons line rest ih =>
    rw [List.map_cons, List.mapM_cons, List.mapM_cons, ih, hf]
    cases f line with
    | none => rfl
    | some answer => cases rest.mapM f <;> rfl

theorem lowered_arrayLiteralIndex (h : c.SameRest n c') :
    arrayLiteralIndex c = lowered n (arrayLiteralIndex c') := by
  rw [arrayLiteralIndex, arrayLiteralIndex, h.sameLine.line]
  cases allocation c'.line with
  | none => rfl
  | some found =>
    cases found with
    | none => rfl
    | some a =>
      simp only [Option.bind_eq_bind, Option.bind_some, afterAllocation_of_sameRest h]
      rw [mapM_map_down]
      · generalize List.mapM (m := Option) _ (afterAllocation c' a) = answers
        cases answers with
        | none => rfl
        | some answers =>
          rw [Option.map_some, Option.bind_some, Option.bind_some, List.filterMap_map]
          exact congrArg some (List.map_filterMap ..).symm
      · rintro ⟨number, text⟩
        simp only [down]
        cases firstPast a.size (((literalAccess a.name).searchAll text).map fun m => m.group 1) with
        | none => rfl
        | some past => cases past <;> rfl

/-- The rules whose scope is no more than a context. -/
theorem hits_of_sameRest {r : Rule} (hr : r ∈ catalog) (hscope : r.scope ≠ .document)
    (h : c.SameRest n c') : r.hits c = lowered n (r.hits c') := by
  cases hline : r.scope with
  | line => exact hits_of_sameLine hr hline h.sameLine
  | document => exact absurd hline hscope
  | context =>
    have hall : ∀ r ∈ catalog, r.scope ≠ .context ∨ r.hits c = lowered n (r.hits c') := by
      simp only [catalog, List.forall_mem_cons]
      -- one after another, in the order of the catalog
      exact ⟨.inr (lowered_infiniteLoop h), .inl (by decide), .inl (by decide), .inl (by decide),
        .inl (by decide), .inl (by decide), .inl (by decide), .inl (by decide),
        .inr (lowered_swapWithoutTemp h), .inl (by decide), .inl (by decide), .inl (by decide),
        .inl (by decide), .inl (by decide), .inr (lowered_arrayLoopBound h),
        .inr (lowered_arrayLiteralIndex h), .inl (by decide), .inl (by decide), .inl (by decide),
        .inr (lowered_sortedFlag h), .inl (by decide), .inl (by decide), .inl (by decide),
        .inl (by decide), .inl (by decide), .inr (lowered_nullDereference h), List.forall_mem_nil _⟩
    exact (hall r hr).resolve_left (not_not_intro hline)

end Rules

/-! ### Documents below others -/

/-- **A rule reads no more than its scope.**  Below other lines, a rule whose scope is no more than a
context has the hits that it has without them, as many lines further down and with the same messages,
or has none to give in both; and its findings move with the hits.  A rule whose scope is a line does
not depend on any other line at all. -/
theorem hits_within_scope {r : Rule} (hr : r ∈ catalog) (hscope : r.scope ≠ .document) :
    (∀ (above lines : List (List Char)) (i : Nat) (code code' : List Char),
      let c : Context := { lines := above ++ lines, index := above.length + i, code }
      let c' : Context := { lines, index := i, code := code' }
      r.hits c = (r.hits c').map (List.map fun hit => (above.length + hit.1, hit.2)) ∧
        r.evaluate c = (r.evaluate c').map fun found => { found with line := above.length + found.line }) ∧
    (r.scope = .line → ∀ c c' : Context, c.index = c'.index → c.line = c'.line → r.hits c = r.hits c') := by
  constructor
  · intro above lines i code code'
    have hhits := hits_of_sameRest hr hscope (Context.sameRest_append above lines i code code')
    exact ⟨hhits, Rule.evaluate_of_lowered hhits⟩
  · intro hline c c' hindex hsame
    have hzero : c.SameLine 0 c' := ⟨by rw [hindex, Nat.zero_add], hsame⟩
    rw [hits_of_sameLine hr hline hzero, lowered_zero]

/-- An index past the end of an array, below three other lines of which one allocates an array too. -/
theorem hits_within_scope_array_access :
    let r := ArrayRule.literalIndex.rule
    let above := ["class A \x7b".toList, "int[] b = new int[1];".toList, "".toList]
    let lines := ["int[] a = \x7b1, 2\x7d;".toList, "".toList, "a[2] = 0;".toList]
    let message := "Array index out of bounds. Array size 2, accessed index 2."
    r ∈ catalog ∧ r.scope ≠ .document ∧
      r.hits { lines, index := 0, code := [] } = some [(3, message)] ∧
      r.hits { lines := above ++ lines, index := 3, code := [] } = some [(6, message)] := by
  intro r above lines message
  have hr : r ∈ catalog := ArrayRule.rule_mem_catalog .literalIndex
  have hscope : r.scope ≠ .document := nofun
  have hhits : r.hits { lines, index := 0, code := [] } = some [(3, message)] := by decide +kernel
  refine ⟨hr, hscope, hhits, ?_⟩
  have h := ((hits_within_scope hr hscope).1 above lines 0 [] []).1
  rw [hhits] at h
  exact h

/-- A scan of a document below other lines, with rules whose scope is no more than a context, finds
what it finds without them, as many lines further down, after what it finds at the other lines. -/
theorem scan_below {rules : List Rule} (hrules : ∀ r ∈ rules, r ∈ catalog ∧ r.scope ≠ .document)
    (above lines : List (List Char)) :
    let d : Document := { lines := above ++ lines }
    scan rules d =
      ((List.range above.length).flatMap fun i => rules.flatMap (·.evaluate (contextAt d i))) ++
        (scan rules { lines }).map (Diagnostic.lowered above.length) := by
  intro d
  rw [scan, Document.lineCount, List.length_append, List.range_add, List.flatMap_append, scan,
    List.map_flatMap, List.flatMap_map]
  refine congrArg _ (List.flatMap_congr fun i _ => ?_)
  rw [List.map_flatMap]
  refine List.flatMap_congr fun r hr => ?_
  obtain ⟨hcatalog, hscope⟩ := hrules r hr
  exact Rule.evaluate_of_lowered
    (hits_of_sameRest hcatalog hscope (Context.sameRest_append above lines i _ _))

end Coach.Finding
