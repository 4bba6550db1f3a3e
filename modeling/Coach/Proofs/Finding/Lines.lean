import Coach.Proofs.Finding.Places

/-!
# Findings are on lines of the document

Most rules report at the line under scan.  One reports at the line after it, and three go on from there
to a line further down.  None of them leaves the document: what is reported at another line was found in
the text of that line, and past the last line there is no text in which anything could be found.

## Main definitions

* `Context.Ahead`: hits on lines of the document, none of them above the line under scan

## Main statements

* `ahead_of_mem_catalog`: the hits of every rule of the catalog
* `line_of_mem_scan`: the findings of a scan
-/

namespace Coach.Finding

open Coach.Source Coach.Text

/-- Hits on lines of the document, none of them above the line under scan. -/
def Context.Ahead (c : Context) (hits : Hits) : Prop :=
  ∀ found, hits = some found → ∀ hit ∈ found, c.lineNumber ≤ hit.1 ∧ hit.1 ≤ c.lines.length

section Rules

variable {c : Context}

/-! ### The line under scan -/

theorem ahead_nil : c.Ahead (some []) := by
  intro found heq hit hhit
  obtain rfl := Option.some.inj heq
  cases hhit

theorem ahead_here (hc : c.index < c.lines.length) (message : String) :
    c.Ahead (some [(c.lineNumber, message)]) := by
  intro found heq hit hhit
  obtain rfl := Option.some.inj heq
  obtain rfl := List.mem_singleton.mp hhit
  exact ⟨Nat.le_refl _, hc⟩

theorem ahead_report (hc : c.index < c.lines.length) (holds : Bool) (message : String) :
    c.Ahead (c.report holds message) := by
  cases holds with
  | false => exact ahead_nil
  | true => exact ahead_here hc message

/-- A rule that looks for a pattern in the line and then reports at the line. -/
theorem ahead_search (p : Pattern) {answer : Match → Hits} (h : ∀ m, c.Ahead (answer m)) :
    c.Ahead (match p.search? c.line with | none => some [] | some m => answer m) := by
  cases p.search? c.line with
  | none => exact ahead_nil
  | some m => exact h m

theorem ahead_firstProduct (hc : c.index < c.lines.length) (products : List (List Char)) :
    c.Ahead (firstProduct c.lineNumber products) := by
  induction products with
  | nil => exact ahead_nil
  | cons product rest ih =>
    rw [firstProduct]
    split
    · exact nofun
    · next message _ => exact ahead_here hc message
    · exact ih

theorem ahead_integerOverflow (hc : c.index < c.lines.length) : c.Ahead (integerOverflow c) := by
  rw [integerOverflow]
  split
  · exact ahead_nil
  · exact ahead_firstProduct hc _

/-! ### The lines after it -/

theorem ahead_of_mem_following {number : Nat} {text : List Char} (h : (number, text) ∈ c.following) :
    c.lineNumber ≤ number ∧ number ≤ c.lines.length := by
  obtain ⟨hbelow, hline⟩ := mem_following_iff.mp h
  obtain ⟨hlt, -⟩ := List.getElem?_eq_some_iff.mp hline
  rw [Context.lineNumber]
  omega

theorem ahead_of_mem_afterAllocation (hc : c.index < c.lines.length) {a : Allocation} {number : Nat}
    {text : List Char} (h : (number, text) ∈ afterAllocation c a) :
    c.lineNumber ≤ number ∧ number ≤ c.lines.length := by
  rcases List.mem_cons.mp h with heq | h
  · obtain ⟨rfl, -⟩ := Prod.mk.inj heq
    exact ⟨Nat.le_refl _, hc⟩
  · exact ahead_of_mem_following h

/-- A pattern behind a word boundary occurs in no empty text, since nothing there is a word. -/
theorem occursIn_boundary_nil (p : Pattern) (ps : List Pattern) :
    (Pattern.all (.boundary :: p :: ps)).occursIn [] = false := rfl

/-- Where anything is found in the next line, there is a next line. -/
theorem next_lt_of_peek {p : Pattern} {ps : List Pattern}
    (h : (Pattern.all (.boundary :: p :: ps)).occursIn (c.peek 1) = true) :
    c.index + 1 < c.lines.length := by
  have hpeek : c.peek 1 = c.lines.getD (c.index + 1) [] := by
    have hpos : (0 : Int) ≤ c.index + 1 := by omega
    rw [Context.peek, if_pos hpos]
    congr 1
  refine Nat.lt_of_not_le fun hend => ?_
  rw [hpeek, List.getD_eq_getElem?_getD, List.getElem?_eq_none hend, Option.getD_none,
    occursIn_boundary_nil] at h
  cases h

theorem ahead_swapWithoutTemp : c.Ahead (swapWithoutTemp c) := by
  refine ahead_search _ fun m => ?_
  dsimp only
  split
  · next hnext =>
    have hlt := next_lt_of_peek hnext
    rintro _ heq hit hhit
    obtain rfl := Option.some.inj heq
    obtain rfl := List.mem_singleton.mp hhit
    rw [Context.lineNumber]
    omega
  · exact ahead_nil

theorem mem_of_mem_firstNullUse {name : List Char} {lines : List (Nat × List Char)} {hit : Hit}
    (h : hit ∈ firstNullUse name lines) : ∃ text, (hit.1, text) ∈ lines := by
  induction lines with
  | nil => cases h
  | cons line rest ih =>
    obtain ⟨number, text⟩ := line
    rw [firstNullUse] at h
    split at h
    · cases h
    split at h
    · obtain rfl := List.mem_singleton.mp h
      exact ⟨text, List.mem_cons_self⟩
    split at h
    · cases h
    obtain ⟨later, hlater⟩ := ih h
    exact ⟨later, List.mem_cons_of_mem _ hlater⟩

theorem ahead_nullDereference : c.Ahead (nullDereference c) := by
  refine ahead_search _ fun m => ?_
  rintro _ heq hit hhit
  obtain rfl := Option.some.inj heq
  obtain ⟨text, htext⟩ := mem_of_mem_firstNullUse hhit
  exact ahead_of_mem_following htext

/-- A rule about arrays reports at a line that it goes through. -/
theorem ahead_arrayRule (k : ArrayRule) (hc : c.index < c.lines.length) : c.Ahead (k.rule.hits c) := by
  intro found heq hit hhit
  have hfound : { line := hit.1, message := hit.2, severity := k.rule.severity, category := k.rule.category } ∈
      k.rule.evaluate c := by
    rw [Rule.evaluate, heq]
    exact List.mem_map.mpr ⟨hit, hhit, rfl⟩
  obtain ⟨-, a, text, -, hline, -⟩ := ArrayRule.exists_reaches hfound
  exact ahead_of_mem_afterAllocation hc hline

end Rules

/-! ### The catalog -/

/-- **No rule of the catalog leaves the document**, nor goes back above the line under scan. -/
theorem ahead_of_mem_catalog {r : Rule} (hr : r ∈ catalog) {c : Context}
    (hc : c.index < c.lines.length) : c.Ahead (r.hits c) := by
  have here : ∀ holds message, c.Ahead (c.report holds message) := ahead_report hc
  have hall : ∀ r ∈ catalog, c.Ahead (r.hits c) := by
    simp only [catalog, List.forall_mem_cons]
    -- one after another, in the order of the catalog
    refine ⟨here _ _, ahead_search byZero fun _ => here _ _, here _ _, here _ _,
      ahead_search emptyLoop fun _ => here _ _, here _ _, here _ _, here _ _, ahead_swapWithoutTemp,
      ahead_search lessLoop fun _ => here _ _, ahead_search transposedSum fun _ => here _ _, here _ _,
      here _ _, here _ _, ahead_arrayRule .loopBound hc, ahead_arrayRule .literalIndex hc, here _ _,
      here _ _, ahead_search arrayAlias fun _ => here _ _, ahead_search flagSet fun _ => here _ _,
      here _ _, ahead_search mutableKey fun _ => here _ _, here _ _, here _ _, ahead_integerOverflow hc,
      ahead_nullDereference, List.forall_mem_nil _⟩
  exact hall r hr

/-- The rules of some names are rules of the catalog. -/
theorem catalogRules_subset (names : List String) : catalogRules names ⊆ catalog := by
  intro r hr
  obtain ⟨name, -, hfind⟩ := List.mem_filterMap.mp hr
  exact List.mem_of_find?_eq_some hfind

/-- Every finding is on a line of the document, whatever rules of the catalog are used, in whatever
order and however often. -/
theorem line_of_mem_scan {rules : List Rule} (hrules : rules ⊆ catalog) {d : Document}
    {found : Diagnostic} (h : found ∈ scan rules d) : 1 ≤ found.line ∧ found.line ≤ d.lineCount := by
  obtain ⟨index, hindex, r, hr, hfound⟩ := mem_scan_iff.mp h
  obtain ⟨hit, hhit, rfl⟩ := List.mem_map.mp hfound
  cases hhits : r.hits (contextAt d index) with
  | none =>
    rw [hhits] at hhit
    cases hhit
  | some hits =>
    rw [hhits] at hhit
    obtain ⟨hfirst, hlast⟩ := ahead_of_mem_catalog (hrules hr) hindex hits hhits hit hhit
    exact ⟨Nat.le_trans (Nat.le_add_left 1 index) hfirst, hlast⟩

/-- Two steps of a sequence on the last two lines, of which the second is reported. -/
theorem line_of_mem_scan_last_line :
    let d := Document.ofText "String s = null;\nint a = b;\nb = a + b;"
    let rules := catalogRules ["swap-without-temp", "null-dereference", "swap-without-temp"]
    ∃ found ∈ scan rules d, found.line = 3 ∧ 1 ≤ found.line ∧ found.line ≤ d.lineCount := by
  intro d rules
  let found : Diagnostic :=
    { line := 3
      message := "Fibonacci Logic Error. You updated 'a' before calculating 'b', " ++
        "so 'b' is using the WRONG 'a'. Use a temporary variable."
      severity := .error
      category := .otherLogical }
  have hfound : found ∈ scan rules d := by decide +kernel
  exact ⟨found, hfound, rfl, line_of_mem_scan (catalogRules_subset _) hfound⟩

end Coach.Finding
