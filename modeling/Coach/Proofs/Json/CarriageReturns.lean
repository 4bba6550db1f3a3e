import Coach.Proofs.Json.RoundTrip

/-!
# Line breaks in what is written

A text that is written as JSON has newlines for its only line breaks.  A program that makes newlines of
all line breaks when it reads a file gets back what was written.

## Main definitions

* `Style.NoReturn`: a layout without carriage returns

## Main statements

* `Plain.notMem_return`: what is written has no carriage return
-/

namespace Coach.Json

section Returns

variable {s : Style} {depth : Nat}

theorem return_notMem_natDigits (n : Nat) : '\r' ∉ natDigits n := fun h => by
  have := isDigit_of_mem_natDigits h
  cases this

theorem return_notMem_codeEscape {n : Nat} (h : n < 0x10000) : '\r' ∉ codeEscape n := by
  have hdigit : ∀ d < 16, Nat.digitChar d ≠ '\r' := by decide
  rw [codeEscape, hex4_eq h]
  simp only [List.mem_cons, List.not_mem_nil, or_false, not_or]
  exact ⟨by decide, by decide, Ne.symm (hdigit _ (by omega)), Ne.symm (hdigit _ (by omega)),
    Ne.symm (hdigit _ (by omega)), Ne.symm (hdigit _ (by omega))⟩

theorem return_notMem_escapeChar (ascii : Bool) (c : Char) : '\r' ∉ escapeChar ascii c := by
  have hvalid := not_surrogate c
  dsimp only [escapeChar]
  split
  · decide
  split
  · decide
  split
  · decide
  split
  · decide
  next hreturn =>
  split
  · decide
  split
  · decide
  split
  · decide
  split
  · next hcontrol => exact return_notMem_codeEscape (by omega)
  split
  · exact fun h => hreturn (List.mem_singleton.mp h).symm
  split
  · next hplane => exact return_notMem_codeEscape hplane
  · rw [List.mem_append, not_or]
    exact ⟨return_notMem_codeEscape (by omega), return_notMem_codeEscape (by omega)⟩

theorem return_notMem_quote (ascii : Bool) (text : String) : '\r' ∉ quote ascii text := by
  rw [quote_eq, inQuotes, List.mem_cons, List.mem_append, List.mem_flatMap, not_or, not_or]
  refine ⟨by decide, ?_, by decide⟩
  rintro ⟨c, -, hc⟩
  exact return_notMem_escapeChar ascii c hc

theorem return_notMem_breakLine (level : Nat) : '\r' ∉ s.breakLine level := by
  unfold Style.breakLine
  split
  · exact List.not_mem_nil
  · rw [List.mem_cons, not_or]
    exact ⟨by decide, fun h => absurd (List.eq_of_mem_replicate h) (by decide)⟩

/-- A layout that puts no carriage return between the tokens. -/
structure Style.NoReturn (s : Style) : Prop where
  afterComma : '\r' ∉ s.afterComma
  afterColon : '\r' ∉ s.afterColon

theorem return_notMem_writeItems (hs : s.NoReturn) {items : List Json} {level : Nat}
    (h : ∀ j ∈ items, '\r' ∉ writeAt s level j) : '\r' ∉ writeItems s level items := by
  induction items with
  | nil => exact List.not_mem_nil
  | cons item items ih =>
    simp only [writeItems, List.mem_append, List.mem_cons, not_or]
    exact ⟨⟨⟨⟨by decide, hs.afterComma⟩, return_notMem_breakLine level⟩, h item List.mem_cons_self⟩,
      ih fun j hj => h j (List.mem_cons_of_mem item hj)⟩

theorem return_notMem_memberText (hs : s.NoReturn) {m : String × Json} {level : Nat}
    (h : '\r' ∉ writeAt s level m.2) : '\r' ∉ memberText s level m := by
  simp only [memberText, List.mem_append, List.mem_cons, not_or]
  exact ⟨return_notMem_quote s.ascii m.1, by decide, hs.afterColon, h⟩

theorem return_notMem_writeMembers (hs : s.NoReturn) {members : List (String × Json)} {level : Nat}
    (h : ∀ m ∈ members, '\r' ∉ writeAt s level m.2) : '\r' ∉ writeMembers s level members := by
  induction members with
  | nil => exact List.not_mem_nil
  | cons m members ih =>
    rw [writeMembers_cons]
    simp only [List.mem_append, List.mem_cons, not_or]
    exact ⟨by decide, hs.afterComma, return_notMem_breakLine level,
      return_notMem_memberText hs (h m List.mem_cons_self),
      ih fun m' hm => h m' (List.mem_cons_of_mem m hm)⟩

/-- What is written has no carriage return. -/
theorem Plain.notMem_return (hs : s.NoReturn) {j : Json} (h : Plain depth j) (level : Nat) :
    '\r' ∉ writeAt s level j := by
  induction h generalizing level with
  | null => exact (by decide : '\r' ∉ ['n', 'u', 'l', 'l'])
  | bool _ b =>
    cases b with
    | false => exact (by decide : '\r' ∉ ['f', 'a', 'l', 's', 'e'])
    | true => exact (by decide : '\r' ∉ ['t', 'r', 'u', 'e'])
  | int _ n =>
    have htext : writeAt s level (.number (.int n)) = intText n := rfl
    rw [htext, intText]
    split
    · rw [List.mem_cons, not_or]
      exact ⟨by decide, return_notMem_natDigits _⟩
    · exact return_notMem_natDigits _
  | string _ text => exact return_notMem_quote s.ascii text
  | array _ items _ ih =>
    cases items with
    | nil => exact (by decide : '\r' ∉ ['[', ']'])
    | cons item items =>
      simp only [writeAt, List.mem_append, List.mem_cons, List.not_mem_nil, or_false, not_or]
      exact ⟨⟨⟨⟨⟨by decide, return_notMem_breakLine _⟩, ih item List.mem_cons_self _⟩,
        return_notMem_writeItems hs fun j hj => ih j (List.mem_cons_of_mem item hj) _⟩,
        return_notMem_breakLine _⟩, by decide⟩
  | object _ members _ _ ih =>
    cases members with
    | nil => exact (by decide : '\r' ∉ ['\x7b', '\x7d'])
    | cons m members =>
      have htext : writeAt s level (.object (m :: members)) =
          '\x7b' :: (s.breakLine (level + 1) ++ (memberText s (level + 1) m ++
            (writeMembers s (level + 1) members ++ (s.breakLine level ++ ['\x7d'])))) := by
        simp only [writeAt, memberText, List.append_assoc, List.cons_append]
      rw [htext]
      simp only [List.mem_append, List.mem_cons, List.not_mem_nil, or_false, not_or]
      exact ⟨by decide, return_notMem_breakLine _,
        return_notMem_memberText hs (ih m List.mem_cons_self _),
        return_notMem_writeMembers hs fun m' hm => ih m' (List.mem_cons_of_mem m hm) _,
        return_notMem_breakLine _, by decide⟩

end Returns

end Coach.Json
