import Coach.Proofs.Source.Braces

/-!
# Scanning loops

Masking, the search for a closing brace, and the splitting of a text at its commas or into statements are
loops that go over the text with an index.  At a quote they go on behind the literal, and the loop over
statements goes on behind a block, which the loop over braces finds for it.  Each round of each loop goes
on at a later index that is not past the end, whatever the text is.  So the loops end, and they come to
what the recursions over the rest of the text come to.

## Main definitions

* `literalStop`, `literalEnd`: the index behind a literal, as a loop over the text finds it
* `Loop`, `Round`, `Loop.Ends`: loops, and how they end
* `Loop.Advances`: every round goes on, and stays within the text
* `maskLoop`, `braceLoop`, `splitLoop`, `pieceLoop`: the four loops
* `matchingBrace`: the index behind the brace that closes another

## Main statements

* `lt_literalEnd`, `literalEnd_eq`: literals end within the text, where they are taken to end
* `Loop.Advances.exists_ends`: loops that go on end, and keep what each of their rounds keeps
* `scanners_end`: the four loops

## Design notes

A backslash takes the next character along without a look at it.  So the index may come to stand past the
end of the text, or behind a line break, before `literalEnd` brings it back to the end.

A loop is given by what a round does with the text, the index and what is known so far.  How it ends is
told by a relation, so that a loop that stands still would not end.
-/

namespace Coach.Source

open Coach.Text

/-! ### Literals -/

/-- Where a literal stops, from an index on: at its quote, at a line break, or behind the text. -/
def literalStop (quote : Char) (text : List Char) (i : Nat) : Nat :=
  match _h : text[i]? with
  | none => i
  | some c =>
    if c = quote ∨ c = '\n' then i
    else literalStop quote text (if c = '\\' then i + 2 else i + 1)
termination_by text.length - i
decreasing_by
  have hlt := (List.getElem?_eq_some_iff.mp _h).1
  split <;> omega

/-- The index behind a literal that stops at an index: behind its quote, or where the text ends. -/
def behindStop (quote : Char) (text : List Char) (stop : Nat) : Nat :=
  if text[stop]? = some quote then stop + 1 else min stop text.length

/-- The index behind the literal that opens at an index. -/
def literalEnd (text : List Char) (start : Nat) : Nat :=
  match text[start]? with
  | none => start
  | some quote => behindStop quote text (literalStop quote text (start + 1))

theorem le_literalStop (quote : Char) (text : List Char) (i : Nat) : i ≤ literalStop quote text i := by
  fun_induction literalStop quote text i with
  | case1 i hnone => exact Nat.le_refl i
  | case2 i c _ hstop => exact Nat.le_refl i
  | case3 i c _ hgo ih =>
    refine Nat.le_trans ?_ ih
    split <;> omega

/-- A literal ends behind the place where it opens, and within the text. -/
theorem lt_literalEnd {text : List Char} {start : Nat} (h : start < text.length) :
    start < literalEnd text start ∧ literalEnd text start ≤ text.length := by
  have hle := le_literalStop text[start] text (start + 1)
  rw [literalEnd, List.getElem?_eq_getElem h]
  dsimp only [behindStop]
  split
  · next hquote =>
    have hstop := (List.getElem?_eq_some_iff.mp hquote).1
    omega
  · omega

/-- One step of the search for the end of a literal. -/
theorem literalStop_append (quote : Char) (front : List Char) (c : Char) (rest : List Char) :
    literalStop quote (front ++ c :: rest) front.length =
      if c = quote ∨ c = '\n' then front.length
      else literalStop quote (front ++ c :: rest)
        (if c = '\\' then front.length + 2 else front.length + 1) := by
  have hc : (front ++ c :: rest)[front.length]? = some c := by simp
  rw [literalStop]
  split
  · next hnone =>
    rw [hc] at hnone
    cases hnone
  · next d hd =>
    rw [hc] at hd
    obtain rfl := Option.some.inj hd
    rfl

theorem literalStop_of_length_le (quote : Char) {text : List Char} {i : Nat} (h : text.length ≤ i) :
    literalStop quote text i = i := by
  have hnone : text[i]? = none := List.getElem?_eq_none h
  rw [literalStop]
  split
  · rfl
  · next hsome =>
    rw [hnone] at hsome
    cases hsome

/-- From behind the opening quote on, the index and the recursion pass the same characters. -/
theorem behindStop_literalStop {quote : Char} (hline : quote ≠ '\n') (front rest : List Char) :
    behindStop quote (front ++ rest) (literalStop quote (front ++ rest) front.length) =
      front.length + (takeLiteral quote rest).1.length := by
  have hclosed : ∀ (front rest : List Char),
      behindStop quote (front ++ quote :: rest) front.length = front.length + 1 :=
    fun front rest => if_pos (by simp)
  have hbroken : ∀ (front rest : List Char),
      behindStop quote (front ++ '\n' :: rest) front.length = front.length := fun front rest => by
    rw [behindStop, if_neg (by simpa using hline.symm), Nat.min_eq_left (by simp)]
  have hpast : ∀ {text : List Char} {stop : Nat}, text.length ≤ stop →
      behindStop quote text (literalStop quote text stop) = text.length := fun {text stop} hle => by
    rw [literalStop_of_length_le quote hle, behindStop, List.getElem?_eq_none hle, if_neg nofun,
      Nat.min_eq_right hle]
  fun_induction takeLiteral quote rest generalizing front with
  | case1 =>
    rw [hpast (by simp)]
    simp
  | case2 => rw [literalStop_append, if_pos (.inr rfl), hbroken, List.length_nil, Nat.add_zero]
  | case3 c hc =>
    rw [literalStop_append]
    by_cases hquote : c = quote
    · subst hquote
      rw [if_pos (.inl rfl), hclosed, List.length_singleton]
    · rw [if_neg (not_or.mpr ⟨hquote, hc⟩), hpast (by simp; split <;> omega)]
      simp
  | case4 d rest => rw [literalStop_append, if_pos (.inl rfl), hclosed, List.length_singleton]
  | case5 d rest => rw [literalStop_append, if_pos (.inr rfl), hbroken, List.length_nil, Nat.add_zero]
  | case6 d rest body after htake hquote hnewline ih =>
    have hstep := ih (front ++ ['\\', d])
    rw [List.append_assoc, List.length_append, htake] at hstep
    rw [literalStop_append, if_neg (not_or.mpr ⟨hquote, hnewline⟩), if_pos rfl]
    refine hstep.trans ?_
    simp only [List.length_cons, List.length_nil]
    omega
  | case7 c d rest hquote hnewline hslash body after htake ih =>
    have hstep := ih (front ++ [c])
    rw [List.append_assoc, List.length_append, htake] at hstep
    rw [literalStop_append, if_neg (not_or.mpr ⟨hquote, hnewline⟩), if_neg hslash]
    refine hstep.trans ?_
    simp only [List.length_cons, List.length_nil]
    omega

section Literal

variable {text rest : List Char} {p : Nat} {c : Char}

theorem eq_take_append_of_drop (h : text.drop p = c :: rest) :
    text = (text.take p ++ [c]) ++ rest ∧ (text.take p ++ [c]).length = p + 1 ∧ text[p]? = some c := by
  have hlt : p < text.length := by
    by_contra hle
    rw [List.drop_eq_nil_of_le (by omega)] at h
    cases h
  refine ⟨?_, by simp; omega, ?_⟩
  · rw [List.append_assoc, List.singleton_append, ← h, List.take_append_drop]
  · rw [List.getElem?_eq_getElem hlt]
    rw [List.drop_eq_getElem_cons hlt] at h
    exact congrArg some (List.cons.inj h).1

/-- At a quote, the index behind the literal is where the literal is taken to end. -/
theorem literalEnd_eq (h : text.drop p = c :: rest) (hquote : isQuote c = true) :
    literalEnd text p = p + 1 + (takeLiteral c rest).1.length := by
  obtain ⟨htext, hlength, hc⟩ := eq_take_append_of_drop h
  have hline : c ≠ '\n' := by
    rintro rfl
    cases hquote
  have hstop := behindStop_literalStop hline (text.take p ++ [c]) rest
  rw [hlength, ← htext] at hstop
  rw [literalEnd, hc]
  exact hstop

/-- A part that stands at an index is cut out between it and the index behind. -/
theorem take_drop_of_drop {part after : List Char} (h : text.drop p = part ++ after) :
    (text.drop p).take (p + part.length - p) = part ∧ text.drop (p + part.length) = after := by
  rw [Nat.add_sub_cancel_left, h, List.take_left, ← List.drop_drop, h, List.drop_left]
  exact ⟨rfl, rfl⟩

theorem drop_succ_of_drop (h : text.drop p = c :: rest) : text.drop (p + 1) = rest := by
  have hpart : text.drop p = [c] ++ rest := h
  exact (take_drop_of_drop hpart).2

/-- The literal and what is behind it. -/
theorem take_drop_literalEnd (h : text.drop p = c :: rest) (hquote : isQuote c = true) :
    (text.drop p).take (literalEnd text p - p) = c :: (takeLiteral c rest).1 ∧
      text.drop (literalEnd text p) = (takeLiteral c rest).2 := by
  have hrest : text.drop p = c :: (takeLiteral c rest).1 ++ (takeLiteral c rest).2 := by
    rw [h, List.cons_append, takeLiteral_append]
  have hend : literalEnd text p = p + (c :: (takeLiteral c rest).1).length := by
    rw [literalEnd_eq h hquote, List.length_cons]
    omega
  rw [hend]
  exact take_drop_of_drop hrest

end Literal

/-! ### Loops -/

/-- What a round of a loop comes to: where it goes on and with what, or that the loop is left there. -/
structure Round (σ : Type) where
  place : Nat
  state : σ
  leaves : Bool := false

/-- A loop over a text, by what a round does at an index. -/
abbrev Loop (σ : Type) := List Char → Nat → σ → Round σ

namespace Loop

variable {σ ρ : Type} {loop : Loop σ} {text : List Char}

/-- A loop that is begun at an index, as long as that is within the text, and the index and the state
with which it ends. -/
inductive Ends (loop : Loop σ) (text : List Char) : Nat → σ → Nat → σ → Prop
  | done {p : Nat} (h : text.length ≤ p) (s : σ) : Ends loop text p s p s
  | leave {p : Nat} {s : σ} (h : p < text.length) (hleaves : (loop text p s).leaves = true) :
    Ends loop text p s (loop text p s).place (loop text p s).state
  | round {p q : Nat} {s s' : σ} (h : p < text.length) (hstays : (loop text p s).leaves = false)
    (hrest : Ends loop text (loop text p s).place (loop text p s).state q s') : Ends loop text p s q s'

/-- Every round goes on behind where it began, and within the text. -/
def Advances (loop : Loop σ) : Prop :=
  ∀ text p s, p < text.length → p < (loop text p s).place ∧ (loop text p s).place ≤ text.length

/-- A loop that advances ends, behind where it began and within the text.  What every round keeps, and is
the result where the loop is left or done, is the result of the loop. -/
theorem Advances.exists_ends (h : loop.Advances) (value result : Nat → σ → ρ)
    (hstay : ∀ p s, p < text.length → (loop text p s).leaves = false →
      value (loop text p s).place (loop text p s).state = value p s)
    (hleave : ∀ p s, p < text.length → (loop text p s).leaves = true →
      result (loop text p s).place (loop text p s).state = value p s)
    (hdone : ∀ s, result text.length s = value text.length s) {p : Nat} (hp : p ≤ text.length) (s : σ) :
    ∃ q s', loop.Ends text p s q s' ∧ result q s' = value p s ∧ p ≤ q ∧ q ≤ text.length ∧
      (p < text.length → p < q) := by
  obtain rfl | hlt := Nat.eq_or_lt_of_le hp
  · exact ⟨_, s, .done (Nat.le_refl _) s, hdone s, Nat.le_refl _, Nat.le_refl _, fun h => h⟩
  · obtain ⟨hbehind, hwithin⟩ := h text p s hlt
    cases hleaves : (loop text p s).leaves with
    | true =>
      exact ⟨_, _, .leave hlt hleaves, hleave p s hlt hleaves, Nat.le_of_lt hbehind, hwithin,
        fun _ => hbehind⟩
    | false =>
      obtain ⟨q, s', hends, hresult, hle, hq, -⟩ :=
        h.exists_ends value result hstay hleave hdone hwithin (loop text p s).state
      exact ⟨q, s', .round hlt hleaves hends, hresult.trans (hstay p s hlt hleaves),
        Nat.le_trans (Nat.le_of_lt hbehind) hle, hq, fun _ => Nat.lt_of_lt_of_le hbehind hle⟩
termination_by text.length - p

/-- A loop that is never left ends at the end of the text. -/
theorem Ends.eq_length (h : loop.Advances) (hstays : ∀ p s, (loop text p s).leaves = false) {p q : Nat}
    {s s' : σ} (hends : loop.Ends text p s q s') (hp : p ≤ text.length) : q = text.length := by
  induction hends with
  | done hle => exact Nat.le_antisymm hp hle
  | @leave p s _ hleaves =>
    rw [hstays p s] at hleaves
    cases hleaves
  | round hlt _ _ ih => exact ih (h text _ _ hlt).2

/-- A loop that is never left goes over the whole text. -/
theorem Advances.exists_ends_length (h : loop.Advances) (hstays : ∀ p s, (loop text p s).leaves = false)
    (value : Nat → σ → ρ)
    (hvalue : ∀ p s, p < text.length → value (loop text p s).place (loop text p s).state = value p s)
    (s : σ) : ∃ s', loop.Ends text 0 s text.length s' ∧ value text.length s' = value 0 s := by
  obtain ⟨q, s', hends, hresult, -⟩ := h.exists_ends value value (fun p s hlt _ => hvalue p s hlt)
    (fun p s hlt _ => hvalue p s hlt) (fun _ => rfl) (Nat.zero_le _) s
  obtain rfl := hends.eq_length h hstays (Nat.zero_le _)
  exact ⟨s', hends, hresult⟩

end Loop

/-! ### Masking -/

section Rounds

variable {text : List Char} {p : Nat}

/-- The loop of the masks, which pass each literal through a function. -/
def maskLoop (literal : Char → List Char → List Char) : Loop (List Char) := fun text p out =>
  match text.drop p with
  | [] => { place := p, state := out }
  | '/' :: '/' :: rest =>
    let comment := '/' :: '/' :: (takeLine rest).1
    { place := p + comment.length, state := out ++ blank comment }
  | '/' :: '*' :: rest =>
    let comment := '/' :: '*' :: (takeBlockComment rest).1
    { place := p + comment.length, state := out ++ blank comment }
  | c :: _ =>
    if isQuote c then
      { place := literalEnd text p
        state := out ++ literal c ((text.drop p).take (literalEnd text p - p)).tail }
    else { place := p + 1, state := out ++ [c] }

theorem maskLoop_advances (literal : Char → List Char → List Char) : (maskLoop literal).Advances := by
  intro text p out h
  have hliteral := lt_literalEnd h
  have hlength := List.length_drop (l := text) (i := p)
  simp only [maskLoop]
  split
  · next hnil => rw [hnil, List.length_nil] at hlength; omega
  · next rest hdrop =>
    have hrest := congrArg List.length (takeLine_append rest)
    rw [hdrop] at hlength
    simp only [List.length_cons, List.length_append] at hlength hrest ⊢
    omega
  · next rest hdrop =>
    have hrest := congrArg List.length (takeBlockComment_append rest)
    rw [hdrop] at hlength
    simp only [List.length_cons, List.length_append] at hlength hrest ⊢
    omega
  · split
    · exact hliteral
    · exact ⟨Nat.lt_succ_self p, h⟩

/-- What is masked already and what is still to be masked stay the mask. -/
theorem maskLoop_round (literal : Char → List Char → List Char) (text : List Char) (p : Nat)
    (out : List Char) :
    (maskLoop literal text p out).state ++ maskWith literal (text.drop (maskLoop literal text p out).place) =
      out ++ maskWith literal (text.drop p) := by
  simp only [maskLoop]
  split
  · rfl
  · next rest hdrop =>
    have hpart : text.drop p = '/' :: '/' :: (takeLine rest).1 ++ (takeLine rest).2 := by
      rw [hdrop, List.cons_append, List.cons_append, takeLine_append]
    rw [(take_drop_of_drop hpart).2, hdrop, maskWith_line, List.append_assoc]
  · next rest hdrop =>
    have hpart : text.drop p = '/' :: '*' :: (takeBlockComment rest).1 ++ (takeBlockComment rest).2 := by
      rw [hdrop, List.cons_append, List.cons_append, takeBlockComment_append]
    rw [(take_drop_of_drop hpart).2, hdrop, maskWith_block, List.append_assoc]
  · next c rest hline hblock hdrop =>
    split
    · next hquote =>
      obtain ⟨htake, hbehind⟩ := take_drop_literalEnd hdrop hquote
      rw [htake, hbehind, hdrop, maskWith_quote literal hquote, List.tail_cons, List.append_assoc]
    · next hquote =>
      have hopens : OpensNothing c rest := by
        refine ⟨Bool.eq_false_iff.mpr hquote, ?_⟩
        rintro rfl
        refine ⟨fun hhead => ?_, fun hhead => ?_⟩ <;> obtain ⟨tail, rfl⟩ := List.head?_eq_some_iff.mp hhead
        · exact hline tail rfl rfl
        · exact hblock tail rfl rfl
      rw [drop_succ_of_drop hdrop, hdrop, maskWith_of_opensNothing literal hopens, List.append_assoc,
        List.singleton_append]

/-- The loop comes to the mask. -/
theorem maskLoop_ends (literal : Char → List Char → List Char) (text : List Char) :
    (maskLoop literal).Ends text 0 [] text.length (maskWith literal text) := by
  have hstays : ∀ p out, (maskLoop literal text p out).leaves = false := fun p out => by
    simp only [maskLoop]
    split <;> first | rfl | (split <;> rfl)
  obtain ⟨out, hends, hout⟩ := (maskLoop_advances literal).exists_ends_length hstays
    (fun p out => out ++ maskWith literal (text.drop p))
    (fun p out _ => maskLoop_round literal text p out) []
  rw [List.drop_length, maskWith_nil, List.append_nil] at hout
  rw [hout] at hends
  exact hends

/-! ### Braces -/

/-- The loop that counts braces, and is left behind the one that brings the count back to zero. -/
def braceLoop : Loop Int := fun text p depth =>
  match text[p]? with
  | none => { place := p, state := depth }
  | some c =>
    if isQuote c then { place := literalEnd text p, state := depth }
    else if c = '\x7b' then { place := p + 1, state := depth + 1 }
    else if c = '\x7d' then { place := p + 1, state := depth - 1, leaves := depth - 1 == 0 }
    else { place := p + 1, state := depth }

theorem braceLoop_advances : braceLoop.Advances := by
  intro text p depth h
  have hliteral := lt_literalEnd h
  simp only [braceLoop, List.getElem?_eq_getElem h]
  split
  · exact hliteral
  · split
    · exact ⟨Nat.lt_succ_self p, h⟩
    · split <;> exact ⟨Nat.lt_succ_self p, h⟩

/-- The index at which the loop that counts braces ends, when `depth` of them are open already. -/
def matchingBrace (text : List Char) (depth : Int) (p : Nat) : Nat :=
  if _h : p < text.length then
    if (braceLoop text p depth).leaves then (braceLoop text p depth).place
    else matchingBrace text (braceLoop text p depth).state (braceLoop text p depth).place
  else text.length
termination_by text.length - p
decreasing_by
  have := (braceLoop_advances text p depth _h).1
  omega

/-- The loop ends behind where it began, and within the text. -/
theorem braceLoop_ends {text : List Char} {p : Nat} (hp : p ≤ text.length) (depth : Int) :
    (∃ depth', braceLoop.Ends text p depth (matchingBrace text depth p) depth') ∧
      matchingBrace text depth p ≤ text.length ∧ (p < text.length → p < matchingBrace text depth p) := by
  obtain ⟨q, depth', hends, rfl, -, hq, hlt⟩ := braceLoop_advances.exists_ends
    (fun p depth => matchingBrace text depth p) (fun q _ => q)
    (fun p depth h hstays => by
      conv_rhs => rw [matchingBrace, dif_pos h, if_neg (by simp [hstays])])
    (fun p depth h hleaves => by rw [matchingBrace, dif_pos h, if_pos hleaves])
    (fun depth => by rw [matchingBrace, dif_neg (Nat.lt_irrefl _)]) hp depth
  exact ⟨⟨depth', hends⟩, hq, hlt⟩

theorem getElem?_eq_of_drop {c : Char} {rest : List Char} (h : text.drop p = c :: rest) :
    text[p]? = some c := (eq_take_append_of_drop h).2.2

/-- Where braces are open, counting ends where the block is taken to end. -/
theorem matchingBrace_eq {depth : Nat} (hdepth : 0 < depth) {rest : List Char} (hrest : text.drop p = rest)
    (hp : p ≤ text.length) : matchingBrace text depth p = p + (takeBlock depth rest).1.length := by
  have hround : ∀ {p : Nat} {c : Char} {rest : List Char}, text.drop p = c :: rest → ∀ depth : Int,
      matchingBrace text depth p =
        if (braceLoop text p depth).leaves then (braceLoop text p depth).place
        else matchingBrace text (braceLoop text p depth).state (braceLoop text p depth).place :=
    fun h depth => by
      have hlt := (List.getElem?_eq_some_iff.mp (getElem?_eq_of_drop h)).1
      conv_lhs => rw [matchingBrace, dif_pos hlt]
  fun_induction takeBlock depth rest generalizing p with
  | case1 depth =>
    have hle : text.length ≤ p := List.drop_eq_nil_iff.mp hrest
    rw [matchingBrace, dif_neg (by omega)]
    simp only [List.length_nil]
    omega
  | case2 depth c rest hquote block after htake ih =>
    have hlt := (List.getElem?_eq_some_iff.mp (getElem?_eq_of_drop hrest)).1
    obtain ⟨-, hbehind⟩ := take_drop_literalEnd hrest hquote
    have hstep := ih hdepth hbehind (lt_literalEnd hlt).2
    rw [hround hrest]
    simp only [braceLoop, getElem?_eq_of_drop hrest, if_pos hquote, Bool.false_eq_true, if_false]
    rw [hstep, htake, literalEnd_eq hrest hquote]
    simp only [List.length_append, List.length_cons]
    omega
  | case3 depth c rest hquote hclose =>
    obtain ⟨rfl, hle⟩ := hclose
    obtain rfl : depth = 1 := by omega
    rw [hround hrest]
    simp [braceLoop, getElem?_eq_of_drop hrest, isQuote]
  | case4 depth c rest hquote hclose depth' block after htake =>
    rename_i ih
    obtain ⟨hpos, hopen⟩ := depthBehind_eq hdepth hclose
    have hlt := (List.getElem?_eq_some_iff.mp (getElem?_eq_of_drop hrest)).1
    have hstep : matchingBrace text (depthBehind depth c) (p + 1) = p + 1 + block.length :=
      (ih hpos (drop_succ_of_drop hrest) hlt).trans (by rw [htake])
    have hgo : braceLoop text p depth = { place := p + 1, state := (depthBehind depth c : Int) } := by
      simp only [braceLoop, getElem?_eq_of_drop hrest, if_neg hquote, hopen]
      by_cases hbrace : c = '\x7b'
      · subst hbrace
        rfl
      · rw [if_neg hbrace]
        by_cases hend : c = '\x7d'
        · subst hend
          have htwo : ((depth : Int) - 1 == 0) = false := beq_eq_false_iff_ne.mpr (by simp at hclose; omega)
          rw [if_pos rfl, htwo]
          rfl
        · rw [if_neg hend]
          simp [openBraces, hbrace, hend]
    rw [hround hrest, hgo, if_neg Bool.false_ne_true, hstep, List.length_cons]
    omega

/-- From an opening brace on, counting ends where the block does that the brace opens. -/
theorem matchingBrace_eq_blockEnd {rest : List Char} (h : text.drop p = '\x7b' :: rest) :
    matchingBrace text 0 p = blockEnd text p := by
  have hlt := (List.getElem?_eq_some_iff.mp (getElem?_eq_of_drop h)).1
  have hgo : braceLoop text p 0 = { place := p + 1, state := ((1 : Nat) : Int) } := by
    simp only [braceLoop, getElem?_eq_of_drop h]
    rfl
  have hblock : (takeBlock 0 ('\x7b' :: rest)).1 = '\x7b' :: (takeBlock 1 rest).1 := by
    rw [takeBlock, if_neg (by decide), if_neg (by decide)]
    rfl
  rw [matchingBrace, dif_pos hlt, hgo, if_neg Bool.false_ne_true,
    matchingBrace_eq Nat.one_pos (drop_succ_of_drop h) hlt, blockEnd, h, hblock, List.length_cons]
  omega

/-- The block and what is behind it. -/
theorem take_drop_matchingBrace {rest : List Char} (h : text.drop p = '\x7b' :: rest) :
    (text.drop p).take (matchingBrace text 0 p - p) = (takeBlock 0 ('\x7b' :: rest)).1 ∧
      text.drop (matchingBrace text 0 p) = (takeBlock 0 ('\x7b' :: rest)).2 := by
  rw [matchingBrace_eq_blockEnd h, ← h]
  exact take_drop_of_drop (takeBlock_append 0 (text.drop p)).symm

/-- A block ends behind the place where it is looked for, and within the text. -/
theorem lt_blockEnd (hp : p < text.length) : p < blockEnd text p ∧ blockEnd text p ≤ text.length := by
  have hdrop : text.drop p = text[p] :: text.drop (p + 1) := List.drop_eq_getElem_cons hp
  have hless := length_takeBlock_cons_lt 0 text[p] (text.drop (p + 1))
  rw [← hdrop] at hless
  have hlength := congrArg List.length (takeBlock_append 0 (text.drop p))
  rw [List.length_append, List.length_drop] at hlength
  rw [List.length_drop] at hless
  rw [blockEnd]
  omega

/-! ### Commas -/

/-- What the loop over commas knows. -/
structure Splitting where
  parts : List (List Char) := []
  buffer : List Char := []
  depth : Int := 0

/-- The loop over commas. -/
def splitLoop : Loop Splitting := fun text p s =>
  match text[p]? with
  | none => { place := p, state := s }
  | some c =>
    if isQuote c then
      { place := literalEnd text p
        state := { s with buffer := s.buffer ++ (text.drop p).take (literalEnd text p - p) } }
    else if c = '(' ∨ c = '[' ∨ c = '\x7b' then
      { place := p + 1, state := { s with buffer := s.buffer ++ [c], depth := s.depth + 1 } }
    else if c = ')' ∨ c = ']' ∨ c = '\x7d' then
      { place := p + 1, state := { s with buffer := s.buffer ++ [c], depth := s.depth - 1 } }
    else if c = ',' ∧ s.depth = 0 then
      { place := p + 1, state := { s with parts := s.parts ++ [strip s.buffer], buffer := [] } }
    else { place := p + 1, state := { s with buffer := s.buffer ++ [c] } }

theorem splitLoop_advances : splitLoop.Advances := by
  intro text p s h
  have hliteral := lt_literalEnd h
  simp only [splitLoop, List.getElem?_eq_getElem h]
  split
  · exact hliteral
  · split_ifs <;> exact ⟨Nat.lt_succ_self p, h⟩

/-- The parts that are found already and those that are still to be found stay the same. -/
theorem splitLoop_round (s : Splitting) (h : p < text.length) :
    let r := splitLoop text p s
    r.state.parts ++ splitTopLevelFrom r.state.buffer r.state.depth (text.drop r.place) =
      s.parts ++ splitTopLevelFrom s.buffer s.depth (text.drop p) := by
  have hdrop : text.drop p = text[p] :: text.drop (p + 1) := List.drop_eq_getElem_cons h
  simp only [splitLoop, List.getElem?_eq_getElem h]
  rw [hdrop, splitTopLevelFrom]
  split
  · next hquote =>
    obtain ⟨htake, hbehind⟩ := take_drop_literalEnd hdrop hquote
    rw [← hdrop, htake, hbehind]
  · split_ifs
    · rfl
    · rfl
    · exact List.append_cons .. |>.symm
    · rfl

/-- The loop comes to the parts. -/
theorem splitLoop_ends (text : List Char) :
    ∃ s, splitLoop.Ends text 0 {} text.length s ∧ s.parts ++ [strip s.buffer] = splitTopLevel text := by
  have hstays : ∀ p s, (splitLoop text p s).leaves = false := fun p s => by
    simp only [splitLoop]
    split
    · rfl
    · split_ifs <;> rfl
  obtain ⟨s, hends, hparts⟩ := splitLoop_advances.exists_ends_length hstays
    (fun p s => s.parts ++ splitTopLevelFrom s.buffer s.depth (text.drop p))
    (fun p s h => splitLoop_round s h) {}
  rw [List.drop_length, splitTopLevelFrom] at hparts
  exact ⟨s, hends, hparts⟩

/-! ### Statements -/

/-- What the loop over statements knows. -/
structure Reading where
  found : List Piece := []
  buffer : List Char := []
  parens : Int := 0

/-- The loop over statements, which goes on behind a block where counting braces ends. -/
def pieceLoop : Loop Reading := fun text p s =>
  match text[p]? with
  | none => { place := p, state := s }
  | some c =>
    if isQuote c then
      { place := literalEnd text p
        state := { s with buffer := s.buffer ++ (text.drop p).take (literalEnd text p - p) } }
    else if c = '(' then
      { place := p + 1, state := { s with buffer := s.buffer ++ [c], parens := s.parens + 1 } }
    else if c = ')' then
      { place := p + 1, state := { s with buffer := s.buffer ++ [c], parens := s.parens - 1 } }
    else if c = ';' ∧ s.parens ≤ 0 then
      let statement := strip s.buffer
      let found := if statement.isEmpty then [] else [.plain statement]
      { place := p + 1, state := { s with found := s.found ++ found, buffer := [] } }
    else if c = '\x7b' ∧ s.parens ≤ 0 then
      let head := strip s.buffer
      let block := (text.drop p).take (matchingBrace text 0 p - p)
      { place := matchingBrace text 0 p
        state := if opensValue head then { s with buffer := s.buffer ++ block }
          else { s with found := s.found ++ [.compound (head ++ block)], buffer := [] } }
    else if c = '\x7d' then { place := p + 1, state := s }
    else { place := p + 1, state := { s with buffer := s.buffer ++ [c] } }

theorem pieceLoop_advances : pieceLoop.Advances := by
  intro text p s h
  have hliteral := lt_literalEnd h
  obtain ⟨-, hle, hlt⟩ := braceLoop_ends (Nat.le_of_lt h) 0
  simp only [pieceLoop, List.getElem?_eq_getElem h]
  split
  · exact hliteral
  · split_ifs
    all_goals first | exact ⟨hlt h, hle⟩ | exact ⟨Nat.lt_succ_self p, h⟩

/-- The statements that are found already and those that are still to be found stay the same. -/
theorem pieceLoop_round (s : Reading) (h : p < text.length) :
    let r := pieceLoop text p s
    r.state.found ++ piecesFrom r.state.buffer r.state.parens (text.drop r.place) =
      s.found ++ piecesFrom s.buffer s.parens (text.drop p) := by
  have hdrop : text.drop p = text[p] :: text.drop (p + 1) := List.drop_eq_getElem_cons h
  simp only [pieceLoop, List.getElem?_eq_getElem h]
  rw [hdrop, piecesFrom]
  split
  · next hquote =>
    obtain ⟨htake, hbehind⟩ := take_drop_literalEnd hdrop hquote
    rw [← hdrop, htake, hbehind]
  split
  · rfl
  split
  · rfl
  split
  · by_cases hempty : (strip s.buffer).isEmpty = true
    · simp only [hempty, if_true, List.append_nil]
    · simp only [hempty, if_false, Bool.false_eq_true, List.append_assoc, List.singleton_append]
  split
  · next hopen =>
    rw [hopen.1] at hdrop ⊢
    obtain ⟨htake, hbehind⟩ := take_drop_matchingBrace hdrop
    rw [← hdrop, htake, hbehind, hdrop]
    by_cases hvalue : opensValue (strip s.buffer) = true
    · simp only [hvalue, if_true]
    · simp only [hvalue, if_false, Bool.false_eq_true, List.append_assoc, List.singleton_append]
  split <;> rfl

/-- The loop comes to the statements. -/
theorem pieceLoop_ends (text : List Char) :
    ∃ s, pieceLoop.Ends text 0 {} text.length s ∧ s.found ++ piecesFrom s.buffer s.parens [] = pieces text := by
  have hstays : ∀ p s, (pieceLoop text p s).leaves = false := fun p s => by
    simp only [pieceLoop]
    split
    · rfl
    · split_ifs <;> rfl
  obtain ⟨s, hends, hfound⟩ := pieceLoop_advances.exists_ends_length hstays
    (fun p s => s.found ++ piecesFrom s.buffer s.parens (text.drop p))
    (fun p s h => pieceLoop_round s h) {}
  rw [List.drop_length] at hfound
  exact ⟨s, hends, hfound⟩

end Rounds

/-! ### All of them -/

/-- On every text.  At a quote, a literal ends behind it and within the text, where it is taken to end.
Every round of the four loops goes on, and stays within the text.  So the loops end: those of the masks,
over commas and over statements at the end of the text, with the mask, the parts and the pieces; and the
one that counts braces at an index behind the one from which it is begun, whatever stands there, and
where the block ends if it is an opening brace. -/
theorem scanners_end (text : List Char) :
    (∀ i c, text[i]? = some c → isQuote c = true →
      i < literalEnd text i ∧ literalEnd text i ≤ text.length ∧
        literalEnd text i = i + 1 + (takeLiteral c (text.drop (i + 1))).1.length) ∧
    (∀ literal, (maskLoop literal).Advances ∧
      (maskLoop literal).Ends text 0 [] text.length (maskWith literal text)) ∧
    (braceLoop.Advances ∧ ∀ p < text.length,
      (∃ depth, braceLoop.Ends text p 0 (matchingBrace text 0 p) depth) ∧
        p + 1 ≤ matchingBrace text 0 p ∧ matchingBrace text 0 p ≤ text.length ∧
        p + 1 ≤ blockEnd text p ∧ blockEnd text p ≤ text.length ∧
        (text[p]? = some '\x7b' → matchingBrace text 0 p = blockEnd text p)) ∧
    (splitLoop.Advances ∧
      ∃ s, splitLoop.Ends text 0 {} text.length s ∧ s.parts ++ [strip s.buffer] = splitTopLevel text) ∧
    (pieceLoop.Advances ∧
      ∃ s, pieceLoop.Ends text 0 {} text.length s ∧
        s.found ++ piecesFrom s.buffer s.parens [] = pieces text) := by
  refine ⟨fun i c hc hquote => ?_, fun literal => ⟨maskLoop_advances literal, maskLoop_ends literal text⟩,
    ⟨braceLoop_advances, fun p hp => ?_⟩, ⟨splitLoop_advances, splitLoop_ends text⟩,
    ⟨pieceLoop_advances, pieceLoop_ends text⟩⟩
  · obtain ⟨hbehind, hwithin⟩ := lt_literalEnd (List.getElem?_eq_some_iff.mp hc).1
    exact ⟨hbehind, hwithin, literalEnd_eq (drop_of_getElem? hc) hquote⟩
  · obtain ⟨hends, hle, hlt⟩ := braceLoop_ends (Nat.le_of_lt hp) 0
    obtain ⟨hblock, hblock'⟩ := lt_blockEnd hp
    exact ⟨hends, hlt hp, hle, hblock, hblock', fun hopen => matchingBrace_eq_blockEnd (drop_of_getElem? hopen)⟩

/-- A brace and a literal that are not closed, with a backslash as the last character. -/
theorem scanners_end_backslash :
    let text := "\x7b'\\".toList
    1 < literalEnd text 1 ∧ literalEnd text 1 ≤ 3 ∧ 1 ≤ matchingBrace text 0 0 ∧
      matchingBrace text 0 0 ≤ 3 := by
  intro text
  obtain ⟨hliteral, -, ⟨-, hbrace⟩, -⟩ := scanners_end text
  obtain ⟨hbehind, hwithin, -⟩ := hliteral 1 '\'' rfl rfl
  obtain ⟨-, hlt, hle, -⟩ := hbrace 0 (by decide)
  exact ⟨hbehind, hwithin, hlt, hle⟩

end Coach.Source
