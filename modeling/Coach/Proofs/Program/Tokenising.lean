import Coach.Proofs.Program.Spelling

/-!
# Cutting a text into tokens

A text is cut into tokens round by round.  A round takes a token off the front of what is left, with the
white space before it, or finds none and gives up.  So a text that is cut up is its tokens with white
space around them, nothing else of it is lost, and its tokens between single spaces are cut up into the
same tokens.

## Main definitions

* `IsToken`: the tokens that are taken
* `Spaced`: tokens with white space around them
* `squeeze`: a text without the white space that stands outside literals
* `Rounds`: the rounds in which a text is cut

## Main statements

* `isToken_of_takeToken?`: what one round takes
* `exists_rounds`: the rounds end
* `tokens_spec`: whole texts

## Design notes

White space in a token stands in a literal, since numbers, names and operators are written without any.
-/

namespace Coach.Program

open Coach.Text Coach.Source

/-! ### The tokens that are taken -/

/-- The tokens that are taken. -/
inductive IsToken : Token → Prop
  | number {text : List Char} (h : IsHexNumber text ∨ IsDecimalNumber text) : IsToken (.number text)
  | string {body : List Char} (h : IsBody '"' body) : IsToken (.string body)
  | char {body : List Char} (h : IsBody '\'' body) (hne : body ≠ []) : IsToken (.char body)
  | name {s : String} (h : IsName s) : IsToken (.name s)
  | op {symbol : String} (h : symbol ∈ operators) : IsToken (.op symbol)

theorem IsToken.spellable {t : Token} (h : IsToken t) : Spellable t := by
  cases h with
  | number h => exact spellable_number h
  | string h => exact spellable_string h
  | char h hne => exact spellable_char h hne
  | name h => exact h.spellable
  | op h => exact spellable_operator h

/-- The body of a closed literal. -/
theorem isBody_of_takeBody? {quote : Char} {text body after : List Char}
    (h : takeBody? quote text = some (body, after)) : IsBody quote body := by
  fun_induction takeBody? quote text generalizing body after with
  | case1 => cases h
  | case2 =>
    obtain ⟨rfl, -⟩ := Prod.mk.inj (Option.some.inj h)
    exact .nil
  | case3 => cases h
  | case4 =>
    obtain ⟨rfl, -⟩ := Prod.mk.inj (Option.some.inj h)
    exact .nil
  | case5 => cases h
  | case6 => cases h
  | case7 d rest hline _ _ ih =>
    obtain ⟨⟨body, after⟩, hbody, heq⟩ := Option.map_eq_some_iff.mp h
    obtain ⟨rfl, -⟩ := Prod.mk.inj heq
    exact .escape hline (ih hbody)
  | case8 c d rest hquote hline hslash ih =>
    obtain ⟨⟨body, after⟩, hbody, heq⟩ := Option.map_eq_some_iff.mp h
    obtain ⟨rfl, -⟩ := Prod.mk.inj heq
    exact .plain hquote hslash hline (ih hbody)

theorem mem_operators_of_operator? {text : List Char} {symbol : String}
    (h : operator? text = some symbol) : symbol ∈ operators := by
  unfold operator? at h
  split at h
  · next found hfind =>
    obtain rfl := Option.some.inj h
    exact List.mem_append_left _ (List.mem_of_find?_eq_some hfind)
  · split at h
    · cases h
    · next c rest _ =>
      split at h
      · next hmem =>
        obtain rfl := Option.some.inj h
        exact List.mem_append_right _ (List.mem_map.mpr ⟨c, List.contains_iff_mem.mp hmem, rfl⟩)
      · cases h

/-- What is taken off the front of a text is a token, as it is written. -/
theorem isToken_of_takeToken? {text after : List Char} {t : Token} (h : takeToken? text = some (t, after)) :
    text = t.text ++ after ∧ IsToken t := by
  unfold takeToken? at h
  split at h
  · cases h
  · next c rest =>
    split at h
    · next n hnumber =>
      obtain ⟨rfl, rfl⟩ := Prod.mk.inj (Option.some.inj h)
      obtain ⟨hpos, -⟩ := numberLength?_spec hnumber
      obtain ⟨number, after, htext, rfl, hwritten⟩ := exists_of_numberLength? hnumber
      rw [htext, List.take_left, Nat.max_eq_left hpos, List.drop_left]
      exact ⟨rfl, .number hwritten⟩
    · split at h
      · next hquote =>
        obtain ⟨⟨body, after⟩, hbody, heq⟩ := Option.map_eq_some_iff.mp h
        obtain ⟨rfl, rfl⟩ := Prod.mk.inj heq
        obtain ⟨rfl, -⟩ := takeLiteral_of_takeBody? (by decide) hbody
        exact ⟨by simp [Token.text, hquote], .string (isBody_of_takeBody? hbody)⟩
      · split at h
        · next hquote =>
          split at h
          · next b body after hbody =>
            obtain ⟨rfl, rfl⟩ := Prod.mk.inj (Option.some.inj h)
            obtain ⟨rfl, -⟩ := takeLiteral_of_takeBody? (by decide) hbody
            exact ⟨by simp [Token.text, hquote], .char (isBody_of_takeBody? hbody) (List.cons_ne_nil b body)⟩
          · cases h
        · split at h
          · next hstart =>
            obtain ⟨rfl, rfl⟩ := Prod.mk.inj (Option.some.inj h)
            refine ⟨?_, .name ⟨c, rest.takeWhile isNamePart, String.toList_ofList, hstart,
              fun d hd => List.mem_takeWhile_imp hd⟩⟩
            rw [Token.text, String.toList_ofList, List.cons_append, List.takeWhile_append_dropWhile]
          · split at h
            · next symbol hsymbol =>
              obtain ⟨rfl, rfl⟩ := Prod.mk.inj (Option.some.inj h)
              exact ⟨eq_append_drop_of_operator? hsymbol, .op (mem_operators_of_operator? hsymbol)⟩
            · cases h

/-! ### White space -/

/-- Tokens with white space before each of them and behind the last. -/
inductive Spaced : List Token → List Char → Prop
  | done {blanks : List Char} (hblanks : ∀ c ∈ blanks, isSpace c = true) : Spaced [] blanks
  | token {blanks : List Char} {t : Token} {ts : List Token} {rest : List Char}
    (hblanks : ∀ c ∈ blanks, isSpace c = true) (h : Spaced ts rest) :
    Spaced (t :: ts) (blanks ++ (t.text ++ rest))

/-- The body of the literal that a character opens before a text, and what is behind it. -/
def literalBody? (c : Char) (rest : List Char) : Option (List Char × List Char) :=
  if isQuote c then takeBody? c rest else none

theorem length_of_literalBody? {c : Char} {rest body after : List Char}
    (h : literalBody? c rest = some (body, after)) : after.length ≤ rest.length := by
  unfold literalBody? at h
  split at h
  · exact length_of_takeBody? h
  · cases h

/-- A text without the white space that stands outside its closed literals. -/
def squeeze (text : List Char) : List Char :=
  match text with
  | [] => []
  | c :: rest =>
    if isSpace c then squeeze rest
    else match _h : literalBody? c rest with
      | some (body, after) => c :: (body ++ c :: squeeze after)
      | none => c :: squeeze rest
termination_by text.length
decreasing_by
  · exact Nat.lt_succ_self _
  · exact Nat.lt_succ_of_le (length_of_literalBody? _h)
  · exact Nat.lt_succ_self _

theorem squeeze_of_blank {blanks : List Char} (h : ∀ c ∈ blanks, isSpace c = true) (text : List Char) :
    squeeze (blanks ++ text) = squeeze text := by
  induction blanks with
  | nil => rfl
  | cons c blanks ih =>
    obtain ⟨hc, hblanks⟩ := List.forall_mem_cons.mp h
    rw [List.cons_append, squeeze, if_pos hc, ih hblanks]

theorem squeeze_of_tangible {front : List Char} (h : ∀ c ∈ front, isSpace c = false ∧ isQuote c = false)
    (text : List Char) : squeeze (front ++ text) = front ++ squeeze text := by
  induction front with
  | nil => rfl
  | cons c front ih =>
    obtain ⟨⟨hspace, hquote⟩, hfront⟩ := List.forall_mem_cons.mp h
    have hbody : literalBody? c (front ++ text) = none := if_neg (by simp [hquote])
    rw [List.cons_append, squeeze, if_neg (by simp [hspace])]
    split
    · next hsome =>
      rw [hbody] at hsome
      cases hsome
    · rw [ih hfront, List.cons_append]

theorem squeeze_literal {quote : Char} (hquote : isQuote quote = true) {body : List Char}
    (h : IsBody quote body) (text : List Char) :
    squeeze (quote :: (body ++ quote :: text)) = quote :: (body ++ quote :: squeeze text) := by
  have hslash : quote ≠ '\\' := by
    rintro rfl
    cases hquote
  have hspace : isSpace quote = false := not_isSpace_of_class (p := isQuote) (by decide +kernel) hquote
  have hbody : literalBody? quote (body ++ quote :: text) = some (body, text) :=
    (if_pos hquote).trans (h.takeBody? hslash text)
  rw [squeeze, if_neg (by simp [hspace])]
  split
  · next hsome =>
    rw [hbody] at hsome
    obtain ⟨rfl, rfl⟩ := Prod.mk.inj (Option.some.inj hsome)
    rfl
  · next hnone =>
    rw [hbody] at hnone
    cases hnone

/-- Nothing is removed from a token. -/
theorem IsToken.squeeze_append {t : Token} (h : IsToken t) (text : List Char) :
    squeeze (t.text ++ text) = t.text ++ squeeze text := by
  cases h with
  | number h => exact squeeze_of_tangible (tangible_of_mem_number h) text
  | string h => simpa [Token.text] using squeeze_literal (by decide) h text
  | char h hne => simpa [Token.text] using squeeze_literal (by decide) h text
  | name h =>
    obtain ⟨c, rest, hname, hstart, hparts⟩ := h
    refine squeeze_of_tangible ?_ text
    rw [Token.text, hname]
    exact List.forall_mem_cons.mpr
      ⟨⟨not_isSpace_of_isNameStart hstart, (isCode_of_isNameStart hstart).2⟩, fun d hd =>
        ⟨not_isSpace_of_isNamePart (hparts d hd), (isCode_of_isNamePart (hparts d hd)).2⟩⟩
  | op h =>
    exact squeeze_of_tangible ((by decide : ∀ symbol ∈ operators,
      ∀ c ∈ symbol.toList, isSpace c = false ∧ isQuote c = false) _ h) text

theorem Spaced.squeeze_eq {ts : List Token} {text : List Char} (h : Spaced ts text)
    (htokens : ∀ t ∈ ts, IsToken t) : squeeze text = ts.flatMap Token.text := by
  induction h with
  | @done blanks hblanks =>
    have heq := squeeze_of_blank hblanks []
    rw [List.append_nil] at heq
    rw [heq, squeeze]
    rfl
  | token hblanks _ ih =>
    obtain ⟨ht, hts⟩ := List.forall_mem_cons.mp htokens
    rw [squeeze_of_blank hblanks, ht.squeeze_append, ih hts, List.flatMap_cons]

/-! ### Rounds -/

/-- The rounds in which a text is cut: each takes a token, and less is left than before. -/
inductive Rounds : List Char → List Token → List Char → Prop
  | stop (text : List Char) : Rounds text [] text
  | round {text after rest : List Char} {t : Token} {ts : List Token} (hne : text ≠ [])
    (htake : takeToken? (stripLeft text) = some (t, after)) (hless : after.length < text.length)
    (h : Rounds after ts rest) : Rounds text (t :: ts) rest

/-- The rounds end: nothing is left, or nothing can be taken. -/
theorem exists_rounds (text : List Char) :
    ∃ ts rest, Rounds text ts rest ∧
      (rest = [] ∧ tokensFrom text = some ts ∨
        rest ≠ [] ∧ takeToken? (stripLeft rest) = none ∧ tokensFrom text = none) := by
  fun_induction tokensFrom text with
  | case1 text hempty =>
    obtain rfl := List.isEmpty_iff.mp hempty
    exact ⟨[], [], .stop [], .inl ⟨rfl, rfl⟩⟩
  | case2 text hsome hnone =>
    exact ⟨[], text, .stop text, .inr ⟨mt List.isEmpty_iff.mpr hsome, hnone, rfl⟩⟩
  | case3 text hsome t after htake ih =>
    have hless : after.length < text.length :=
      Nat.lt_of_lt_of_le (length_of_takeToken? htake) (length_stripLeft_le text)
    obtain ⟨ts, rest, hrounds, hend⟩ := ih
    refine ⟨t :: ts, rest, .round (mt List.isEmpty_iff.mpr hsome) htake hless hrounds, ?_⟩
    rcases hend with ⟨hrest, htokens⟩ | ⟨hrest, hnone, htokens⟩
    · exact .inl ⟨hrest, by rw [htokens]; rfl⟩
    · exact .inr ⟨hrest, hnone, by rw [htokens]; rfl⟩

theorem Rounds.length_le {text rest : List Char} {ts : List Token} (h : Rounds text ts rest) :
    ts.length + rest.length ≤ text.length := by
  induction h with
  | stop text => exact Nat.le_of_eq (Nat.zero_add _)
  | round _ _ hless _ ih =>
    rw [List.length_cons]
    omega

/-- Rounds that leave nothing find the tokens with white space around them. -/
theorem Rounds.spaced {text rest : List Char} {ts : List Token} (h : Rounds text ts rest)
    (hrest : rest = []) {blanks : List Char} (hblanks : ∀ c ∈ blanks, isSpace c = true) :
    Spaced ts (text ++ blanks) ∧ ∀ t ∈ ts, IsToken t := by
  induction h with
  | stop text =>
    rw [hrest]
    exact ⟨.done hblanks, nofun⟩
  | @round text after rest t ts _ htake _ _ ih =>
    obtain ⟨hspaced, htokens⟩ := ih hrest
    obtain ⟨hafter, ht⟩ := isToken_of_takeToken? htake
    obtain ⟨front, htext, hfront⟩ := exists_stripLeft text
    refine ⟨?_, List.forall_mem_cons.mpr ⟨ht, htokens⟩⟩
    rw [htext, hafter, List.append_assoc, List.append_assoc]
    exact .token hfront hspaced

/-! ### Whole texts -/

theorem tokens_of_tokensFrom {text : List Char} {ts : List Token}
    (h : tokensFrom (stripRight text) = some ts) : tokens text = .ok ts := by
  rw [tokens, h]

theorem tokens_of_tokensFrom_eq_none {text : List Char} (h : tokensFrom (stripRight text) = none) :
    tokens text = unsupported .badToken := by
  rw [tokens, h]

/-- A text that is cut up is its tokens with white space around them: without the white space outside
literals it is the texts of its tokens, and these, between single spaces, are cut up into the same
tokens.  Any text is cut in rounds, at most one for each character, after which nothing is left or no
token can be taken. -/
theorem tokens_spec (text : List Char) :
    (∀ ts, tokens text = .ok ts →
      Spaced ts text ∧ squeeze text = ts.flatMap Token.text ∧ tokens (spelled ts) = .ok ts) ∧
    ∃ ts rest, Rounds (stripRight text) ts rest ∧ ts.length ≤ text.length ∧
      (rest = [] ∧ tokens text = .ok ts ∨
        rest ≠ [] ∧ takeToken? (stripLeft rest) = none ∧ tokens text = unsupported .badToken) := by
  obtain ⟨ts, rest, hrounds, hend⟩ := exists_rounds (stripRight text)
  obtain ⟨blanks, htext, hblanks⟩ := exists_stripRight text
  constructor
  · intro ts' hts
    obtain ⟨hrest, hfound⟩ | ⟨-, -, hnone⟩ := hend
    · rw [tokens_of_tokensFrom hfound] at hts
      obtain rfl := Except.ok.inj hts
      obtain ⟨hspaced, htokens⟩ := hrounds.spaced hrest hblanks
      rw [← htext] at hspaced
      exact ⟨hspaced, hspaced.squeeze_eq htokens, tokens_spelled fun t ht => (htokens t ht).spellable⟩
    · rw [tokens_of_tokensFrom_eq_none hnone] at hts
      cases hts
  · have hlength : (stripRight text).length ≤ text.length := by
      rw [congrArg List.length htext, List.length_append]
      exact Nat.le_add_right _ _
    have hle := hrounds.length_le
    refine ⟨ts, rest, hrounds, by omega, ?_⟩
    rcases hend with ⟨hrest, hfound⟩ | ⟨hrest, hstop, hnone⟩
    · exact .inl ⟨hrest, tokens_of_tokensFrom hfound⟩
    · exact .inr ⟨hrest, hstop, tokens_of_tokensFrom_eq_none hnone⟩

/-- Numbers that end in marks and points beside operators, and blanks within a literal and around it. -/
theorem tokens_spec_numbers :
    let text := " 0x1FL+1.e-3f *(\"a  b\" !=x_1) ".toList
    let ts : List Token := [.number "0x1FL".toList, .op "+", .number "1.e-3f".toList, .op "*", .op "(",
      .string "a  b".toList, .op "!=", .name "x_1", .op ")"]
    squeeze text = "0x1FL+1.e-3f*(\"a  b\"!=x_1)".toList ∧ tokens (spelled ts) = .ok ts := by
  intro text ts
  obtain ⟨-, hsqueeze, hagain⟩ := (tokens_spec text).1 ts (by decide +kernel)
  exact ⟨hsqueeze.trans (by decide), hagain⟩

end Coach.Program
