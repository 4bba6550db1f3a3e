import Coach.Proofs.Program.Lexing
import Coach.Proofs.Program.Literals
import Coach.Proofs.Program.Numbers
import Coach.Proofs.Program.Tree

/-!
# Trees as texts

An expression is written with its tokens between single spaces, and the text is cut into those tokens
again.

## Main definitions

* `Token.text`, `spelled`: the text of a token, and of tokens
* `Expression.text`: the text of an expression
* `Spellable`: a token that is found again in front of a space

## Main statements

* `spellable_number`, `spellable_string`, `spellable_char`, `IsName.spellable`, `spellable_operator`:
  the tokens that are found again
* `tokens_spelled`: a text is cut into the tokens that it was written from
* `Expression.tokens_text`: so is the text of an expression
* `Numeral.numberValue_text`: the token of an integer has its value

## Design notes

A space ends every token, so that what is proved of a token alone holds of it in a text.
-/

namespace Coach.Program

open Coach.Text Coach.Source

/-! ### The text of tokens -/

/-- The text of a token. -/
def Token.text : Token → List Char
  | .number text => text
  | .string body => '"' :: body ++ ['"']
  | .char body => '\'' :: body ++ ['\'']
  | .name s => s.toList
  | .op symbol => symbol.toList

/-- The text of tokens, with a space between two of them. -/
def spelled (ts : List Token) : List Char := joinWith [' '] (ts.map Token.text)

/-- The text of an expression. -/
def Expression.text (e : Expression) : List Char := spelled e.print

/-- A token that is found again in front of a space, and neither begins nor ends with white space. -/
structure Spellable (t : Token) : Prop where
  opens : ∃ c rest, t.text = c :: rest ∧ isSpace c = false
  closes : ∃ start c, t.text = start ++ [c] ∧ isSpace c = false
  taken : ∀ after, AtBreak after → takeToken? (t.text ++ after) = some (t, after)

theorem spellable_of_tangible {t : Token} (hne : t.text ≠ []) (htangible : ∀ c ∈ t.text, isSpace c = false)
    (htaken : ∀ after, AtBreak after → takeToken? (t.text ++ after) = some (t, after)) : Spellable t where
  opens := by
    obtain ⟨c, rest, htext⟩ := List.exists_cons_of_ne_nil hne
    exact ⟨c, rest, htext, htangible c (htext ▸ List.mem_cons_self)⟩
  closes :=
    ⟨_, _, (List.dropLast_concat_getLast hne).symm, htangible _ (List.getLast_mem hne)⟩
  taken := htaken

/-! ### Literals -/

/-- The body of a literal ends at its quote. -/
theorem IsBody.takeBody? {quote : Char} {body : List Char} (h : IsBody quote body)
    (hquote : quote ≠ '\\') (after : List Char) :
    Program.takeBody? quote (body ++ quote :: after) = some (body, after) := by
  induction h with
  | nil => cases after <;> simp [Program.takeBody?]
  | @plain c body hc hback hline _ ih =>
    obtain ⟨d, more, hmore⟩ := List.exists_cons_of_ne_nil
      (List.append_ne_nil_of_right_ne_nil body (List.cons_ne_nil quote after))
    rw [List.cons_append, hmore, Program.takeBody?, if_neg hc, if_neg hline, if_neg hback, ← hmore, ih]
    rfl
  | @escape c body hline _ ih =>
    rw [List.cons_append, List.cons_append, Program.takeBody?, if_neg hquote.symm, if_neg (by decide),
      if_pos rfl, if_neg hline, ih]
    rfl

theorem spellable_string {body : List Char} (h : IsBody '"' body) : Spellable (.string body) where
  opens := ⟨'"', body ++ ['"'], rfl, by decide⟩
  closes := ⟨'"' :: body, '"', rfl, by decide⟩
  taken after _ := by
    have hbody := h.takeBody? (by decide) after
    have hnumber : numberLength? ('"' :: (body ++ '"' :: after)) = none :=
      numberLength?_eq_none (by decide) (by decide) (by decide) _
    simp only [Token.text, List.cons_append, List.append_assoc, List.nil_append, takeToken?, hnumber,
      if_true, hbody, Option.map_some]

theorem spellable_char {body : List Char} (h : IsBody '\'' body) (hne : body ≠ []) :
    Spellable (.char body) where
  opens := ⟨'\'', body ++ ['\''], rfl, by decide⟩
  closes := ⟨'\'' :: body, '\'', rfl, by decide⟩
  taken after _ := by
    have hbody := h.takeBody? (by decide) after
    have hnumber : numberLength? ('\'' :: (body ++ '\'' :: after)) = none :=
      numberLength?_eq_none (by decide) (by decide) (by decide) _
    obtain ⟨b, more, rfl⟩ := List.exists_cons_of_ne_nil hne
    simp only [Token.text, List.cons_append, List.append_assoc, List.nil_append, takeToken?] at hbody hnumber ⊢
    simp only [hnumber, hbody]
    rfl

theorem CharLiteral.body_ne_nil (c : CharLiteral) : c.body ≠ [] := by
  intro hnil
  have hsingle := c.isSingle
  rw [hnil] at hsingle
  cases hsingle

/-! ### Numbers -/

theorem not_isSpace_of_isHexDigit {c : Char} (h : isHexDigit c = true) : isSpace c = false :=
  not_isSpace_of_class (by decide +kernel) h

/-- Numbers are written without white space and quotes. -/
theorem tangible_of_mem_number {number : List Char} (h : IsHexNumber number ∨ IsDecimalNumber number) :
    ∀ c ∈ number, isSpace c = false ∧ isQuote c = false :=
  of_mem_number h (fun _ hc => ⟨not_isSpace_of_isHexDigit hc, (isCode_of_isHexDigit hc).2⟩)
    (fun _ hc => ⟨not_isSpace_of_isDecimal hc, (isCode_of_isDecimal hc).2⟩) (by decide)

theorem spellable_number {number : List Char} (h : IsHexNumber number ∨ IsDecimalNumber number) :
    Spellable (.number number) := by
  have hlength : ∀ after, AtBreak after → numberLength? (number ++ after) = some number.length :=
    fun after hafter => h.elim (numberLength?_of_isHexNumber · hafter)
      (numberLength?_of_isDecimalNumber · hafter)
  have hne : number ≠ [] := by
    rintro rfl
    exact absurd (hlength [] .nil) (by decide)
  refine spellable_of_tangible hne (fun c hc => (tangible_of_mem_number h c hc).1) fun after hafter => ?_
  obtain ⟨c, rest, rfl⟩ := List.exists_cons_of_ne_nil hne
  have hlength := hlength after hafter
  simp only [Token.text, List.cons_append, List.length_cons] at hlength ⊢
  simp [takeToken?, hlength]

namespace Numeral

variable (n : Numeral)

theorem isDecimal_of_mem {c : Char} (h : c ∈ natDigits n.number) : isDecimal c = true :=
  isDecimal_of_isDigit (isDigit_of_mem_natDigits h)

theorem spellable : Spellable n.token := by
  refine spellable_number (.inr (.plain (fun c => n.isDecimal_of_mem) (natDigits_ne_nil n.number) ?_))
  cases n.isLong with
  | true => exact .inr ⟨'L', by decide, rfl⟩
  | false => exact .inl rfl

/-- The token of an integer has its value. -/
theorem numberValue_text : numberValue n.token.text = .ok (.int n.number) := by
  have hmark : longMark n.isLong ∈ longMarks := by cases n.isLong <;> simp [longMark, longMarks]
  rw [token, Token.text, numberValue_of_decimal (natDigits_ne_nil n.number)
    (fun c hc => n.isDecimal_of_mem hc) n.isShort hmark, ofDigits_natDigits]

end Numeral

/-! ### Names and marks -/

theorem not_isSpace_of_isNameStart {c : Char} (h : isNameStart c = true) : isSpace c = false :=
  not_isSpace_of_class (by decide +kernel) h

theorem not_isSpace_of_isNamePart {c : Char} (h : isNamePart c = true) : isSpace c = false :=
  not_isSpace_of_class (by decide +kernel) h

theorem not_isDecimal_of_isNameStart {c : Char} (h : isNameStart c = true) : isDecimal c = false := by
  simp only [isNameStart, Bool.or_eq_true, Bool.and_eq_true, decide_eq_true_eq, beq_iff_eq] at h
  rcases h with (⟨hlow, halpha⟩ | rfl) | rfl
  · have hdigit : c.isDigit = false := by
      have hletter : 65 ≤ c.toNat := by
        rcases Bool.or_eq_true_iff.mp halpha with hupper | hlower
        · exact UInt32.le_iff_toNat_le.mp (of_decide_eq_true hupper).1
        · have hfirst : 'a'.val ≤ c.val := of_decide_eq_true (Bool.and_eq_true_iff.mp hlower).1
          exact Nat.le_trans (by decide : 65 ≤ 'a'.val.toNat) (UInt32.le_iff_toNat_le.mp hfirst)
      rw [← Bool.not_eq_true, Char.isDigit_iff_toNat]
      exact fun hdigit => absurd (Nat.le_trans hletter hdigit.2) (by decide)
    simp only [isDecimal, digitValue?, hlow, hdigit, if_true, Bool.false_eq_true, if_false,
      Option.isSome_none]
  · decide
  · decide

theorem takeToken?_of_isNameStart {c : Char} (h : isNameStart c = true) (text : List Char) :
    takeToken? (c :: text) =
      some (.name (String.ofList (c :: text.takeWhile isNamePart)), text.dropWhile isNamePart) := by
  have hne : ∀ {x : Char}, isNameStart x = false → c ≠ x := by
    rintro x hx rfl
    rw [h] at hx
    cases hx
  have hnumber : numberLength? (c :: text) = none :=
    numberLength?_eq_none (not_isDecimal_of_isNameStart h) (hne (by decide)) (hne (by decide)) text
  rw [takeToken?, hnumber]
  simp only [if_neg (hne (x := '"') (by decide)), if_neg (hne (x := '\'') (by decide)), h, if_true]

theorem IsName.spellable {name : String} (h : IsName name) : Spellable (.name name) := by
  obtain ⟨c, rest, hname, hstart, hparts⟩ := h
  have hne : (Token.name name).text ≠ [] := by
    rw [Token.text, hname]
    exact List.cons_ne_nil c rest
  refine spellable_of_tangible hne ?_ fun after hafter => ?_
  · rw [Token.text, hname]
    exact List.forall_mem_cons.mpr ⟨not_isSpace_of_isNameStart hstart,
      fun d hd => not_isSpace_of_isNamePart (hparts d hd)⟩
  · obtain ⟨hpart, hend⟩ := takeWhile_run hparts (hafter.not_of_head (by decide))
    rw [Token.text, hname, List.cons_append, takeToken?_of_isNameStart hstart, hpart, hend, ← hname,
      String.ofList_toList]

/-- All operators. -/
def operators : List String := longOperators ++ shortOperators.toList.map String.singleton

theorem spellable_operator {symbol : String} (h : symbol ∈ operators) : Spellable (.op symbol) := by
  have hplain : ∀ symbol ∈ operators, symbol.toList ≠ [] ∧ ∀ c ∈ symbol.toList, isSpace c = false := by
    decide
  refine spellable_of_tangible (hplain symbol h).1 (hplain symbol h).2 ?_
  -- no operator is the beginning of a longer one with a space
  intro after hafter
  simp [operators, longOperators, shortOperators] at h
  rcases h with rfl | rfl | rfl | rfl | rfl | rfl | rfl | rfl | rfl | rfl | rfl | rfl | rfl | rfl | rfl |
    rfl | rfl | rfl | rfl | rfl | rfl | rfl | rfl | rfl | rfl | rfl | rfl | rfl | rfl | rfl <;>
      cases hafter <;> rfl

/-- The marks that expressions are written with. -/
def marks : List String :=
  ["(", ")", "?", ":", "!", "+", "-", "*", "/", "%", "<", ">", "<=", ">=", "==", "!=", "&&", "||"]

theorem spellable_mark {symbol : String} (h : symbol ∈ marks) : Spellable (.op symbol) :=
  spellable_operator ((by decide : marks ⊆ operators) h)

/-! ### Expressions -/

theorem Sign.symbol_mem_marks (s : Sign) : s.symbol ∈ marks := by cases s <;> decide

theorem Connective.symbol_mem_marks (c : Connective) : c.symbol ∈ marks := by
  cases c with
  | op o => cases o <;> decide
  | _ => decide

theorem isName_of_ofName? {name : String} {kind : Kind} (h : Kind.ofName? name = some kind) :
    IsName name := by
  unfold Kind.ofName? at h
  split at h
  case h_10 => cases h
  all_goals exact ⟨_, _, rfl, by decide⟩

theorem spellable_parenthesized {ts : List Token} (h : ∀ t ∈ ts, Spellable t) (bare : Bool) :
    ∀ t ∈ parenthesized bare ts, Spellable t := by
  cases bare with
  | true => exact h
  | false =>
    intro t ht
    simp only [parenthesized, List.mem_cons, List.mem_append, List.not_mem_nil, or_false,
      Bool.false_eq_true, if_false] at ht
    rcases ht with (rfl | ht) | rfl
    · exact spellable_mark (by decide)
    · exact h t ht
    · exact spellable_mark (by decide)

theorem spellable_append {ts ts' : List Token} (h : ∀ t ∈ ts, Spellable t) (h' : ∀ t ∈ ts', Spellable t) :
    ∀ t ∈ ts ++ ts', Spellable t := by
  intro t ht
  exact (List.mem_append.mp ht).elim (h t) (h' t)

theorem spellable_cons {t : Token} {ts : List Token} (h : Spellable t) (h' : ∀ t ∈ ts, Spellable t) :
    ∀ x ∈ t :: ts, Spellable x := List.forall_mem_cons.mpr ⟨h, h'⟩

/-- Every token of an expression is found again. -/
theorem Expression.spellable (e : Expression) : ∀ t ∈ e.print, Spellable t := by
  induction e with
  | integer n => exact List.forall_mem_singleton.mpr n.spellable
  | boolean b =>
    refine List.forall_mem_singleton.mpr (IsName.spellable ?_)
    cases b
    · exact ⟨_, _, rfl, by decide⟩
    · exact ⟨_, _, rfl, by decide⟩
  | string s => exact List.forall_mem_singleton.mpr (spellable_string s.isBody)
  | char c => exact List.forall_mem_singleton.mpr (spellable_char c.isBody c.body_ne_nil)
  | name x => exact List.forall_mem_singleton.mpr x.isName.spellable
  | group e ih => exact spellable_parenthesized ih false
  | sign s e ih =>
    exact spellable_cons (spellable_mark s.symbol_mem_marks) (spellable_parenthesized ih _)
  | cast type e ih =>
    exact spellable_cons (spellable_mark (by decide)) (spellable_cons (isName_of_ofName? type.isType).spellable
      (spellable_cons (spellable_mark (by decide)) (spellable_parenthesized ih _)))
  | join c left right ihl ihr =>
    exact spellable_append (spellable_parenthesized ihl _)
      (spellable_cons (spellable_mark c.symbol_mem_marks) (spellable_parenthesized ihr _))
  | choose condition first second ihc ihf ihs =>
    exact spellable_append (spellable_append (spellable_parenthesized ihc _)
      (spellable_cons (spellable_mark (by decide)) ihf)) (spellable_cons (spellable_mark (by decide)) ihs)

/-! ### Texts -/

theorem spelled_cons_cons (t next : Token) (ts : List Token) :
    spelled (t :: next :: ts) = t.text ++ ' ' :: spelled (next :: ts) := by
  simp [spelled, joinWith]

/-- A text of tokens does not end with white space. -/
theorem stripRight_spelled {ts : List Token} (h : ∀ t ∈ ts, Spellable t) :
    stripRight (spelled ts) = spelled ts := by
  have hcloses : ts = [] ∨ ∃ start c, spelled ts = start ++ [c] ∧ isSpace c = false := by
    induction ts with
    | nil => exact Or.inl rfl
    | cons t ts ih =>
      refine Or.inr ?_
      cases ts with
      | nil => exact (h t List.mem_cons_self).closes
      | cons next ts =>
        obtain hnil | ⟨start, c, hstart, hc⟩ := ih fun t ht => h t (List.mem_cons_of_mem _ ht)
        · cases hnil
        · exact ⟨t.text ++ ' ' :: start, c, by rw [spelled_cons_cons, hstart]; simp, hc⟩
  obtain rfl | ⟨start, c, hstart, hc⟩ := hcloses
  · rfl
  · rw [hstart, stripRight_concat start hc]

theorem tokensFrom_of_takeToken? {text after : List Char} {t : Token} (hne : text ≠ [])
    (h : takeToken? (stripLeft text) = some (t, after)) :
    tokensFrom text = (tokensFrom after).map (t :: ·) := by
  rw [tokensFrom, if_neg (by simpa using hne)]
  split
  · next hnone => rw [h] at hnone; cases hnone
  · next hsome =>
    rw [h] at hsome
    cases hsome
    rfl

/-- A token in front of a break is cut off, with a space before it or not. -/
theorem Spellable.tokensFrom {t : Token} {ts : List Token} {after : List Char} (h : Spellable t)
    (hafter : AtBreak after) (hts : Program.tokensFrom after = some ts) :
    Program.tokensFrom (t.text ++ after) = some (t :: ts) ∧
      Program.tokensFrom (' ' :: (t.text ++ after)) = some (t :: ts) := by
  obtain ⟨c, rest, htext, hc⟩ := h.opens
  have htaken := h.taken after hafter
  rw [htext, List.cons_append] at htaken ⊢
  have hstay : stripLeft (c :: (rest ++ after)) = c :: (rest ++ after) :=
    List.dropWhile_cons_of_neg (by simp [hc])
  have hskip : stripLeft (' ' :: c :: (rest ++ after)) = c :: (rest ++ after) :=
    (List.dropWhile_cons_of_pos (by decide)).trans hstay
  constructor
  · rw [Program.tokensFrom_of_takeToken? (List.cons_ne_nil _ _) (hstay ▸ htaken), hts, Option.map_some]
  · rw [Program.tokensFrom_of_takeToken? (List.cons_ne_nil _ _) (hskip ▸ htaken), hts, Option.map_some]

/-- The tokens of a text are found one after another. -/
theorem tokensFrom_spelled {ts : List Token} (h : ∀ t ∈ ts, Spellable t) :
    tokensFrom (spelled ts) = some ts ∧ (ts ≠ [] → tokensFrom (' ' :: spelled ts) = some ts) := by
  induction ts with
  | nil => exact ⟨by rw [tokensFrom]; rfl, fun hne => absurd rfl hne⟩
  | cons t ts ih =>
    have ht := h t List.mem_cons_self
    obtain ⟨hhere, hbehind⟩ := ih fun t ht => h t (List.mem_cons_of_mem _ ht)
    cases ts with
    | nil =>
      have hboth := ht.tokensFrom .nil hhere
      rw [List.append_nil] at hboth
      exact ⟨hboth.1, fun _ => hboth.2⟩
    | cons next ts =>
      have hboth := ht.tokensFrom (.space _) (hbehind (List.cons_ne_nil next ts))
      rw [spelled_cons_cons]
      exact ⟨hboth.1, fun _ => hboth.2⟩

/-- A text is cut into the tokens that it was written from. -/
theorem tokens_spelled {ts : List Token} (h : ∀ t ∈ ts, Spellable t) : tokens (spelled ts) = .ok ts := by
  rw [tokens, stripRight_spelled h, (tokensFrom_spelled h).1]

/-- The text of an expression is cut into its tokens. -/
theorem Expression.tokens_text (e : Expression) : tokens e.text = .ok e.print := tokens_spelled e.spellable

end Coach.Program
