import Coach.Proofs.Program.Operands
import Coach.Proofs.Source.Masking
import Coach.Proofs.Text.Parts
import Mathlib.Data.List.TakeWhile

/-!
# Masking an expression that has a value

The evaluator cuts an expression into tokens, and the mask looks for comments and literals in it.  Where
the expression has a value the two agree: its literals are closed, and no two of its tokens open a
comment.

## Main statements

* `settled_of_tokensFrom`: a text whose slashes are all followed by operands is settled
* `settled_of_evaluate`: an expression that has a value is settled
* `head_of_evaluate`: it does not begin with an equals sign
-/

namespace Coach.Program

open Coach.Text Coach.Source

/-! ### Numbers -/

theorem isCode_of_isDecimal {c : Char} (h : isDecimal c = true) : IsCode c :=
  isCode_of_class (by decide) (by decide) (by decide) h

theorem isCode_of_isHexDigit {c : Char} (h : isHexDigit c = true) : IsCode c :=
  isCode_of_class (by decide) (by decide) (by decide) h

/-- A text that begins with some code. -/
def BeginsWithCode (text : List Char) (n : Nat) : Prop :=
  ∃ start rest, text = start ++ rest ∧ start.length = n ∧ ∀ c ∈ start, IsCode c

/-- A text cut in two, of which the first part is code. -/
def CutsCode (text : List Char) (cut : List Char × List Char) : Prop :=
  cut.1 ++ cut.2 = text ∧ ∀ c ∈ cut.1, IsCode c

theorem CutsCode.of_code {start : List Char} (rest : List Char) (h : ∀ c ∈ start, IsCode c) :
    CutsCode (start ++ rest) (start, rest) := ⟨rfl, h⟩

theorem CutsCode.here {text : List Char} {cut : List Char × List Char} (h : CutsCode text cut) :
    BeginsWithCode text cut.1.length := ⟨cut.1, cut.2, h.1.symm, rfl, h.2⟩

theorem CutsCode.behind {text : List Char} {cut : List Char × List Char} {n : Nat}
    (h : CutsCode text cut) (hrest : BeginsWithCode cut.2 n) :
    BeginsWithCode text (cut.1.length + n) := by
  obtain ⟨start, rest, hcut, rfl, hstart⟩ := hrest
  refine ⟨cut.1 ++ start, rest, ?_, List.length_append, fun c hc => ?_⟩
  · rw [List.append_assoc, ← hcut, h.1]
  · exact (List.mem_append.mp hc).elim (h.2 c) (hstart c)

theorem cutsCode_takeOneOf (chars : String) (hchars : ∀ c ∈ chars.toList, IsCode c)
    (text : List Char) : CutsCode text (takeOneOf chars text) := by
  unfold takeOneOf
  split
  · exact ⟨rfl, List.forall_mem_nil _⟩
  · next c rest =>
    split
    · next hmem =>
      refine ⟨rfl, fun d hd => ?_⟩
      rw [List.mem_singleton.mp hd]
      exact hchars c (List.contains_iff_mem.mp hmem)
    · exact ⟨rfl, List.forall_mem_nil _⟩

theorem cutsCode_takeDigits (text : List Char) : CutsCode text (takeDigits text) :=
  ⟨List.takeWhile_append_dropWhile, fun _ hc => isCode_of_isDecimal (List.mem_takeWhile_imp hc)⟩

theorem cutsCode_takeExponent (text : List Char) : CutsCode text (takeExponent text) := by
  have hmark := cutsCode_takeOneOf "eE" (by decide) text
  unfold takeExponent
  generalize takeOneOf "eE" text = mark at hmark
  obtain ⟨mark, rest⟩ := mark
  have hsign := cutsCode_takeOneOf "+-" (by decide) rest
  dsimp only at hmark ⊢
  generalize takeOneOf "+-" rest = sign at hsign
  obtain ⟨sign, rest⟩ := sign
  have hdigits := cutsCode_takeDigits rest
  dsimp only at hsign ⊢
  generalize takeDigits rest = digits at hdigits
  obtain ⟨digits, rest⟩ := digits
  dsimp only at hdigits ⊢
  split
  · exact ⟨rfl, List.forall_mem_nil _⟩
  · refine ⟨?_, fun c hc => ?_⟩
    · rw [← hmark.1, ← hsign.1, ← hdigits.1]
      simp only [List.append_assoc]
    · rcases List.mem_append.mp hc with hc | hc
      · exact (List.mem_append.mp hc).elim (hmark.2 c) (hsign.2 c)
      · exact hdigits.2 c hc

theorem hexLength?_spec {text : List Char} {n : Nat} (h : hexLength? text = some n) :
    0 < n ∧ BeginsWithCode text n := by
  unfold hexLength? at h
  split at h
  · next x rest =>
    dsimp only at h
    split at h
    · next hx =>
      obtain rfl := Option.some.inj h
      have hmark : CutsCode ('0' :: x :: rest) (['0', x], rest) := by
        refine CutsCode.of_code rest ?_
        simp only [Bool.and_eq_true, Bool.or_eq_true, decide_eq_true_eq] at hx
        rcases hx.1 with rfl | rfl <;> decide
      have hdigits : CutsCode rest (rest.takeWhile isHexDigit, rest.dropWhile isHexDigit) :=
        ⟨List.takeWhile_append_dropWhile,
          fun c hc => isCode_of_isHexDigit (List.mem_takeWhile_imp hc)⟩
      have hsuffix := cutsCode_takeOneOf "lL" (by decide) (rest.dropWhile isHexDigit)
      refine ⟨by omega, ?_⟩
      rw [Nat.add_assoc]
      exact hmark.behind (hdigits.behind hsuffix.here)
    · cases h
  · cases h

theorem decimalLength?_spec {text : List Char} {n : Nat} (h : decimalLength? text = some n) :
    0 < n ∧ BeginsWithCode text n := by
  unfold decimalLength? at h
  have hwhole := cutsCode_takeDigits text
  generalize takeDigits text = whole at hwhole h
  obtain ⟨whole, rest⟩ := whole
  dsimp only at h
  split at h
  · next m tail hpoint =>
    split at hpoint
    · next behind =>
      have hplaces := cutsCode_takeDigits behind
      generalize takeDigits behind = places at hplaces hpoint
      obtain ⟨places, rest⟩ := places
      dsimp only at hpoint
      split at hpoint
      · cases hpoint
      · obtain ⟨rfl, rfl⟩ := Prod.mk.inj (Option.some.inj hpoint)
        have hdot : CutsCode ('.' :: behind) (['.'], behind) := CutsCode.of_code behind (by decide)
        have hpower := cutsCode_takeExponent rest
        have hsuffix := cutsCode_takeOneOf "fFdD" (by decide) (takeExponent rest).2
        have hall := hwhole.behind (hdot.behind (hplaces.behind (hpower.behind hsuffix.here)))
        obtain rfl := Option.some.inj h
        refine ⟨by omega, ?_⟩
        simp only [List.length_singleton] at hall
        simp only [Nat.add_assoc]
        exact hall
    · cases hpoint
  · split at h
    · cases h
    · next hsome =>
      have hpos : 0 < whole.length := List.length_pos_iff.mpr fun hnil => hsome (by rw [hnil]; rfl)
      split at h
      · obtain rfl := Option.some.inj h
        have hsuffix := cutsCode_takeOneOf "fFdDlL" (by decide) rest
        exact ⟨by omega, hwhole.behind hsuffix.here⟩
      · obtain rfl := Option.some.inj h
        have hpower := cutsCode_takeExponent rest
        have hsuffix := cutsCode_takeOneOf "fFdD" (by decide) (takeExponent rest).2
        refine ⟨by omega, ?_⟩
        rw [Nat.add_assoc]
        exact hwhole.behind (hpower.behind hsuffix.here)

theorem numberLength?_spec {text : List Char} {n : Nat} (h : numberLength? text = some n) :
    0 < n ∧ BeginsWithCode text n := by
  unfold numberLength? at h
  split at h
  · next hhex => exact hexLength?_spec (hhex.trans h)
  · exact decimalLength?_spec h

/-! ### Literals -/

theorem takeLiteral_quote {quote : Char} (h : quote ≠ '\n') (rest : List Char) :
    takeLiteral quote (quote :: rest) = ([quote], rest) := by
  cases rest with
  | nil => simp [takeLiteral, h]
  | cons d rest => simp [takeLiteral]

theorem takeLiteral_escape {quote : Char} (h : '\\' ≠ quote) (d : Char) (rest : List Char) :
    takeLiteral quote ('\\' :: d :: rest) =
      ('\\' :: d :: (takeLiteral quote rest).1, (takeLiteral quote rest).2) := by
  rw [takeLiteral, if_neg h, if_neg (by decide), if_pos rfl]

theorem takeLiteral_cons {quote c : Char} (hquote : c ≠ quote) (hnewline : c ≠ '\n')
    (hslash : c ≠ '\\') {rest : List Char} (hrest : rest ≠ []) :
    takeLiteral quote (c :: rest) =
      (c :: (takeLiteral quote rest).1, (takeLiteral quote rest).2) := by
  cases rest with
  | nil => exact absurd rfl hrest
  | cons d rest => rw [takeLiteral, if_neg hquote, if_neg hnewline, if_neg hslash]

/-- A closed literal is taken alike by the evaluator and the mask. -/
theorem takeLiteral_of_takeBody? {quote : Char} {text body after : List Char}
    (hquote : quote ≠ '\n') (h : takeBody? quote text = some (body, after)) :
    text = body ++ [quote] ++ after ∧
      ∀ rest, takeLiteral quote (body ++ [quote] ++ rest) = (body ++ [quote], rest) := by
  fun_induction takeBody? quote text generalizing body after with
  | case1 => cases h
  | case2 =>
    obtain ⟨rfl, rfl⟩ := Prod.mk.inj (Option.some.inj h)
    exact ⟨rfl, takeLiteral_quote hquote⟩
  | case3 => cases h
  | case4 d rest =>
    obtain ⟨rfl, rfl⟩ := Prod.mk.inj (Option.some.inj h)
    exact ⟨rfl, takeLiteral_quote hquote⟩
  | case5 => cases h
  | case6 => cases h
  | case7 d rest _ hne _ ih =>
    obtain ⟨⟨body, after⟩, hbody, heq⟩ := Option.map_eq_some_iff.mp h
    obtain ⟨rfl, rfl⟩ := Prod.mk.inj heq
    obtain ⟨htext, htake⟩ := ih hbody
    refine ⟨by rw [htext]; rfl, fun rest => ?_⟩
    simp only [List.cons_append]
    rw [takeLiteral_escape hne, htake]
  | case8 c d rest hne hnewline hslash ih =>
    obtain ⟨⟨body, after⟩, hbody, heq⟩ := Option.map_eq_some_iff.mp h
    obtain ⟨rfl, rfl⟩ := Prod.mk.inj heq
    obtain ⟨htext, htake⟩ := ih hbody
    refine ⟨by rw [htext]; rfl, fun rest => ?_⟩
    simp only [List.cons_append]
    rw [takeLiteral_cons hne hnewline hslash (by simp), htake]

/-- A closed literal is settled. -/
theorem settled_of_takeBody? {quote : Char} {text body after : List Char}
    (hquote : isQuote quote = true) (h : takeBody? quote text = some (body, after)) :
    text = body ++ [quote] ++ after ∧ Settled (quote :: (body ++ [quote])) := by
  have hnewline : quote ≠ '\n' := by
    rintro rfl
    cases hquote
  obtain ⟨htext, htake⟩ := takeLiteral_of_takeBody? hnewline h
  exact ⟨htext, settled_literal hquote htake⟩

/-! ### Tokens -/

theorem isCode_of_isNamePart {c : Char} (h : isNamePart c = true) : IsCode c :=
  isCode_of_class (by decide) (by decide) (by decide) h

theorem isCode_of_isNameStart {c : Char} (h : isNameStart c = true) : IsCode c :=
  isCode_of_class (by decide) (by decide) (by decide) h

/-- An operator is the slash, or code. -/
theorem operator?_spec {text : List Char} {symbol : String} (h : operator? text = some symbol) :
    ∃ rest, text = symbol.toList ++ rest ∧ symbol.toList ≠ [] ∧
      (symbol = "/" ∨ ∀ c ∈ symbol.toList, IsCode c) := by
  unfold operator? at h
  split at h
  · next found hfind =>
    obtain rfl := Option.some.inj h
    have hstarts := List.find?_some hfind
    obtain ⟨rest, hrest⟩ := Option.isSome_iff_exists.mp hstarts
    have hlong : ∀ s ∈ longOperators, s.toList ≠ [] ∧ ∀ c ∈ s.toList, IsCode c := by decide
    obtain ⟨hne, hcode⟩ := hlong found (List.mem_of_find?_eq_some hfind)
    exact ⟨rest, eq_append_of_dropStart? hrest, hne, Or.inr hcode⟩
  · split at h
    · cases h
    · next c rest _ =>
      split at h
      · next hmem =>
        obtain rfl := Option.some.inj h
        have hshort : ∀ c ∈ shortOperators.toList, c = '/' ∨ IsCode c := by decide
        have htoList : (String.singleton c).toList = [c] := by simp
        refine ⟨rest, by rw [htoList]; rfl, by rw [htoList]; simp, ?_⟩
        rcases hshort c (List.contains_iff_mem.mp hmem) with rfl | hcode
        · exact Or.inl rfl
        · refine Or.inr fun d hd => ?_
          rw [htoList, List.mem_singleton] at hd
          rwa [hd]
      · cases h

/-- What is left behind an operator. -/
theorem eq_append_drop_of_operator? {c : Char} {rest : List Char} {symbol : String}
    (h : operator? (c :: rest) = some symbol) :
    c :: rest = symbol.toList ++ rest.drop (symbol.length - 1) := by
  obtain ⟨rest', htext, hne, -⟩ := operator?_spec h
  obtain ⟨d, more, hsymbol⟩ := List.exists_cons_of_ne_nil hne
  rw [hsymbol] at htext ⊢
  obtain ⟨rfl, rfl⟩ : c = d ∧ rest = more ++ rest' := List.cons.inj htext
  have hlength : symbol.length - 1 = more.length := by
    rw [← String.length_toList, hsymbol, List.length_cons, Nat.add_sub_cancel]
  rw [hlength, List.drop_left, List.cons_append]

/-- A token is a slash, or a text behind which masking begins afresh. -/
theorem takeToken?_spec {text after : List Char} {t : Token} (h : takeToken? text = some (t, after)) :
    ∃ taken, text = taken ++ after ∧ (t = .op "/" ∧ taken = ['/'] ∨ Settled taken) := by
  unfold takeToken? at h
  split at h
  · cases h
  · next c rest =>
    split at h
    · next n hnumber =>
      obtain ⟨-, rfl⟩ := Prod.mk.inj (Option.some.inj h)
      obtain ⟨hpos, start, rest', htext, hlength, hcode⟩ := numberLength?_spec hnumber
      refine ⟨start, ?_, Or.inr (settled_of_code hcode)⟩
      rw [htext, Nat.max_eq_left hpos, List.drop_left' hlength]
    · split at h
      · next hquote =>
        obtain ⟨⟨body, after⟩, hbody, heq⟩ := Option.map_eq_some_iff.mp h
        obtain ⟨-, rfl⟩ := Prod.mk.inj heq
        subst hquote
        obtain ⟨rfl, hsettled⟩ := settled_of_takeBody? (by decide) hbody
        exact ⟨_, by simp, Or.inr hsettled⟩
      · split at h
        · next hquote =>
          split at h
          · next b body after hbody =>
            obtain ⟨-, rfl⟩ := Prod.mk.inj (Option.some.inj h)
            subst hquote
            obtain ⟨rfl, hsettled⟩ := settled_of_takeBody? (by decide) hbody
            exact ⟨_, by simp, Or.inr hsettled⟩
          · cases h
        · split at h
          · next hstart =>
            obtain ⟨-, rfl⟩ := Prod.mk.inj (Option.some.inj h)
            refine ⟨c :: rest.takeWhile isNamePart, ?_, Or.inr (settled_of_code ?_)⟩
            · rw [List.cons_append, List.takeWhile_append_dropWhile]
            · intro d hd
              rcases List.mem_cons.mp hd with rfl | hd
              · exact isCode_of_isNameStart hstart
              · exact isCode_of_isNamePart (List.mem_takeWhile_imp hd)
          · split at h
            · next symbol hsymbol =>
              obtain ⟨rfl, rfl⟩ := Prod.mk.inj (Option.some.inj h)
              refine ⟨symbol.toList, eq_append_drop_of_operator? hsymbol, ?_⟩
              obtain ⟨-, -, -, rfl | hcode⟩ := operator?_spec hsymbol
              · exact Or.inl ⟨rfl, rfl⟩
              · exact Or.inr (settled_of_code hcode)
            · cases h

theorem numberLength?_eq_none {c : Char} (hdigit : isDecimal c = false) (hdot : c ≠ '.')
    (hzero : c ≠ '0') (rest : List Char) : numberLength? (c :: rest) = none := by
  have hhex : hexLength? (c :: rest) = none := by
    unfold hexLength?
    split
    · next heq => exact absurd (List.cons.inj heq).1 hzero
    · rfl
  have hdigits : takeDigits (c :: rest) = ([], c :: rest) := by
    simp [takeDigits, hdigit]
  rw [numberLength?, hhex]
  simp only [decimalLength?, hdigits]
  split
  · next hpoint =>
    split at hpoint
    · next heq => exact absurd (List.cons.inj heq).1 hdot
    · cases hpoint
  · rfl

/-- At a sign that opens nothing else, the token is an operator. -/
theorem takeToken?_of_sign {c : Char} (hdigit : isDecimal c = false) (hdot : c ≠ '.') (hzero : c ≠ '0')
    (hquote : isQuote c = false) (hname : isNameStart c = false) (rest : List Char) :
    takeToken? (c :: rest) =
      (operator? (c :: rest)).map fun symbol => (.op symbol, rest.drop (symbol.length - 1)) := by
  rw [isQuote, Bool.or_eq_false_iff, beq_eq_false_iff_ne, beq_eq_false_iff_ne] at hquote
  simp only [takeToken?, numberLength?_eq_none hdigit hdot hzero, hquote.1, hquote.2, hname, if_false,
    Bool.false_eq_true]
  cases operator? (c :: rest) with
  | none => rfl
  | some symbol => rfl

/-- A token that may begin an operand does not begin with a slash, an asterisk or an equals sign. -/
theorem head_of_takeToken? {text after : List Char} {t : Token} (h : takeToken? text = some (t, after))
    (hopens : OpensOperand t) : ∃ c rest, text = c :: rest ∧ c ≠ '/' ∧ c ≠ '*' ∧ c ≠ '=' := by
  cases text with
  | nil => cases h
  | cons c rest =>
    refine ⟨c, rest, rfl, ?_, ?_, ?_⟩
    · rintro rfl
      rw [takeToken?_of_sign (by decide) (by decide) (by decide) (by decide) (by decide)] at h
      have hsymbol : operator? ('/' :: rest) = some "/" := by
        simp [operator?, longOperators, startsWith, dropStart?, shortOperators]
      rw [hsymbol] at h
      obtain ⟨rfl, -⟩ := Prod.mk.inj (Option.some.inj h)
      exact hopens.1 rfl
    · rintro rfl
      rw [takeToken?_of_sign (by decide) (by decide) (by decide) (by decide) (by decide)] at h
      have hsymbol : operator? ('*' :: rest) = some "*" := by
        simp [operator?, longOperators, startsWith, dropStart?, shortOperators]
      rw [hsymbol] at h
      obtain ⟨rfl, -⟩ := Prod.mk.inj (Option.some.inj h)
      exact hopens.2.1 rfl
    · rintro rfl
      rw [takeToken?_of_sign (by decide) (by decide) (by decide) (by decide) (by decide)] at h
      have hsymbol : ∀ symbol, operator? ('=' :: rest) = some symbol → symbol = "==" := by
        intro symbol hsymbol
        cases rest with
        | nil =>
          simp [operator?, longOperators, startsWith, dropStart?, shortOperators] at hsymbol
        | cons d rest =>
          by_cases hd : d = '='
          · subst hd
            simp [operator?, longOperators, startsWith, dropStart?] at hsymbol
            exact hsymbol.symm
          · simp [operator?, longOperators, startsWith, dropStart?, shortOperators,
              Ne.symm hd] at hsymbol
      obtain ⟨symbol, hsome, heq⟩ := Option.map_eq_some_iff.mp h
      obtain ⟨rfl, -⟩ := Prod.mk.inj heq
      exact hopens.2.2 (by rw [hsymbol symbol hsome])

/-! ### Whole texts -/

/-- A text with tokens begins with white space or with its first token. -/
theorem head_of_tokensFrom {text : List Char} {t : Token} {ts : List Token}
    (h : tokensFrom text = some (t :: ts)) (hopens : OpensOperand t) :
    ∃ c rest, text = c :: rest ∧ c ≠ '/' ∧ c ≠ '*' ∧ c ≠ '=' := by
  rw [tokensFrom] at h
  split at h
  · cases h
  · split at h
    · cases h
    · next first after hfirst =>
      obtain ⟨_, -, heq⟩ := Option.map_eq_some_iff.mp h
      obtain ⟨rfl, -⟩ := List.cons.inj heq
      obtain ⟨c, rest, hstrip, hhead⟩ := head_of_takeToken? hfirst hopens
      obtain ⟨blanks, htext, hblanks⟩ := exists_stripLeft text
      cases blanks with
      | nil => exact ⟨c, rest, htext.trans hstrip, hhead⟩
      | cons b blanks =>
        refine ⟨b, _, htext, ?_⟩
        have hb := hblanks b List.mem_cons_self
        refine ⟨?_, ?_, ?_⟩ <;> rintro rfl <;> exact absurd hb (by decide)

/-- Behind a text whose slashes are all followed by operands, masking begins afresh. -/
theorem settled_of_tokensFrom {text : List Char} {ts : List Token} (h : tokensFrom text = some ts)
    (hclosed : SlashesClosed ts) : Settled text := by
  fun_induction tokensFrom text generalizing ts with
  | case1 text hempty =>
    rw [List.isEmpty_iff.mp hempty]
    exact Settled.nil
  | case2 => cases h
  | case3 text hempty t after hfirst ih =>
    obtain ⟨rest, hrest, rfl⟩ := Option.map_eq_some_iff.mp h
    obtain ⟨blanks, htext, hblanks⟩ := exists_stripLeft text
    obtain ⟨taken, hstrip, htaken⟩ := takeToken?_spec hfirst
    have hafter := ih hrest hclosed.2
    have hspace : Settled blanks := settled_of_code fun c hc => isCode_of_isSpace (hblanks c hc)
    rw [htext, hstrip]
    refine hspace.append ?_
    rcases htaken with ⟨hslash, rfl⟩ | htaken
    · -- an operand follows the slash, so that it opens no comment
      obtain ⟨next, more, rfl, hopens⟩ := hclosed.1 hslash
      obtain ⟨c, rest, rfl, hc⟩ := head_of_tokensFrom hrest hopens
      intro tail
      have hmask : ∀ tail, mask ('/' :: c :: rest ++ tail) = '/' :: mask (c :: rest ++ tail) :=
        fun tail => mask_slash hc.1 hc.2.1 _
      have halone := hmask []
      rw [List.append_nil, List.append_nil] at halone
      change mask ('/' :: c :: rest ++ tail) = mask ('/' :: c :: rest) ++ mask tail
      rw [hmask, halone, hafter]
      rfl
    · exact htaken.append hafter

/-- The tokens of an expression that has a value, without the white space behind it. -/
theorem tokensFrom_of_evaluate {m : Machine} {text : List Char} {r : Value × Input}
    (h : evaluate m text = .ok r) : ∃ ts, tokensFrom (stripRight text) = some ts ∧ OperandShape ts := by
  obtain ⟨ts, htokens, hshape⟩ := tokens_of_evaluate h
  refine ⟨ts, ?_, hshape⟩
  unfold tokens at htokens
  split at htokens
  · next heq => rw [heq, Except.ok.inj htokens]
  · cases htokens

/-- Behind an expression that has a value, masking begins afresh. -/
theorem settled_of_evaluate {m : Machine} {text : List Char} {r : Value × Input}
    (h : evaluate m text = .ok r) : Settled text := by
  obtain ⟨ts, htokens, -, hclosed⟩ := tokensFrom_of_evaluate h
  obtain ⟨blanks, htext, hblanks⟩ := exists_stripRight text
  rw [htext]
  refine (settled_of_tokensFrom htokens hclosed).append (settled_of_code fun c hc => ?_)
  exact isCode_of_isSpace (hblanks c hc)

/-- An expression that has a value does not begin with an equals sign. -/
theorem head_of_evaluate {m : Machine} {text : List Char} {r : Value × Input}
    (h : evaluate m text = .ok r) : ∃ c rest, text = c :: rest ∧ c ≠ '=' := by
  obtain ⟨ts, htokens, ⟨t, more, rfl, hopens⟩, -⟩ := tokensFrom_of_evaluate h
  obtain ⟨c, rest, hstrip, -, -, hequals⟩ := head_of_tokensFrom htokens hopens
  obtain ⟨blanks, htext, -⟩ := exists_stripRight text
  rw [hstrip] at htext
  exact ⟨c, rest ++ blanks, htext, hequals⟩

end Coach.Program
