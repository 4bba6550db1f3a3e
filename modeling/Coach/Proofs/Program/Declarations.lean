import Coach.Proofs.Program.Changes
import Coach.Proofs.Program.Kinds
import Coach.Proofs.Program.Lexing
import Coach.Proofs.Program.Mention

/-!
# Half a declaration

A declaration of several variables may fail behind some of them.  Those that had an initial value are
mentioned by the text as written to, wherever the failure is; those without are not.

## Main definitions

* `bareNames`: the names of declarators without an initial value
* `Ready`: a text behind which a name may stand and masking begins afresh

## Main statements

* `Machine.declareAll_mentions`: what a declaration changes is bare or mentioned
-/

namespace Coach.Program

open Coach.Text Coach.Source

/-! ### Declarators -/

section Parts

variable {before rest : List Char} {groups : List Binding} {c' : Cursor}

/-- The name of a declarator is code. -/
theorem name_of_matches
    (h : (Pattern.group 1 (.seq (.one isNameStart) (.star (.one isNamePart)))).Matches
      (.behind before rest groups) c') :
    ∃ name rest', rest = name ++ rest' ∧ (∀ c ∈ name, IsCode c) ∧
      c' = .behind (before ++ name) rest' (⟨1, name ++ rest', rest'⟩ :: groups) := by
  obtain ⟨_, ⟨_, hfirst, hmore⟩, rfl⟩ := Pattern.matches_group.mp h
  obtain ⟨x, _, rfl, hx, rfl⟩ := Pattern.matches_one.mp hfirst
  obtain ⟨run, rest, rfl, hrun, rfl⟩ := Pattern.matches_star_one.mp hmore
  refine ⟨x :: run, rest, rfl, fun c hc => ?_, by simp [Cursor.behind]⟩
  rcases List.mem_cons.mp hc with rfl | hc
  · exact isCode_of_isNameStart hx
  · exact isCode_of_isNamePart (hrun c hc)

/-- An initial value behind its equals sign, or nothing. -/
theorem initial_of_matches
    (h : (Pattern.optional (.all [.char '=', .space, .group 2 (.plus (.one fun _ => true))])).Matches
      (.behind before rest groups) c') :
    c' = .behind before rest groups ∨
      ∃ blanks value rest', rest = '=' :: (blanks ++ (value ++ rest')) ∧
        (∀ c ∈ blanks, isSpace c = true) ∧
        c' = .behind (before ++ '=' :: (blanks ++ value)) rest'
          (⟨2, value ++ rest', rest'⟩ :: groups) := by
  rcases Pattern.matches_optional.mp h with h | rfl
  · obtain ⟨_, hequals, _, hspace, hgroup⟩ := h
    obtain ⟨rest, rfl, rfl⟩ := Pattern.matches_char.mp hequals
    obtain ⟨blanks, rest, rfl, hblanks, rfl⟩ := Pattern.matches_space.mp hspace
    obtain ⟨_, hvalue, rfl⟩ := Pattern.matches_group.mp hgroup
    obtain ⟨value, rest, -, rfl, -, rfl⟩ := Pattern.matches_plus_one.mp hvalue
    exact Or.inr ⟨blanks, value, rest, rfl, hblanks, by simp [Cursor.behind]⟩
  · exact Or.inl rfl

/-- At the last line end at most a line break is left. -/
theorem blank_of_atLastLineEnd {c : Cursor} (h : Pattern.atLastLineEnd.Matches c c') :
    (∀ x ∈ c.rest, isSpace x = true) ∧ c' = c := by
  obtain ⟨hlast, rfl⟩ := h
  simp only [Bool.or_eq_true, List.isEmpty_iff, beq_iff_eq] at hlast
  refine ⟨?_, rfl⟩
  rcases hlast with hrest | hrest
  · rw [hrest]
    exact List.forall_mem_nil _
  · rw [hrest]
    decide

end Parts

/-- A name with its initial value, or without one, and possibly a line break. -/
theorem ofText?_spec {part : List Char} {d : Declarator} (h : Declarator.ofText? part = some d) :
    ∃ name blanks rest, d.name = String.ofList name ∧ (∀ c ∈ name, IsCode c) ∧
      (∀ c ∈ blanks, isSpace c = true) ∧ (∀ c ∈ rest, isSpace c = true) ∧
      (d.value = none ∧ part = name ++ blanks ++ rest ∨
        ∃ blanks' value, d.value = some value ∧ (∀ c ∈ blanks', isSpace c = true) ∧
          part = name ++ blanks ++ '=' :: (blanks' ++ value ++ rest)) := by
  obtain ⟨m, hmatch, rfl⟩ := Option.map_eq_some_iff.mp h
  obtain ⟨_, hname, _, hspace, _, hvalue, hend⟩ := Pattern.matches_of_match? hmatch
  obtain ⟨name, rest, rfl, hcode, rfl⟩ := name_of_matches hname
  obtain ⟨blanks, rest, rfl, hblanks, rfl⟩ := Pattern.matches_space.mp hspace
  obtain ⟨hbreak, hafter⟩ := blank_of_atLastLineEnd hend
  rcases initial_of_matches hvalue with rfl | ⟨blanks', value, rest, rfl, hblanks', rfl⟩
  · have hone : m.group 1 = name := by
      rw [Match.group, Match.group?, hafter, Cursor.group?_behind_self, Option.getD_some]
    have htwo : m.group? 2 = none := by
      rw [Match.group?, hafter, Cursor.group?_behind_of_ne (by decide)]
      rfl
    refine ⟨name, blanks, rest, congrArg String.ofList hone, hcode, hblanks, hbreak, Or.inl ⟨htwo, ?_⟩⟩
    rw [List.append_assoc]
  · have hone : m.group 1 = name := by
      rw [Match.group, Match.group?, hafter, Cursor.group?_behind_of_ne (by decide),
        Cursor.group?_behind_self, Option.getD_some]
    have htwo : m.group? 2 = some value := by
      rw [Match.group?, hafter, Cursor.group?_behind_self]
    refine ⟨name, blanks, rest, congrArg String.ofList hone, hcode, hblanks, hbreak,
      Or.inr ⟨blanks', value, htwo, hblanks', ?_⟩⟩
    simp only [List.append_assoc]

/-! ### The parts between commas -/

/-- The first part of a text, of which something has been read, and the parts behind its comma. -/
def FirstPart (buffer text part : List Char) (parts : List (List Char)) : Prop :=
  part = strip (buffer ++ text) ∧ parts = [] ∨
    ∃ raw rest, text = raw ++ ',' :: rest ∧ part = strip (buffer ++ raw) ∧ parts = splitTopLevel rest

theorem FirstPart.shift {buffer taken text part : List Char} {parts : List (List Char)}
    (h : FirstPart (buffer ++ taken) text part parts) :
    FirstPart buffer (taken ++ text) part parts := by
  rcases h with ⟨hpart, hparts⟩ | ⟨raw, rest, rfl, hpart, hparts⟩
  · exact Or.inl ⟨by rw [hpart, List.append_assoc], hparts⟩
  · exact Or.inr ⟨taken ++ raw, rest, by rw [List.append_assoc], by rw [hpart, List.append_assoc],
      hparts⟩

theorem firstPart_of_splitTopLevelFrom {buffer : List Char} {depth : Int} {text part : List Char}
    {parts : List (List Char)} (h : splitTopLevelFrom buffer depth text = part :: parts) :
    FirstPart buffer text part parts := by
  fun_induction splitTopLevelFrom buffer depth text with
  | case1 =>
    obtain ⟨rfl, rfl⟩ := List.cons.inj h
    exact Or.inl ⟨by rw [List.append_nil], rfl⟩
  | case2 buffer depth c rest hquote ih =>
    have hshift := (ih h).shift
    rwa [List.cons_append, takeLiteral_append] at hshift
  | case3 buffer depth c rest _ _ ih => exact (ih h).shift
  | case4 buffer depth c rest _ _ _ ih => exact (ih h).shift
  | case5 buffer depth c rest _ _ _ hcomma ih =>
    obtain ⟨rfl, rfl⟩ := hcomma
    obtain ⟨rfl, rfl⟩ := List.cons.inj h
    exact Or.inr ⟨[], rest, rfl, by rw [List.append_nil], rfl⟩
  | case6 buffer depth c rest _ _ _ _ ih => exact (ih h).shift

/-! ### Texts behind which a name may stand -/

/-- A text behind which a name may stand, and behind whose last character but one masking begins
afresh. -/
def Ready (text : List Char) : Prop :=
  ∃ start c, text = start ++ [c] ∧ Settled start ∧ IsCode c ∧ extendsName c = false ∧ c ≠ '.'

theorem Ready.settled {text : List Char} (h : Ready text) : Settled text := by
  obtain ⟨start, c, rfl, hstart, hcode, -⟩ := h
  refine hstart.append (settled_of_code fun d hd => ?_)
  rwa [List.mem_singleton.mp hd]

/-- A name behind such a text, and behind white space, is not joined to what stands before it. -/
theorem Ready.opensName {text blanks : List Char} (h : Ready text)
    (hblanks : ∀ c ∈ blanks, isSpace c = true) : OpensName (mask text ++ blanks) := by
  intro d hd
  cases hlast : blanks.getLast? with
  | some b =>
    rw [List.getLast?_append, hlast, Option.some_or, Option.some.injEq] at hd
    subst hd
    exact extendsName_of_isSpace (hblanks b (List.mem_of_getLast? hlast))
  | none =>
    obtain ⟨start, c, rfl, hstart, hcode, hjoins⟩ := h
    obtain rfl := List.getLast?_eq_none_iff.mp hlast
    rw [hstart, mask_cons hcode, mask_nil, List.append_nil, List.getLast?_concat,
      Option.some.injEq] at hd
    exact hd ▸ hjoins

/-- What begins with no equals sign is not masked into one. -/
theorem head?_mask {c : Char} (rest : List Char) (h : c ≠ '=') :
    (mask (c :: rest)).head? ≠ some '=' := by
  by_cases hcode : IsCode c
  · rw [mask_cons hcode]
    simpa using h
  · -- a quote stays or is blanked, and so does a slash
    cases hquote : isQuote c with
    | true =>
      rw [mask_quote hquote, blankLiteral]
      split <;> simpa using h
    | false =>
      obtain rfl : c = '/' := by
        by_contra hne
        exact hcode ⟨hne, hquote⟩
      rcases head?_mask_slash rest with hhead | hhead <;> rw [hhead] <;> decide

theorem isCode_of_blanks {blanks : List Char} (h : ∀ c ∈ blanks, isSpace c = true) :
    ∀ c ∈ blanks, IsCode c := fun c hc => isCode_of_isSpace (h c hc)

/-- Behind a declarator whose initial value is settled, masking begins afresh. -/
theorem settled_of_declarator {raw : List Char} {d : Declarator}
    (hd : Declarator.ofText? (strip raw) = some d)
    (hvalue : ∀ value, d.value = some value → Settled value) : Settled raw := by
  obtain ⟨left, right, hraw, hleft, hright⟩ := exists_strip raw
  obtain ⟨name, blanks, rest, -, hname, hblanks, hrest, hforms⟩ := ofText?_spec hd
  have hcode : ∀ {text : List Char}, (∀ c ∈ text, isSpace c = true) → Settled text :=
    fun h => settled_of_code (isCode_of_blanks h)
  rw [hraw]
  refine (hcode hleft).append (Settled.append ?_ (hcode hright))
  rcases hforms with ⟨-, hpart⟩ | ⟨blanks', value, hsome, hblanks', hpart⟩
  · rw [hpart]
    exact ((settled_of_code hname).append (hcode hblanks)).append (hcode hrest)
  · rw [hpart]
    have hequals : Settled ['='] := settled_of_code (by decide)
    refine ((settled_of_code hname).append (hcode hblanks)).append (hequals.append ?_)
    exact ((hcode hblanks').append (hvalue value hsome)).append (hcode hrest)

/-- A declarator with an initial value is mentioned. -/
theorem assigns_of_declarator {start raw value : List Char} {d : Declarator} (tail : List Char)
    (hstart : Ready start) (hd : Declarator.ofText? (strip raw) = some d) (hsome : d.value = some value)
    (hvalue : ∃ c more, value = c :: more ∧ c ≠ '=') :
    assigns (mask (start ++ (raw ++ tail))) d.name = true := by
  obtain ⟨left, right, hraw, hleft, -⟩ := exists_strip raw
  obtain ⟨name, blanks, rest, hnameEq, hname, hblanks, -, ⟨hnone, -⟩ |
    ⟨blanks', _, hsome', hblanks', hpart⟩⟩ := ofText?_spec hd
  · rw [hnone] at hsome
    cases hsome
  obtain rfl := Option.some.inj (hsome.symm.trans hsome')
  rw [assigns_iff, hnameEq]
  refine ⟨mask start ++ left,
    blanks ++ "".toList ++ '=' :: mask (blanks' ++ value ++ rest ++ (right ++ tail)), ?_,
    Or.inl ⟨hstart.opensName hleft, .assignment hblanks (by decide) ?_⟩⟩
  · have hwhole : raw ++ tail = left ++ (name ++ (blanks ++
        '=' :: (blanks' ++ value ++ rest ++ (right ++ tail)))) := by
      rw [hraw, hpart]
      simp only [List.append_assoc, List.cons_append]
    rw [hwhole, hstart.settled, mask_append_of_code (isCode_of_blanks hleft),
      mask_append_of_code hname, mask_append_of_code (isCode_of_blanks hblanks), mask_cons (by decide)]
    simp
  · obtain ⟨c, more, rfl, hc⟩ := hvalue
    cases blanks' with
    | nil => exact head?_mask _ hc
    | cons b blanks' =>
      have hb := hblanks' b List.mem_cons_self
      refine head?_mask _ ?_
      rintro rfl
      cases hb

/-! ### Several declarators -/

/-- The names of the declarators without an initial value. -/
def bareNames (parts : List (List Char)) : List String :=
  parts.filterMap fun part => (Declarator.ofText? part).bind fun d =>
    if d.value.isNone then some d.name else none

namespace Machine

/-- What a declaration changes, wherever it ends, has no initial value or is mentioned. -/
theorem declareAll_mentions {kind : Kind} (hkind : kind ≠ .scanner) {start text : List Char}
    {parts : List (List Char)} (hstart : Ready start) (hparts : parts = splitTopLevel text)
    (m : Machine) {name : String} (hbare : name ∉ bareNames parts)
    (hunmentioned : assigns (mask (start ++ text)) name = false) :
    m.SameVariable (declareAll kind m parts).1 name := by
  induction parts generalizing m start text with
  | nil => exact SameVariable.refl m name
  | cons part rest ih =>
    simp only [declareAll]
    cases hd : Declarator.ofText? part with
    | none => exact SameVariable.refl m name
    | some d =>
      obtain ⟨raw, tail, htext, hpart, hrest⟩ : ∃ raw tail, text = raw ++ tail ∧ part = strip raw ∧
          (rest = [] ∨ ∃ more, tail = ',' :: more ∧ rest = splitTopLevel more) := by
        rcases firstPart_of_splitTopLevelFrom hparts.symm with ⟨hpart, hnil⟩ |
          ⟨raw, more, htext, hpart, hmore⟩
        · exact ⟨text, [], (List.append_nil text).symm, hpart, Or.inl hnil⟩
        · exact ⟨raw, ',' :: more, htext, hpart, Or.inr ⟨more, rfl, hmore⟩⟩
      subst htext hpart
      refine SameVariable.andThen fun initial hinitial => ?_
      obtain ⟨v, i⟩ := initial
      have hinput : m.SameVariable { m with input := i } name := ⟨rfl, rfl⟩
      refine hinput.trans ?_
      refine SameVariable.andThen fun v _ => ?_
      -- an initial value that was computed is settled and begins with no equals sign
      have hvalue : ∀ value, d.value = some value →
          Settled value ∧ ∃ c more, value = c :: more ∧ c ≠ '=' := by
        intro value hsome
        rw [hsome] at hinitial
        exact ⟨settled_of_evaluate hinitial, head_of_evaluate hinitial⟩
      have hne : name ≠ d.name := by
        rintro rfl
        cases hsome : d.value with
        | none =>
          refine hbare (List.mem_filterMap.mpr ⟨strip raw, List.mem_cons_self, ?_⟩)
          simp [hd, hsome]
        | some value =>
          have hmentioned := assigns_of_declarator tail hstart hd hsome (hvalue value hsome).2
          rw [hunmentioned] at hmentioned
          cases hmentioned
      refine SameVariable.trans (SameVariable.of_write (.declaration _ v hkind) hne) ?_
      rcases hrest with rfl | ⟨more, rfl, hmore⟩
      · exact SameVariable.refl _ name
      · have hraw := settled_of_declarator hd fun value hsome => (hvalue value hsome).1
        have hready : Ready (start ++ raw ++ [',']) :=
          ⟨start ++ raw, ',', rfl, hstart.settled.append hraw, by decide, by decide⟩
        refine ih hready hmore _ (fun hmem => hbare ?_) ?_
        · obtain ⟨part, hpart, hsome⟩ := List.mem_filterMap.mp hmem
          exact List.mem_filterMap.mpr ⟨part, List.mem_cons_of_mem _ hpart, hsome⟩
        · rwa [List.append_assoc, List.append_assoc]

end Machine

/-! ### The statement -/

theorem within_space1 : Pattern.space1.Within IsCode :=
  ⟨fun _ h => isCode_of_isSpace h, fun _ h => isCode_of_isSpace h⟩

theorem within_qualifiers : (Pattern.star (.seq (.anyPattern [.text "final", .text "const",
    .text "static"]) .space1)).Within IsCode :=
  ⟨⟨Pattern.within_text (by decide), Pattern.within_text (by decide),
    Pattern.within_text (by decide)⟩, within_space1⟩

theorem within_declaredType : Statement.declaredType.Within IsCode := by
  have htext : ∀ s : String, (∀ c ∈ s.toList, IsCode c) → (Pattern.text s).Within IsCode :=
    fun _ h => Pattern.within_text h
  refine ⟨⟨⟨⟨htext _ (by decide), within_space1⟩, htext _ (by decide), within_space1⟩, trivial⟩, ?_⟩
  refine ⟨⟨htext _ (by decide), within_space1, htext _ (by decide),
      ⟨within_space1, htext _ (by decide)⟩, trivial⟩,
    ⟨htext _ (by decide), within_space1, htext _ (by decide)⟩,
    ⟨htext _ (by decide), within_space1, htext _ (by decide)⟩, ?_⟩
  refine ⟨htext _ (by decide), htext _ (by decide), htext _ (by decide), htext _ (by decide),
    htext _ (by decide), htext _ (by decide), htext _ (by decide), htext _ (by decide),
    htext _ (by decide), htext _ (by decide), htext _ (by decide)⟩

/-- What stands before the declarators is ready for them. -/
theorem ready_of_declaration {text : List Char} {kind : Kind} {parts : List (List Char)}
    (h : Statement.ofText text = .declaration kind parts) :
    ∃ start rest, text = start ++ rest ∧ Ready start ∧ parts = splitTopLevel rest := by
  obtain ⟨m, hmatch, -, hparts⟩ := Statement.ofText_eq_declaration h
  have hrun := Pattern.run_of_match? hmatch
  simp only [Statement.declarationStatement, Pattern.all] at hrun
  obtain ⟨_, hquals, hrun⟩ := Pattern.run_seq_sound hrun
  obtain ⟨_, htype, hrun⟩ := Pattern.run_seq_sound hrun
  obtain ⟨_, hspace, hrun⟩ := Pattern.run_seq_sound hrun
  obtain ⟨quals, _, _, rfl, hcode₁, rfl⟩ := Pattern.exists_taken_of_within within_qualifiers hquals
  obtain ⟨words, _, groups, rfl, hcode₂, rfl⟩ :=
    Pattern.exists_taken_of_within (p := .group 1 _) within_declaredType htype
  obtain ⟨blanks, rest, hne, rfl, hblanks, rfl⟩ := Pattern.matches_plus_one.mp hspace
  have hgroup : m.group 2 = rest := by
    rw [Match.group, Match.group?, Pattern.group?_of_run_plus_any hrun, Option.getD_some]
  -- the last of the white space is what the first name stands behind
  obtain ⟨init, c, hconcat⟩ : ∃ init c, blanks = init ++ [c] :=
    ⟨_, _, (List.dropLast_concat_getLast hne).symm⟩
  have hinit : ∀ d ∈ init, IsCode d := fun d hd =>
    isCode_of_isSpace (hblanks d (hconcat ▸ List.mem_append_left _ hd))
  have hc : isSpace c = true :=
    hblanks c (hconcat ▸ List.mem_append_right _ (List.mem_singleton_self c))
  refine ⟨quals ++ words ++ init ++ [c], rest, ?_, ⟨quals ++ words ++ init, c, rfl, ?_,
    isCode_of_isSpace hc, extendsName_of_isSpace hc⟩, by rw [hparts, hgroup]⟩
  · rw [List.append_assoc (quals ++ words), ← hconcat]
    simp
  · exact ((settled_of_code hcode₁).append (settled_of_code hcode₂)).append (settled_of_code hinit)

/-- What a declaration statement changes, wherever it ends, has no initial value or is mentioned. -/
theorem Machine.declaration_mentions {text : List Char} {kind : Kind} {parts : List (List Char)}
    (h : Statement.ofText text = .declaration kind parts) (m : Machine) {name : String}
    (hbare : name ∉ bareNames parts) (hunmentioned : assigns (mask text) name = false) :
    m.SameVariable (declareAll kind m parts).1 name := by
  obtain ⟨start, rest, rfl, hready, hparts⟩ := ready_of_declaration h
  have hkind : kind ≠ .scanner := by
    rintro rfl
    exact Statement.ofText_ne_scanner_declaration _ parts h
  exact declareAll_mentions hkind hready hparts m hbare hunmentioned

end Coach.Program
