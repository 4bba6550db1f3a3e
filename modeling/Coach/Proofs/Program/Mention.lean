import Coach.Program.Assignment
import Coach.Proofs.Text.Blank
import Coach.Proofs.Text.Matching
import Mathlib.Tactic.Tauto

/-!
# Where a text writes to a name

The test of whether a text may write to a name, described by the text alone: what stands on either
side of the name.

## Main definitions

* `WritesBehind`, `WritesBefore`: what stands behind or before a name that is written to
* `Mentions`: a text in which a name stands as a whole identifier and is written to

## Main statements

* `assigns_iff`: the test, exactly
* `assigns_of_mentions`: the test finds every mention
-/

namespace Coach.Program

open Coach.Text

/-- The signs that a compound assignment puts before its equals sign, and the empty one. -/
def assignmentSigns : List String := ["", "+", "-", "*", "/", "%", "&", "|", "^", "<<", ">>", ">>>"]

/-- Behind the name: an assignment, simple or compound, or a step. -/
inductive WritesBehind : List Char → Prop
  | assignment {blanks : List Char} {sign : String} {rest : List Char} :
    (∀ c ∈ blanks, isSpace c = true) → sign ∈ assignmentSigns → rest.head? ≠ some '=' →
    WritesBehind (blanks ++ sign.toList ++ '=' :: rest)
  | step {blanks : List Char} {sign : String} {rest : List Char} :
    (∀ c ∈ blanks, isSpace c = true) → sign ∈ ["++", "--"] →
    WritesBehind (blanks ++ sign.toList ++ rest)

/-- Before the name: a step, or an ampersand that takes an address. -/
inductive WritesBefore : List Char → Prop
  | step {rest : List Char} {sign : String} {blanks : List Char} :
    sign ∈ ["++", "--"] → (∀ c ∈ blanks, isSpace c = true) →
    WritesBefore (rest ++ sign.toList ++ blanks)
  | address {rest blanks : List Char} :
    (∀ c, rest.getLast? = some c → extendsName c = false ∧ c ≠ '&' ∧ c ≠ ')' ∧ c ≠ ']') →
    (∀ c ∈ blanks, isSpace c = true) → WritesBefore (rest ++ '&' :: blanks)

/-- No identifier and no member access runs into what follows. -/
def OpensName (before : List Char) : Prop :=
  ∀ c, before.getLast? = some c → extendsName c = false ∧ c ≠ '.'

/-- No identifier runs on. -/
def ClosesName (after : List Char) : Prop := ∀ c, after.head? = some c → extendsName c = false

/-- A name stands in a text as a whole identifier, not behind a dot, and is written to there. -/
def Mentions (text : List Char) (name : String) : Prop :=
  ∃ before after, text = before ++ name.toList ++ after ∧ OpensName before ∧ ClosesName after ∧
    (WritesBehind after ∨ WritesBefore before)

/-! ### Characters -/

/-- White space is no part of a name. -/
theorem extendsName_of_isSpace {c : Char} (h : isSpace c = true) : extendsName c = false ∧ c ≠ '.' :=
  of_isSpace (P := fun c => extendsName c = false ∧ c ≠ '.') (by decide +kernel) h

/-! ### The signs -/

section Signs

variable {before rest : List Char} {groups : List Binding} {c' : Cursor}

theorem matches_stepSign :
    stepSign.Matches (.behind before rest groups) c' ↔
      ∃ sign rest', sign ∈ ["++", "--"] ∧ rest = sign.toList ++ rest' ∧
        c' = .behind (before ++ sign.toList) rest' groups := by
  simp only [stepSign, Pattern.matches_alt, Pattern.matches_text, List.mem_cons, List.not_mem_nil,
    or_false]
  constructor
  · rintro (⟨rest', rfl, rfl⟩ | ⟨rest', rfl, rfl⟩)
    · exact ⟨"++", rest', Or.inl rfl, rfl, rfl⟩
    · exact ⟨"--", rest', Or.inr rfl, rfl, rfl⟩
  · rintro ⟨_, rest', rfl | rfl, rfl, rfl⟩
    · exact Or.inl ⟨rest', rfl, rfl⟩
    · exact Or.inr ⟨rest', rfl, rfl⟩

theorem exists_sign_of_operator {x : Char} (h : "-+*/%&|^".toList.contains x = true) :
    ∃ sign ∈ assignmentSigns, sign.toList = [x] := by
  rw [List.contains_iff_mem] at h
  have hx : x ∈ ['-', '+', '*', '/', '%', '&', '|', '^'] := h
  simp only [List.mem_cons, List.not_mem_nil, or_false] at hx
  rcases hx with rfl | rfl | rfl | rfl | rfl | rfl | rfl | rfl <;> decide

theorem matches_operator :
    (Pattern.optional (.anyPattern [.text "<<", .all [.text ">>", .optional (.char '>')],
        .anyOf "-+*/%&|^"])).Matches (.behind before rest groups) c' ↔
      ∃ sign rest', sign ∈ assignmentSigns ∧ rest = sign.toList ++ rest' ∧
        c' = .behind (before ++ sign.toList) rest' groups := by
  simp only [Pattern.anyPattern, Pattern.all, Pattern.anyOf, Pattern.matches_optional,
    Pattern.matches_alt, Pattern.matches_seq, Pattern.matches_text, Pattern.matches_one]
  constructor
  · rintro ((⟨rest', rfl, rfl⟩ | ⟨_, ⟨rest', rfl, rfl⟩, h⟩ | ⟨x, rest', rfl, hx, rfl⟩) | rfl)
    · exact ⟨"<<", rest', by decide, rfl, rfl⟩
    · rcases h with h | rfl
      · obtain ⟨rest', rfl, rfl⟩ := Pattern.matches_char.mp h
        exact ⟨">>>", rest', by decide, rfl, by simp⟩
      · exact ⟨">>", rest', by decide, rfl, rfl⟩
    · obtain ⟨sign, hmem, hsign⟩ := exists_sign_of_operator hx
      exact ⟨sign, rest', hmem, by rw [hsign]; rfl, by rw [hsign]⟩
    · exact ⟨"", rest, by decide, rfl, by simp⟩
  · rintro ⟨sign, rest', hmem, rfl, rfl⟩
    simp only [assignmentSigns, List.mem_cons, List.not_mem_nil, or_false] at hmem
    have hone : ∀ x ∈ ['-', '+', '*', '/', '%', '&', '|', '^'], ∀ sign : String, sign.toList = [x] →
        ∃ y rest'', sign.toList ++ rest' = y :: rest'' ∧ "-+*/%&|^".toList.contains y = true ∧
          Cursor.behind (before ++ sign.toList) rest' groups =
            .behind (before ++ [y]) rest'' groups := by
      intro x hx sign hsign
      exact ⟨x, rest', by rw [hsign]; rfl, List.contains_iff_mem.mpr hx, by rw [hsign]⟩
    rcases hmem with rfl | rfl | rfl | rfl | rfl | rfl | rfl | rfl | rfl | rfl | rfl | rfl
    · exact Or.inr (by simp)
    iterate 8 exact Or.inl (Or.inr (Or.inr (hone _ (by decide) _ rfl)))
    · exact Or.inl (Or.inl ⟨rest', rfl, rfl⟩)
    · exact Or.inl (Or.inr (Or.inl ⟨_, ⟨rest', rfl, rfl⟩, Or.inr rfl⟩))
    · refine Or.inl (Or.inr (Or.inl ⟨_, ⟨'>' :: rest', rfl, rfl⟩, Or.inl ?_⟩))
      exact Pattern.matches_char.mpr ⟨rest', rfl, by simp⟩

theorem exists_matches_assignmentSign (before rest : List Char) (groups : List Binding) :
    (∃ c', assignmentSign.Matches (.behind before rest groups) c') ↔
      ∃ sign rest', sign ∈ assignmentSigns ∧ rest = sign.toList ++ '=' :: rest' ∧
        rest'.head? ≠ some '=' := by
  simp only [assignmentSign, Pattern.all, Pattern.matches_seq, Pattern.matches_notBefore]
  constructor
  · rintro ⟨c', _, hoperator, _, hequals, hnext, -⟩
    obtain ⟨sign, rest', hmem, rfl, rfl⟩ := matches_operator.mp hoperator
    obtain ⟨rest', rfl, rfl⟩ := Pattern.matches_char.mp hequals
    refine ⟨sign, rest', hmem, rfl, fun heq => ?_⟩
    simpa using hnext '=' heq
  · rintro ⟨sign, rest', hmem, rfl, hnext⟩
    refine ⟨_, _, matches_operator.mpr ⟨sign, _, hmem, rfl, rfl⟩, _,
      Pattern.matches_char.mpr ⟨rest', rfl, rfl⟩, fun x hx => ?_, rfl⟩
    rw [beq_eq_false_iff_ne]
    rintro rfl
    exact hnext hx

end Signs

/-! ### The test -/

theorem steady_assignmentTo (name : String) : (assignmentTo name).Steady := by
  have hname := Pattern.steady_text name
  have hspace := Pattern.steady_space
  have hstep : stepSign.Steady := ⟨Pattern.steady_text _, Pattern.steady_text _⟩
  have hoperator : (Pattern.anyPattern [.text "<<", .all [.text ">>", .optional (.char '>')],
      .anyOf "-+*/%&|^"]).Steady :=
    ⟨Pattern.steady_text _, ⟨Pattern.steady_text _, trivial, trivial⟩, trivial⟩
  have hsign : assignmentSign.Steady := ⟨⟨hoperator, trivial⟩, trivial, trivial⟩
  exact ⟨⟨trivial, hname, hspace, hsign, hstep⟩, ⟨hstep, hspace, hname, trivial⟩,
    trivial, trivial, hspace, hname, trivial⟩

theorem joinsName_eq_false_iff {c : Char} :
    joinsName c = false ↔ extendsName c = false ∧ c ≠ '.' := by
  simp [joinsName, extendsName, and_assoc]

theorem endsValue_eq_false_iff {c : Char} :
    endsValue c = false ↔ extendsName c = false ∧ c ≠ '&' ∧ c ≠ ')' ∧ c ≠ ']' := by
  simp only [endsValue, extendsName, Bool.or_eq_false_iff, beq_eq_false_iff_ne, ne_eq]
  tauto

/-- What the pattern asks for behind the name. -/
theorem exists_matches_behind (before rest : List Char) (groups : List Binding) :
    (∃ c', (Pattern.seq .space (.alt assignmentSign stepSign)).Matches
      (.behind before rest groups) c') ↔ WritesBehind rest := by
  simp only [Pattern.matches_seq, Pattern.matches_alt]
  constructor
  · rintro ⟨c', _, hspace, hsign⟩
    obtain ⟨blanks, rest, rfl, hblanks, rfl⟩ := Pattern.matches_space.mp hspace
    rcases hsign with hsign | hsign
    · obtain ⟨sign, rest, hmem, rfl, hnext⟩ :=
        (exists_matches_assignmentSign _ _ _).mp ⟨c', hsign⟩
      rw [← List.append_assoc]
      exact .assignment hblanks hmem hnext
    · obtain ⟨sign, rest, hmem, rfl, -⟩ := matches_stepSign.mp hsign
      rw [← List.append_assoc]
      exact .step hblanks hmem
  · intro h
    cases h with
    | @assignment blanks sign rest hblanks hmem hnext =>
      obtain ⟨c', hsign⟩ := (exists_matches_assignmentSign (before ++ blanks) _ groups).mpr
        ⟨sign, rest, hmem, rfl, hnext⟩
      exact ⟨c', _, Pattern.matches_space.mpr ⟨blanks, _, List.append_assoc _ _ _, hblanks, rfl⟩,
        Or.inl hsign⟩
    | @step blanks sign rest hblanks hmem =>
      exact ⟨_, _, Pattern.matches_space.mpr ⟨blanks, _, List.append_assoc _ _ _, hblanks, rfl⟩,
        Or.inr (matches_stepSign.mpr ⟨sign, rest, hmem, rfl, rfl⟩)⟩

/-- The test of whether a text may write to a name, as it looks at the two sides of the name. -/
theorem assigns_iff (text : List Char) (name : String) :
    assigns text name = true ↔
      ∃ before after, text = before ++ name.toList ++ after ∧
        (OpensName before ∧ WritesBehind after ∨ WritesBefore before ∧ ClosesName after) := by
  rw [assigns, Pattern.occursIn_iff (steady_assignmentTo name)]
  simp only [assignmentTo, Pattern.anyPattern, Pattern.all, Pattern.matches_alt, Pattern.matches_seq]
  -- the three ways of the pattern: behind the name, a step before it, an address mark before it
  constructor
  · rintro ⟨before, rest, c', rfl, ⟨_, hlast, _, hname, hbehind⟩ |
      ⟨_, hstep, _, hspace, _, hname, hnext⟩ |
      ⟨_, hlast, _, hmark, _, hspace, _, hname, hnext⟩⟩
    · obtain ⟨hopens, rfl⟩ := Pattern.matches_notAfter.mp hlast
      obtain ⟨after, rfl, rfl⟩ := Pattern.matches_text.mp hname
      refine ⟨before, after, (List.append_assoc _ _ _).symm, Or.inl ⟨fun c hc => ?_, ?_⟩⟩
      · exact joinsName_eq_false_iff.mp (hopens c hc)
      · exact (exists_matches_behind _ _ _).mp ⟨c', hbehind⟩
    · obtain ⟨sign, rest, hmem, rfl, rfl⟩ := matches_stepSign.mp hstep
      obtain ⟨blanks, rest, rfl, hblanks, rfl⟩ := Pattern.matches_space.mp hspace
      obtain ⟨after, rfl, rfl⟩ := Pattern.matches_text.mp hname
      obtain ⟨hcloses, -⟩ := Pattern.matches_notBefore.mp hnext
      exact ⟨before ++ sign.toList ++ blanks, after, by simp, Or.inr ⟨.step hmem hblanks, hcloses⟩⟩
    · obtain ⟨hopens, rfl⟩ := Pattern.matches_notAfter.mp hlast
      obtain ⟨rest, rfl, rfl⟩ := Pattern.matches_char.mp hmark
      obtain ⟨blanks, rest, rfl, hblanks, rfl⟩ := Pattern.matches_space.mp hspace
      obtain ⟨after, rfl, rfl⟩ := Pattern.matches_text.mp hname
      obtain ⟨hcloses, -⟩ := Pattern.matches_notBefore.mp hnext
      refine ⟨before ++ '&' :: blanks, after, by simp,
        Or.inr ⟨.address (fun c hc => ?_) hblanks, hcloses⟩⟩
      exact endsValue_eq_false_iff.mp (hopens c hc)
  · rintro ⟨before, after, rfl, ⟨hopens, hbehind⟩ | ⟨hbefore, hcloses⟩⟩
    · obtain ⟨c', hbehind⟩ := (exists_matches_behind (before ++ name.toList) _ []).mpr hbehind
      refine ⟨before, name.toList ++ after, c', List.append_assoc _ _ _, Or.inl ⟨_,
        Pattern.matches_notAfter.mpr ⟨fun c hc => ?_, rfl⟩, _,
        Pattern.matches_text.mpr ⟨after, rfl, rfl⟩, hbehind⟩⟩
      exact joinsName_eq_false_iff.mpr (hopens c hc)
    · cases hbefore with
      | @step rest sign blanks hmem hblanks =>
        refine ⟨rest, sign.toList ++ (blanks ++ (name.toList ++ after)), _, by simp, Or.inr (Or.inl ⟨_,
          matches_stepSign.mpr ⟨sign, _, hmem, rfl, rfl⟩, _,
          Pattern.matches_space.mpr ⟨blanks, _, rfl, hblanks, rfl⟩, _,
          Pattern.matches_text.mpr ⟨after, rfl, rfl⟩,
          Pattern.matches_notBefore.mpr ⟨hcloses, rfl⟩⟩)⟩
      | @address rest blanks hopens hblanks =>
        refine ⟨rest, '&' :: (blanks ++ (name.toList ++ after)), _, by simp, Or.inr (Or.inr ⟨_,
          Pattern.matches_notAfter.mpr ⟨fun c hc => ?_, rfl⟩, _,
          Pattern.matches_char.mpr ⟨_, rfl, rfl⟩, _,
          Pattern.matches_space.mpr ⟨blanks, _, rfl, hblanks, rfl⟩, _,
          Pattern.matches_text.mpr ⟨after, rfl, rfl⟩,
          Pattern.matches_notBefore.mpr ⟨hcloses, rfl⟩⟩)⟩
        exact endsValue_eq_false_iff.mpr (hopens c hc)

/-- Every mention is found. -/
theorem assigns_of_mentions {text : List Char} {name : String} (h : Mentions text name) :
    assigns text name = true := by
  obtain ⟨before, after, htext, hopens, hcloses, hbehind | hbefore⟩ := h
  · exact (assigns_iff text name).mpr ⟨before, after, htext, Or.inl ⟨hopens, hbehind⟩⟩
  · exact (assigns_iff text name).mpr ⟨before, after, htext, Or.inr ⟨hbefore, hcloses⟩⟩

end Coach.Program
