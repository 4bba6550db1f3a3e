import Coach.Proofs.Program.Kinds
import Coach.Proofs.Program.Lexing
import Coach.Proofs.Program.Mention
import Coach.Proofs.Text.Lines

/-!
# The targets of `scanf`

A target of `scanf` is a name, mostly with an address mark before it.  With the mark the text mentions
the name as written to, unless a line break in the format takes the mask off its track.

## Main definitions

* `IsTarget`: what stands between two commas of the targets
* `bareScanTargets`: the targets without an address mark

## Main statements

* `assigns_of_scanTarget`: a target with an address mark is mentioned
-/

namespace Coach.Program

open Coach.Text Coach.Source

/-! ### The format -/

/-- A format without a line break is one literal to the mask as well. -/
theorem takeLiteral_of_format {before rest : List Char} {groups : List Binding} {c' : Cursor}
    (h : (Pattern.star (.alt (.noneOf "\"\\") (.seq (.char '\\') (.one (· != '\n'))))).Matches
      (.behind before rest groups) c') :
    ∃ body rest', rest = body ++ rest' ∧ c' = .behind (before ++ body) rest' groups ∧
      ('\n' ∉ body → ∀ tail, takeLiteral '"' (body ++ '"' :: tail) = (body ++ ['"'], tail)) := by
  change Relation.ReflTransGen _ _ _ at h
  generalize hc : Cursor.behind before rest groups = c at h
  -- character by character from the left, as the literal is taken
  induction h using Relation.ReflTransGen.head_induction_on generalizing before rest with
  | refl =>
    exact ⟨[], rest, rfl, by rw [← hc, List.append_nil], fun _ => takeLiteral_quote (by decide)⟩
  | head hstep _ ih =>
    subst hc
    rcases hstep with hone | ⟨_, hslash, hany⟩
    · obtain ⟨x, rest, rfl, hx, rfl⟩ := Pattern.matches_one.mp hone
      obtain ⟨body, rest, rfl, rfl, hbody⟩ := ih rfl
      refine ⟨x :: body, rest, rfl, by rw [List.append_assoc]; rfl, fun hline tail => ?_⟩
      have hx : x ≠ '"' ∧ x ≠ '\\' := by simpa using hx
      have hnewline : x ≠ '\n' := fun heq => hline (heq ▸ List.mem_cons_self)
      rw [List.cons_append, takeLiteral_cons hx.1 hnewline hx.2 (by simp),
        hbody fun hmem => hline (List.mem_cons_of_mem _ hmem)]
      rfl
    · obtain ⟨rest, rfl, rfl⟩ := Pattern.matches_char.mp hslash
      obtain ⟨x, rest, rfl, -, rfl⟩ := Pattern.matches_one.mp hany
      obtain ⟨body, rest, rfl, rfl, hbody⟩ := ih rfl
      refine ⟨'\\' :: x :: body, rest, rfl, by simp, fun hline tail => ?_⟩
      have hline : '\n' ∉ body := fun hmem =>
        hline (List.mem_cons_of_mem _ (List.mem_cons_of_mem _ hmem))
      rw [List.cons_append, List.cons_append, takeLiteral_escape (by decide), hbody hline]
      rfl

/-! ### The targets -/

/-- The mark before a target, if it has one. -/
def addressMark (marked : Bool) : List Char := if marked then ['&'] else []

/-- A name between white space, possibly behind an address mark. -/
def IsTarget (marked : Bool) (name body : List Char) : Prop :=
  ∃ left inner right, (∀ c ∈ left, isSpace c = true) ∧ (∀ c ∈ inner, isSpace c = true) ∧
    (∀ c ∈ right, isSpace c = true) ∧ name ≠ [] ∧ (∀ c ∈ name, isWord c = true) ∧
    body = left ++ (addressMark marked ++ (inner ++ (name ++ right)))

/-- Targets, each behind a comma. -/
def joinTargets (bodies : List (List Char)) : List Char := bodies.flatMap fun body => ',' :: body

theorem matches_addressMark {before rest : List Char} {groups : List Binding} {c' : Cursor}
    (h : (Pattern.optional (.char '&')).Matches (.behind before rest groups) c') :
    ∃ marked rest', rest = addressMark marked ++ rest' ∧
      c' = .behind (before ++ addressMark marked) rest' groups := by
  rcases Pattern.matches_optional.mp h with h | rfl
  · obtain ⟨rest, rfl, rfl⟩ := Pattern.matches_char.mp h
    exact ⟨true, rest, rfl, rfl⟩
  · exact ⟨false, rest, rfl, by simp [addressMark]⟩

/-- The targets are targets, each behind a comma. -/
theorem targets_of_matches {before rest : List Char} {groups : List Binding} {c' : Cursor}
    (h : (Pattern.star (.all [.char ',', .space, .optional (.char '&'), .space, .word, .space])).Matches
      (.behind before rest groups) c') :
    ∃ bodies rest', rest = joinTargets bodies ++ rest' ∧
      c' = .behind (before ++ joinTargets bodies) rest' groups ∧
      ∀ body ∈ bodies, ∃ marked name, IsTarget marked name body := by
  change Relation.ReflTransGen _ _ _ at h
  induction h with
  | refl => exact ⟨[], rest, rfl, by simp [joinTargets], nofun⟩
  | tail _ hstep ih =>
    obtain ⟨bodies, rest, rfl, rfl, hbodies⟩ := ih
    obtain ⟨_, hcomma, _, hleft, _, hmark, _, hinner, _, hword, hright⟩ := hstep
    obtain ⟨rest, rfl, rfl⟩ := Pattern.matches_char.mp hcomma
    obtain ⟨left, rest, rfl, hleft, rfl⟩ := Pattern.matches_space.mp hleft
    obtain ⟨marked, rest, rfl, rfl⟩ := matches_addressMark hmark
    obtain ⟨inner, rest, rfl, hinner, rfl⟩ := Pattern.matches_space.mp hinner
    obtain ⟨name, rest, hne, rfl, hname, rfl⟩ := Pattern.matches_plus_one.mp hword
    obtain ⟨right, rest, rfl, hright, rfl⟩ := Pattern.matches_space.mp hright
    refine ⟨bodies ++ [left ++ (addressMark marked ++ (inner ++ (name ++ right)))], rest, ?_, ?_, ?_⟩
    · simp [joinTargets]
    · simp [joinTargets]
    · intro body hbody
      rcases List.mem_append.mp hbody with hbody | hbody
      · exact hbodies body hbody
      · rw [List.mem_singleton] at hbody
        refine ⟨marked, name, left, inner, right, ?_, ?_, ?_, hne, hname, hbody⟩ <;> assumption

/-! ### The names of targets -/

/-- The names of targets without an address mark. -/
def bareScanTargets (targets : List Char) : List String :=
  ((splitOn ',' targets).filter fun t =>
    !(strip t).isEmpty && (strip t).head? != some '&').map fun t => String.ofList (strip t)

theorem splitOn_joinTargets {bodies : List (List Char)} (h : ∀ body ∈ bodies, ',' ∉ body) :
    splitOn ',' (joinTargets bodies) = [] :: bodies := by
  induction bodies with
  | nil => rfl
  | cons body bodies ih =>
    have hrest := ih fun other hother => h other (List.mem_cons_of_mem _ hother)
    have hbody := splitOn_append_of_notMem (h body List.mem_cons_self) hrest
    rw [List.append_nil] at hbody
    change splitOn ',' (',' :: (body ++ joinTargets bodies)) = _
    rw [splitOn, if_pos rfl, hbody]

/-- White space around a text that neither begins nor ends with it. -/
theorem strip_of_blanks {left text right : List Char} (hleft : ∀ c ∈ left, isSpace c = true)
    (hright : ∀ c ∈ right, isSpace c = true)
    (hfirst : ∃ c more, text = c :: more ∧ isSpace c = false)
    (hlast : ∃ c more, text = more ++ [c] ∧ isSpace c = false) :
    strip (left ++ (text ++ right)) = text := by
  obtain ⟨c, more, hfirst, hc⟩ := hfirst
  obtain ⟨d, front, rfl, hd⟩ := hlast
  have hstays : stripLeft (front ++ [d]) = front ++ [d] := by
    rw [hfirst]
    exact List.dropWhile_cons_of_neg (by simp [hc])
  rw [strip_blanks_append hleft, strip_append_blanks hright, strip, hstays, stripRight_concat front hd]

theorem isSpace_ends_of_word {name : List Char} (hne : name ≠ []) (h : ∀ c ∈ name, isWord c = true) :
    (∃ c more, name = c :: more ∧ isSpace c = false) ∧
      ∃ c more, name = more ++ [c] ∧ isSpace c = false := by
  refine ⟨?_, ?_⟩
  · obtain ⟨c, more, rfl⟩ := List.exists_cons_of_ne_nil hne
    exact ⟨c, more, rfl, not_isSpace_of_isWord (h c List.mem_cons_self)⟩
  · have hlast := List.dropLast_concat_getLast hne
    exact ⟨_, _, hlast.symm, not_isSpace_of_isWord (h _ (List.getLast_mem hne))⟩

/-- No address mark stands before a name, nor before the white space in front of it. -/
theorem strip_dropWhile_of_word {blanks name : List Char} (hblanks : ∀ c ∈ blanks, isSpace c = true)
    (hne : name ≠ []) (hname : ∀ c ∈ name, isWord c = true) :
    strip ((blanks ++ name).dropWhile (· == '&')) = name := by
  obtain ⟨hfirst, hlast⟩ := isSpace_ends_of_word hne hname
  have hstays : (blanks ++ name).dropWhile (· == '&') = blanks ++ name := by
    cases htext : blanks ++ name with
    | nil => rfl
    | cons c rest =>
      have hc : c ≠ '&' := by
        rintro rfl
        rcases List.mem_append.mp (htext ▸ List.mem_cons_self) with hmem | hmem
        · exact absurd (hblanks '&' hmem) (by decide)
        · exact absurd (hname '&' hmem) (by decide)
      exact List.dropWhile_cons_of_neg (by simpa using hc)
  have hstrip := strip_of_blanks hblanks (List.forall_mem_nil _) hfirst hlast
  rw [List.append_nil] at hstrip
  rw [hstays, hstrip]

namespace IsTarget

variable {marked : Bool} {name body : List Char}

theorem strip_eq (h : IsTarget false name body) : strip body = name := by
  obtain ⟨left, inner, right, hleft, hinner, hright, hne, hname, rfl⟩ := h
  obtain ⟨hfirst, hlast⟩ := isSpace_ends_of_word hne hname
  have hblanks : ∀ c ∈ left ++ inner, isSpace c = true := fun c hc =>
    (List.mem_append.mp hc).elim (hleft c) (hinner c)
  have hstrip := strip_of_blanks hblanks hright hfirst hlast
  rwa [List.append_assoc] at hstrip

/-- Behind its address mark, if it has one, a target is its name. -/
theorem strip_dropWhile_strip (h : IsTarget marked name body) :
    strip ((strip body).dropWhile (· == '&')) = name := by
  cases marked with
  | false =>
    rw [h.strip_eq]
    obtain ⟨-, -, -, -, -, -, hne, hname, -⟩ := h
    exact strip_dropWhile_of_word (List.forall_mem_nil _) hne hname
  | true =>
    obtain ⟨left, inner, right, hleft, hinner, hright, hne, hname, rfl⟩ := h
    obtain ⟨-, c, more, hlast, hc⟩ := isSpace_ends_of_word hne hname
    have hmarked := strip_of_blanks hleft hright ⟨'&', inner ++ name, rfl, by decide⟩
      ⟨c, '&' :: (inner ++ more), by rw [hlast]; simp, hc⟩
    have hbody : left ++ (addressMark true ++ (inner ++ (name ++ right))) =
        left ++ ('&' :: (inner ++ name) ++ right) := by simp [addressMark]
    rw [hbody, hmarked, List.dropWhile_cons_of_pos (by decide)]
    exact strip_dropWhile_of_word hinner hne hname

theorem comma_notMem (h : IsTarget marked name body) : ',' ∉ body := by
  obtain ⟨left, inner, right, hleft, hinner, hright, -, hname, rfl⟩ := h
  have hmark : ',' ∉ addressMark marked := by cases marked <;> decide
  simp only [List.mem_append, not_or]
  refine ⟨fun h => ?_, hmark, fun h => ?_, fun h => ?_, fun h => ?_⟩
  · exact absurd (hleft _ h) (by decide)
  · exact absurd (hinner _ h) (by decide)
  · exact absurd (hname _ h) (by decide)
  · exact absurd (hright _ h) (by decide)

end IsTarget

/-- A name that is stored to is that of a target with an address mark, or is bare. -/
theorem exists_target {bodies : List (List Char)} {name : String}
    (hbodies : ∀ body ∈ bodies, ∃ marked name, IsTarget marked name body)
    (hname : name ∈ scanTargets (joinTargets bodies))
    (hbare : name ∉ bareScanTargets (joinTargets bodies)) :
    ∃ body ∈ bodies, IsTarget true name.toList body := by
  have hsplit : splitOn ',' (joinTargets bodies) = [] :: bodies := by
    refine splitOn_joinTargets fun body hbody => ?_
    obtain ⟨_, _, htarget⟩ := hbodies body hbody
    exact htarget.comma_notMem
  simp only [scanTargets, hsplit, List.mem_map, List.mem_filter] at hname
  simp only [bareScanTargets, hsplit, List.mem_map, List.mem_filter] at hbare
  obtain ⟨body, ⟨hmem, hne⟩, rfl⟩ := hname
  rcases List.mem_cons.mp hmem with rfl | hmem
  · cases hne
  obtain ⟨marked, name, htarget⟩ := hbodies body hmem
  rw [htarget.strip_dropWhile_strip] at hbare ⊢
  cases marked with
  | true => exact ⟨body, hmem, by rwa [String.toList_ofList]⟩
  | false =>
    refine absurd ⟨body, ⟨List.mem_cons_of_mem _ hmem, ?_⟩, by rw [htarget.strip_eq]⟩ hbare
    obtain ⟨-, -, -, -, -, -, hne, hname, -⟩ := id htarget
    rw [htarget.strip_eq, Bool.and_eq_true, Bool.not_eq_true', bne_iff_ne, List.isEmpty_eq_false_iff]
    refine ⟨hne, fun hhead => ?_⟩
    exact absurd (hname '&' (List.mem_of_head? hhead)) (by decide)

/-! ### The statement -/

/-- The format as a group. -/
theorem format_of_matches {before rest : List Char} {groups : List Binding} {c' : Cursor}
    (h : (Pattern.group 1 (.all [.char '"',
      .star (.alt (.noneOf "\"\\") (.seq (.char '\\') (.one (· != '\n')))), .char '"'])).Matches
      (.behind before rest groups) c') :
    ∃ body rest', rest = '"' :: (body ++ ['"']) ++ rest' ∧
      c' = .behind (before ++ '"' :: (body ++ ['"'])) rest'
        (⟨1, '"' :: (body ++ ['"']) ++ rest', rest'⟩ :: groups) ∧
      ('\n' ∉ body → ∀ tail, takeLiteral '"' (body ++ '"' :: tail) = (body ++ ['"'], tail)) := by
  obtain ⟨_, ⟨_, hopen, _, hbody, hclose⟩, rfl⟩ := Pattern.matches_group.mp h
  obtain ⟨rest, rfl, rfl⟩ := Pattern.matches_char.mp hopen
  obtain ⟨body, rest, rfl, rfl, htake⟩ := takeLiteral_of_format hbody
  obtain ⟨rest, rfl, rfl⟩ := Pattern.matches_char.mp hclose
  exact ⟨body, rest, by simp, by simp [Cursor.behind], htake⟩

/-- The targets as a group. -/
theorem targetGroup_of_matches {before rest : List Char} {groups : List Binding} {c' : Cursor}
    (h : (Pattern.group 2 (.star (.all [.char ',', .space, .optional (.char '&'), .space, .word,
      .space]))).Matches (.behind before rest groups) c') :
    ∃ bodies rest', rest = joinTargets bodies ++ rest' ∧
      c' = .behind (before ++ joinTargets bodies) rest'
        (⟨2, joinTargets bodies ++ rest', rest'⟩ :: groups) ∧
      ∀ body ∈ bodies, ∃ marked name, IsTarget marked name body := by
  obtain ⟨_, htargets, rfl⟩ := Pattern.matches_group.mp h
  obtain ⟨bodies, rest, rfl, rfl, hbodies⟩ := targets_of_matches htargets
  exact ⟨bodies, rest, rfl, rfl, hbodies⟩

/-- A `scanf`, with its format and its targets. -/
theorem scanf_spec {text format targets : List Char}
    (h : Statement.ofText text = .scanf format targets) :
    ∃ start body blanks bodies rest, (∀ c ∈ start, IsCode c) ∧
      text = start ++ ('"' :: (body ++ ['"']) ++ (blanks ++ (joinTargets bodies ++ ')' :: rest))) ∧
      format = '"' :: (body ++ ['"']) ∧
      ('\n' ∉ body → ∀ tail, takeLiteral '"' (body ++ '"' :: tail) = (body ++ ['"'], tail)) ∧
      (∀ c ∈ blanks, isSpace c = true) ∧ targets = joinTargets bodies ∧
      ∀ body ∈ bodies, ∃ marked name, IsTarget marked name body := by
  obtain ⟨m, hmatch, hformat, htargets⟩ := Statement.ofText_eq_scanf h
  have hways := Pattern.matches_of_match? hmatch
  obtain ⟨_, ⟨_, hword, _, hspace₁, hopen⟩, _, hspace₂, _, hliteral, _, hspace₃, _, hnames, _, hclose,
    -, hafter⟩ := hways
  obtain ⟨rest, rfl, rfl⟩ := Pattern.matches_text.mp hword
  obtain ⟨blanks₁, rest, rfl, hblanks₁, rfl⟩ := Pattern.matches_space.mp hspace₁
  obtain ⟨rest, rfl, rfl⟩ := Pattern.matches_char.mp hopen
  obtain ⟨blanks₂, rest, rfl, hblanks₂, rfl⟩ := Pattern.matches_space.mp hspace₂
  obtain ⟨body, rest, rfl, rfl, htake⟩ := format_of_matches hliteral
  obtain ⟨blanks, rest, rfl, hblanks, rfl⟩ := Pattern.matches_space.mp hspace₃
  obtain ⟨bodies, rest, rfl, rfl, hbodies⟩ := targetGroup_of_matches hnames
  obtain ⟨rest, rfl, rfl⟩ := Pattern.matches_char.mp hclose
  have hone : m.group 1 = '"' :: (body ++ ['"']) := by
    rw [Match.group, Match.group?, hafter, Cursor.group?_behind_of_ne (by decide),
      Cursor.group?_behind_self, Option.getD_some]
  have htwo : m.group 2 = joinTargets bodies := by
    rw [Match.group, Match.group?, hafter, Cursor.group?_behind_self, Option.getD_some]
  refine ⟨"scanf".toList ++ (blanks₁ ++ '(' :: blanks₂), body, blanks, bodies, rest, ?_, ?_,
    hformat.trans hone, htake, hblanks, htargets.trans htwo, hbodies⟩
  · have hword : ∀ c ∈ "scanf".toList, IsCode c := by decide
    intro c hc
    rw [List.mem_append, List.mem_append, List.mem_cons] at hc
    rcases hc with hc | hc | rfl | hc
    · exact hword c hc
    · exact isCode_of_isSpace (hblanks₁ c hc)
    · decide
    · exact isCode_of_isSpace (hblanks₂ c hc)
  · simp only [List.append_assoc, List.cons_append]

/-- White space, a comma and a parenthesis close a name. -/
theorem closesName_append {blanks rest : List Char} (hblanks : ∀ c ∈ blanks, isSpace c = true)
    (hrest : ClosesName rest) : ClosesName (blanks ++ rest) := by
  cases blanks with
  | nil => exact hrest
  | cons b blanks =>
    intro c hc
    obtain rfl := Option.some.inj hc
    exact (extendsName_of_isSpace (hblanks b List.mem_cons_self)).1

/-- Behind a comma and white space an ampersand takes an address. -/
theorem opensAddress_getD {blanks : List Char} (h : ∀ c ∈ blanks, isSpace c = true) :
    extendsName (blanks.getLast?.getD ',') = false ∧ blanks.getLast?.getD ',' ≠ '&' ∧
      blanks.getLast?.getD ',' ≠ ')' ∧ blanks.getLast?.getD ',' ≠ ']' := by
  cases hlast : blanks.getLast? with
  | none => decide
  | some b =>
    have hb := h b (List.mem_of_getLast? hlast)
    refine ⟨(extendsName_of_isSpace hb).1, ?_, ?_, ?_⟩ <;> rintro rfl <;> exact absurd hb (by decide)

theorem IsTarget.isCode {marked : Bool} {name body : List Char} (h : IsTarget marked name body) :
    ∀ c ∈ body, IsCode c := by
  obtain ⟨left, inner, right, hleft, hinner, hright, -, hname, rfl⟩ := h
  have hmark : ∀ c ∈ addressMark marked, IsCode c := by cases marked <;> decide
  simp only [List.forall_mem_append]
  exact ⟨fun c hc => isCode_of_isSpace (hleft c hc), hmark, fun c hc => isCode_of_isSpace (hinner c hc),
    fun c hc => isCode_of_class (by decide) (by decide) (by decide) (hname c hc),
    fun c hc => isCode_of_isSpace (hright c hc)⟩

theorem isCode_joinTargets {bodies : List (List Char)}
    (h : ∀ body ∈ bodies, ∃ marked name, IsTarget marked name body) :
    ∀ c ∈ joinTargets bodies, IsCode c := by
  intro c hc
  obtain ⟨body, hbody, hc⟩ := List.mem_flatMap.mp hc
  obtain ⟨_, _, htarget⟩ := h body hbody
  rcases List.mem_cons.mp hc with rfl | hc
  · decide
  · exact htarget.isCode c hc

/-- A target with an address mark is mentioned, unless the format has a line break. -/
theorem assigns_of_scanTarget {text format targets : List Char} {name : String}
    (h : Statement.ofText text = .scanf format targets) (hline : '\n' ∉ format)
    (hname : name ∈ scanTargets targets) (hbare : name ∉ bareScanTargets targets) :
    assigns (mask text) name = true := by
  obtain ⟨start, body, blanks, bodies, rest, hstart, rfl, rfl, htake, hblanks, rfl, hbodies⟩ :=
    scanf_spec h
  have hliteral : Settled ('"' :: (body ++ ['"'])) := by
    refine settled_literal (by decide) fun tail => ?_
    rw [List.append_assoc]
    exact htake (fun hmem => hline (by simp [hmem])) tail
  obtain ⟨target, htarget, hmarked⟩ := exists_target hbodies hname hbare
  obtain ⟨bodies₁, bodies₂, rfl⟩ := List.append_of_mem htarget
  obtain ⟨left, inner, right, hleft, hinner, hright, -, hword, rfl⟩ := hmarked
  have hbefore := isCode_joinTargets hbodies
  have hparen : IsCode ')' := by decide
  rw [mask_append_of_code hstart, hliteral,
    mask_append_of_code fun c hc => isCode_of_isSpace (hblanks c hc), mask_append_of_code hbefore,
    mask_cons hparen, assigns_iff]
  generalize mask ('"' :: (body ++ ['"'])) = literal, mask rest = tail
  refine ⟨start ++ literal ++ blanks ++ joinTargets bodies₁ ++ ',' :: left ++ '&' :: inner,
    right ++ (joinTargets bodies₂ ++ ')' :: tail), ?_, Or.inr ⟨.address (fun c hc => ?_) hinner, ?_⟩⟩
  · simp [joinTargets, addressMark]
  · rw [List.getLast?_append, List.getLast?_cons, Option.some_or, Option.some.injEq] at hc
    subst hc
    exact opensAddress_getD hleft
  · refine closesName_append hright ?_
    intro c hc
    cases bodies₂ with
    | nil =>
      obtain rfl := Option.some.inj hc
      decide
    | cons body bodies₂ =>
      obtain rfl := Option.some.inj hc
      decide

end Coach.Program
