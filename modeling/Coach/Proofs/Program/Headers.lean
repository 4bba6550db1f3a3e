import Coach.Proofs.Program.OpenPrints
import Coach.Proofs.Text.Parts

/-!
# The headers of a program whose lines are ended

The check of a program's shape asks for headers before it looks at print statements, and it looks for them
in the whole masked text, newlines included.  A semicolon at the end of a line could therefore break a
header that reaches over that end, or make one.  This module says that it hardly does.

* At the end of a reported line a parenthesis stands, and no header reaches over it.
* Before a reported line the header of a main function stays: in C everything up to a parenthesis is a
  parameter, and in Java the dots of the print statement would have to be those of `String...`.
* A class header may be broken there, as `class` and the name may stand in two lines.  This matters in Java
  only, where the header is asked for.

## Main definitions

* `Crosses`: a text of a pattern that reaches over a place
* `KeepsClass`: a class declaration where one is needed

## Main statements

* `IsHeader.occursIn_or_crosses`: what reaches over no place stays
* `HasHeadersOf.semicolon_masked`: a masked semicolon on a reported line
* `hasHeadersOf_semicolon_above_iff`: a semicolon on the line before
-/

namespace Coach.Program

open Coach.Source Coach.Text

/-! ### Patterns that reach over a place -/

/-- A text of the patterns reaches over the place between two texts. -/
def Crosses (ps : List Pattern) (left right : List Char) : Prop := ∃ before start stop after,
  left = before ++ start ∧ right = stop ++ after ∧ stop ≠ [] ∧
    (∀ c, before.getLast? = some c → isWord c = false) ∧
    (∃ c more, start = c :: more ∧ isWord c = true) ∧ (Pattern.all ps).Takes (start ++ stop)

/-- A header is told by words, and begins with one. -/
structure IsHeader (ps : List Pattern) : Prop where
  ne_nil : ps ≠ []
  plain : (Pattern.all ps).Plain
  steady : (Pattern.all ps).Steady
  begins : ∀ taken, (Pattern.all ps).Takes taken → ∃ c more, taken = c :: more ∧ isWord c = true

section Crossing

variable {ps : List Pattern} {left shown shown' right : List Char}

theorem IsHeader.occursIn_iff (hps : IsHeader ps) (text : List Char) :
    (Pattern.all (.boundary :: ps)).occursIn text = true ↔ ∃ before taken after,
      text = before ++ (taken ++ after) ∧ (∀ c, before.getLast? = some c → isWord c = false) ∧
        (Pattern.all ps).Takes taken :=
  Pattern.occursIn_boundary_iff hps.ne_nil hps.plain hps.steady hps.begins text

/-- Where a header stands, it stands also when something without words is changed, unless it reaches over
the place of the change. -/
theorem IsHeader.occursIn_or_crosses (hps : IsHeader ps) (hshown : ∀ c ∈ shown, isWord c = false)
    (hright : LineEnd right)
    (h : (Pattern.all (.boundary :: ps)).occursIn (left ++ (shown ++ right)) = true) :
    (Pattern.all (.boundary :: ps)).occursIn (left ++ (shown' ++ right)) = true ∨
      Crosses ps left (shown ++ right) := by
  have hiff := hps.occursIn_iff
  obtain ⟨before, taken, after, heq, hbefore, htaken⟩ := (hiff _).mp h
  obtain ⟨c, more, rfl, hc⟩ := hps.begins taken htaken
  have hnot : c ∉ shown := fun hmem => by
    rw [hshown c hmem] at hc
    cases hc
  rcases exists_beside hnot heq with ⟨gap, rfl, hafter⟩ | ⟨gap, rfl, hrest⟩
  · -- the header stands behind the place, and not right behind it
    obtain ⟨gap, last, rfl⟩ := (List.eq_nil_or_concat gap).resolve_left <| by
      rintro rfl
      rw [hright c (by rw [hafter]; rfl)] at hc
      exact absurd hc (by decide)
    refine Or.inl ((hiff _).mpr ⟨left ++ (shown' ++ gap.concat last), c :: more, after, ?_, ?_, htaken⟩)
    · rw [hafter]
      simp
    · simpa using hbefore
  · rcases List.append_eq_append_iff.mp hrest with ⟨rest, rfl, rfl⟩ | ⟨stop, rfl, hstop⟩
    · -- the header stands before the place
      exact Or.inl ((hiff _).mpr ⟨before, c :: more, rest ++ (shown' ++ right), by simp, hbefore, htaken⟩)
    · cases stop with
      | nil =>
        rw [List.append_nil] at htaken
        exact Or.inl ((hiff _).mpr ⟨before, c :: gap, shown' ++ right, by simp, hbefore, htaken⟩)
      | cons d stop =>
        exact Or.inr ⟨before, c :: gap, d :: stop, after, rfl, hstop, List.cons_ne_nil _ _, hbefore,
          ⟨c, gap, rfl, hc⟩, htaken⟩

end Crossing

/-! ### The three headers -/

/-- What a class declaration says. -/
def classWords : List Pattern := [.text "class", .space1, .word]

/-- What the header of a main function says up to the place at which its parameters begin. -/
def mainOpening : Dialect → List Pattern
  | .java => [
      .alt (.all [.text "public", .space1, .text "static"]) (.all [.text "static", .space1, .text "public"]),
      .space1, .text "void", .space1, .text "main", .space, .char '(', .space,
      .optional (.seq (.text "final") .space1), .text "String"]
  | .c => [.alt (.text "int") (.text "void"), .space1, .text "main", .space, .char '(']

/-- The parameters of a main function. -/
def mainParameters : Dialect → List Pattern
  | .java => [.space,
      .anyPattern [
        .all [.char '[', .space, .char ']', .space, .word],
        .all [.word, .space, .char '[', .space, .char ']'],
        .all [.text "...", .space, .word]],
      .space]
  | .c => [.star (.one (· != ')'))]

/-- What the header of a main function says. -/
def mainWords (dialect : Dialect) : List Pattern :=
  mainOpening dialect ++ (mainParameters dialect ++ [.char ')'])

theorem classHeader_eq : classHeader = .all (.boundary :: classWords) := rfl

theorem mainHeader_eq (dialect : Dialect) : mainHeader dialect = .all (.boundary :: mainWords dialect) := by
  cases dialect <;> rfl

theorem plain_space1 : Pattern.space1.Plain := ⟨trivial, trivial⟩

theorem steady_space1 : Pattern.space1.Steady := ⟨trivial, Pattern.steady_star_one _⟩

theorem steady_word : Pattern.word.Steady := ⟨trivial, Pattern.steady_star_one _⟩

theorem isHeader_class : IsHeader classWords where
  ne_nil := List.cons_ne_nil _ _
  plain := by
    simp [classWords, Pattern.all, Pattern.Plain, Pattern.plain_text, plain_space1, Pattern.plain_word]
  steady := by
    simp [classWords, Pattern.all, Pattern.Steady, Pattern.steady_text, steady_space1, steady_word]
  begins := by
    rintro _ ⟨_, rest, rfl, hclass, -⟩
    obtain rfl := Pattern.takes_text.mp hclass
    exact ⟨'c', "lass".toList ++ rest, rfl, by decide⟩

theorem isHeader_main (dialect : Dialect) : IsHeader (mainWords dialect) where
  ne_nil := by cases dialect <;> exact List.cons_ne_nil _ _
  plain := by
    cases dialect <;>
      simp [mainWords, mainOpening, mainParameters, Pattern.all, Pattern.Plain, Pattern.plain_text,
        plain_space1, Pattern.plain_word, Pattern.space, Pattern.char, Pattern.optional, Pattern.anyPattern]
  steady := by
    have hstar := (Pattern.steady_star_one fun c => c != ')').2
    cases dialect with
    | java =>
      simp [mainWords, mainOpening, mainParameters, Pattern.all, Pattern.Steady, Pattern.steady_text,
        steady_space1, steady_word, Pattern.steady_space, Pattern.char, Pattern.optional,
        Pattern.anyPattern]
    | c =>
      simpa [mainWords, mainOpening, mainParameters, Pattern.all, Pattern.Steady, Pattern.steady_text,
        steady_space1, Pattern.steady_space, Pattern.char] using hstar
  begins := by
    cases dialect with
    | java =>
      rintro _ ⟨_, rest, rfl, ⟨_, more, rfl, hword, -⟩ | ⟨_, more, rfl, hword, -⟩, -⟩
      · obtain rfl := Pattern.takes_text.mp hword
        exact ⟨'p', "ublic".toList ++ more ++ rest, rfl, by decide⟩
      · obtain rfl := Pattern.takes_text.mp hword
        exact ⟨'s', "tatic".toList ++ more ++ rest, rfl, by decide⟩
    | c =>
      rintro _ ⟨_, rest, rfl, hword | hword, -⟩
      · obtain rfl := Pattern.takes_text.mp hword
        exact ⟨'i', "nt".toList ++ rest, rfl, by decide⟩
      · obtain rfl := Pattern.takes_text.mp hword
        exact ⟨'v', "oid".toList ++ rest, rfl, by decide⟩

/-! ### What headers say -/

section Words

variable {dialect : Dialect} {taken : List Char}

/-- A class declaration is a word, white space and a name. -/
theorem takes_classWords : (Pattern.all classWords).Takes taken ↔ ∃ blanks name,
    taken = "class".toList ++ (blanks ++ name) ∧ blanks ≠ [] ∧ (∀ c ∈ blanks, isSpace c = true) ∧
      name ≠ [] ∧ ∀ c ∈ name, isWord c = true := by
  constructor
  · rintro ⟨_, _, rfl, hclass, blanks, name, rfl, hblanks, hname⟩
    obtain rfl := Pattern.takes_text.mp hclass
    obtain ⟨hne, hblanks⟩ := Pattern.takes_plus_one.mp hblanks
    obtain ⟨hne', hname⟩ := Pattern.takes_plus_one.mp hname
    exact ⟨blanks, name, rfl, hne, hblanks, hne', hname⟩
  · rintro ⟨blanks, name, rfl, hne, hblanks, hne', hname⟩
    exact ⟨_, _, rfl, Pattern.takes_text.mpr rfl, blanks, name, rfl,
      Pattern.takes_plus_one.mpr ⟨hne, hblanks⟩, Pattern.takes_plus_one.mpr ⟨hne', hname⟩⟩

/-- The header of a main function is an opening, its parameters and a parenthesis. -/
theorem takes_mainWords : (Pattern.all (mainWords dialect)).Takes taken ↔ ∃ opening parameters,
    taken = opening ++ (parameters ++ [')']) ∧ (Pattern.all (mainOpening dialect)).Takes opening ∧
      (Pattern.all (mainParameters dialect)).Takes parameters := by
  rw [mainWords, Pattern.takes_all_append (by simp)]
  constructor
  · rintro ⟨opening, _, rfl, hopening, hrest⟩
    obtain ⟨parameters, _, rfl, hparameters, hclose⟩ :=
      (Pattern.takes_all_append (List.cons_ne_nil _ _)).mp hrest
    obtain rfl := Pattern.takes_char.mp hclose
    exact ⟨opening, parameters, rfl, hopening, hparameters⟩
  · rintro ⟨opening, parameters, rfl, hopening, hparameters⟩
    exact ⟨opening, _, rfl, hopening, (Pattern.takes_all_append (List.cons_ne_nil _ _)).mpr
      ⟨parameters, _, rfl, hparameters, Pattern.takes_char.mpr rfl⟩⟩

/-- A parenthesis closes the header of a main function, and there is none before. -/
theorem notMem_of_takes_mainWords {opening parameters : List Char}
    (hopening : (Pattern.all (mainOpening dialect)).Takes opening)
    (hparameters : (Pattern.all (mainParameters dialect)).Takes parameters) :
    ')' ∉ opening ++ parameters := by
  have hwithin : (Pattern.all (mainOpening dialect)).Within (· ≠ ')') ∧
      (Pattern.all (mainParameters dialect)).Within (· ≠ ')') := by
    cases dialect <;>
      simp only [mainOpening, mainParameters, Pattern.all, Pattern.Within, Pattern.optional,
        Pattern.anyPattern, Pattern.within_text_iff, Pattern.within_char_iff, Pattern.within_space_iff,
        Pattern.within_space1_iff, Pattern.within_word_iff, bne_iff_ne, imp_self, implies_true] <;>
      decide
  rw [List.mem_append, not_or]
  exact ⟨fun h => hopening.within hwithin.1 _ h rfl, fun h => hparameters.within hwithin.2 _ h rfl⟩

/-- The last character of the opening of a main function. -/
def mainLast : Dialect → Char
  | .java => 'g'
  | .c => '('

/-- A character that a print statement has early and the opening of a main function has not. -/
def printMark : Dialect → Char
  | .java => '.'
  | .c => 'p'

theorem mainOpening_spec {opening : List Char} (h : (Pattern.all (mainOpening dialect)).Takes opening) :
    printMark dialect ∉ opening ∧ ∃ before, opening = before ++ [mainLast dialect] := by
  have hwithin : (Pattern.all (mainOpening dialect)).Within (· ≠ printMark dialect) := by
    cases dialect <;>
      simp only [mainOpening, Pattern.all, Pattern.Within, Pattern.optional, Pattern.within_text_iff,
        Pattern.within_char_iff, Pattern.within_space_iff, Pattern.within_space1_iff, printMark] <;>
      decide
  refine ⟨fun hmem => h.within hwithin _ hmem rfl, ?_⟩
  obtain ⟨front, last, hsplit, hlast⟩ : ∃ front last, mainOpening dialect = front ++ [last] ∧
      ∀ text, last.Takes text → ∃ before, text = before ++ [mainLast dialect] := by
    cases dialect with
    | java =>
      refine ⟨(mainOpening .java).dropLast, .text "String", rfl, fun text htext => ?_⟩
      exact ⟨"Strin".toList, Pattern.takes_text.mp htext⟩
    | c =>
      refine ⟨(mainOpening .c).dropLast, .char '(', rfl, fun text htext => ?_⟩
      exact ⟨[], Pattern.takes_char.mp htext⟩
  rw [hsplit, Pattern.takes_all_append (List.cons_ne_nil _ _)] at h
  obtain ⟨one, two, rfl, -, htwo⟩ := h
  obtain ⟨before, rfl⟩ := hlast two htwo
  exact ⟨one ++ before, by rw [List.append_assoc]⟩

/-- The opening of a Java print statement has two dots, and a name between them. -/
theorem exists_dots_of_takes {opening : List Char} (h : (Pattern.all (printOpening .java)).Takes opening) :
    ∃ before between after, opening = before ++ '.' :: (between ++ '.' :: after) ∧
      'g' ∉ before ∧ between ≠ [] ∧ '.' ∉ between := by
  obtain ⟨one, _, rfl, hone, _, _, rfl, hsystem, two, _, rfl, htwo, _, _, rfl, hdot, three, _, rfl, hthree,
    _, _, rfl, hout, four, _, rfl, hfour, _, after, rfl, hdot', -⟩ := h
  obtain rfl := Pattern.takes_text.mp hsystem
  obtain rfl := Pattern.takes_text.mp hout
  obtain rfl := Pattern.takes_char.mp hdot
  obtain rfl := Pattern.takes_char.mp hdot'
  have hblank : ∀ {blanks : List Char} {c : Char}, Pattern.space.Takes blanks → isSpace c = false →
      c ∉ blanks := by
    intro blanks c hblanks hc hmem
    rw [Pattern.takes_space.mp hblanks c hmem] at hc
    cases hc
  refine ⟨one ++ ("System".toList ++ two), three ++ ("out".toList ++ four), after, by simp, ?_, by simp, ?_⟩
  · simp [hblank hone, hblank htwo, show isSpace 'g' = false by decide]
  · simp [hblank hthree, hblank hfour, show isSpace '.' = false by decide]

/-- What stands before the mark of a print statement. -/
theorem printOpening_spec {opening : List Char} (h : (Pattern.all (printOpening dialect)).Takes opening) :
    ')' ∉ opening ∧ ∃ before more, opening = before ++ printMark dialect :: more ∧
      mainLast dialect ∉ before := by
  have hwithin : (Pattern.all (printOpening dialect)).Within (· ≠ ')') := by
    cases dialect <;>
      simp only [printOpening, Pattern.all, Pattern.Within, Pattern.optional, Pattern.within_text_iff,
        Pattern.within_char_iff, Pattern.within_space_iff] <;>
      decide
  refine ⟨fun hmem => h.within hwithin _ hmem rfl, ?_⟩
  cases dialect with
  | java =>
    obtain ⟨before, between, after, rfl, hbefore, -⟩ := exists_dots_of_takes h
    exact ⟨before, between ++ '.' :: after, rfl, hbefore⟩
  | c =>
    obtain ⟨blanks, more, rfl, hblanks⟩ := exists_initial_of_takes h
    exact ⟨blanks, more, rfl, fun hmem => absurd (hblanks _ hmem) (by decide)⟩

/-- The parameters of a Java main function have no dots but those before the name. -/
theorem dots_of_takes_mainParameters {taken : List Char}
    (h : (Pattern.all (mainParameters .java)).Takes taken) : ∃ one two,
    (taken = one ++ two ∨ taken = one ++ ("...".toList ++ two)) ∧ '.' ∉ one ∧ '.' ∉ two := by
  have hnot : ∀ {p : Pattern} {text : List Char}, p.Within (· ≠ '.') → p.Takes text → '.' ∉ text :=
    fun hwithin h hmem => h.within hwithin '.' hmem rfl
  have hspace : ∀ {text : List Char}, Pattern.space.Takes text → '.' ∉ text :=
    hnot (Pattern.within_space_iff.mpr (by decide))
  obtain ⟨one, _, rfl, hone, two, three, rfl, htwo, hthree⟩ := h
  have hname : '.' ∉ two ∨ ∃ rest, two = "...".toList ++ rest ∧ '.' ∉ rest := by
    rcases htwo with hbrackets | hbrackets | ⟨_, rest, rfl, hdots, hrest⟩
    · refine Or.inl (hnot ?_ hbrackets)
      simp only [Pattern.all, Pattern.Within, Pattern.within_char_iff, Pattern.within_space_iff,
        Pattern.within_word_iff]
      decide
    · refine Or.inl (hnot ?_ hbrackets)
      simp only [Pattern.all, Pattern.Within, Pattern.within_char_iff, Pattern.within_space_iff,
        Pattern.within_word_iff]
      decide
    · refine Or.inr ⟨rest, by rw [Pattern.takes_text.mp hdots], hnot (p := .all [.space, .word]) ?_ hrest⟩
      simp only [Pattern.all, Pattern.Within, Pattern.within_space_iff, Pattern.within_word_iff]
      decide
  rcases hname with hname | ⟨rest, rfl, hrest⟩
  · exact ⟨one, two ++ three, Or.inl rfl, hspace hone, by simp [hname, hspace hthree]⟩
  · exact ⟨one, rest ++ three, Or.inr (by simp), hspace hone, by simp [hrest, hspace hthree]⟩

/-- The parameters of a Java main function have no two dots with something else between. -/
theorem not_takes_of_dots {before between after : List Char} (hne : between ≠ []) (hdot : '.' ∉ between) :
    ¬ (Pattern.all (mainParameters .java)).Takes (before ++ '.' :: (between ++ '.' :: after)) := by
  intro h
  obtain ⟨one, two, heq, hone, htwo⟩ := dots_of_takes_mainParameters h
  obtain ⟨c, between, rfl⟩ := List.exists_cons_of_ne_nil hne
  rcases heq with heq | heq
  · have hmem : '.' ∈ one ++ two := by simp [← heq]
    exact (List.mem_append.mp hmem).elim hone htwo
  · -- the first of the two dots stands before all three, between two of them, or behind
    obtain ⟨more, -, hcut⟩ := exists_of_append_cons hone heq.symm
    have hthree : '.' :: '.' :: '.' :: two = more ++ '.' :: (c :: between ++ '.' :: after) := hcut
    rcases more with _ | ⟨_, _ | ⟨_, _ | ⟨_, more⟩⟩⟩ <;>
      simp only [List.nil_append, List.cons_append, List.cons.injEq] at hthree
    · exact hdot (List.mem_cons.mpr (Or.inl hthree.2.1))
    · exact hdot (List.mem_cons.mpr (Or.inl hthree.2.2.1))
    · exact htwo (by simp [hthree.2.2.2])
    · exact htwo (by simp [hthree.2.2.2])

end Words

/-! ### Headers over the end of a line -/

section Places

variable {dialect : Dialect} {left shown shown' rest : List Char}

/-- A text that is reached over from a word on has at the end of that part what it ends with. -/
theorem mem_start_of_ends {before start front more : List Char} {c : Char}
    (h : before ++ start = front ++ c :: more) (hmore : ∀ x ∈ more, isSpace x = true)
    (hstart : ∃ d rest, start = d :: rest ∧ isWord d = true) : c ∈ start := by
  obtain ⟨d, rest, rfl, hd⟩ := hstart
  rcases List.append_eq_append_iff.mp h with ⟨gap, rfl, hgap⟩ | ⟨gap, rfl, hgap⟩
  · rw [hgap]
    simp
  · cases gap with
    | nil =>
      rw [List.nil_append] at hgap
      rw [← hgap]
      exact List.mem_cons_self
    | cons e gap =>
      obtain ⟨rfl, rfl⟩ := List.cons.inj hgap
      have hspace := hmore d (by simp)
      rw [not_isSpace_of_isWord hd] at hspace
      cases hspace

/-- What is no white space and does not stand in a name has no place in a class header. -/
theorem notMem_of_takes_classWords {taken : List Char} {c : Char} (hspace : isSpace c = false)
    (hword : isWord c = false) (h : (Pattern.all classWords).Takes taken) : c ∉ taken := by
  obtain ⟨blanks, name, rfl, -, hblanks, -, hname⟩ := takes_classWords.mp h
  have hclass : ∀ d ∈ "class".toList, isWord d = true := by decide
  simp only [List.mem_append, not_or]
  refine ⟨fun hmem => ?_, fun hmem => ?_, fun hmem => ?_⟩
  · rw [hclass c hmem] at hword
    cases hword
  · rw [hblanks c hmem] at hspace
    cases hspace
  · rw [hname c hmem] at hword
    cases hword

/-- Where a line ends with a parenthesis, no header reaches over its end. -/
theorem not_crosses_of_parenthesis {front more right : List Char} (hleft : left = front ++ ')' :: more)
    (hmore : ∀ c ∈ more, isSpace c = true) :
    ¬ Crosses classWords left right ∧ ¬ Crosses (mainWords dialect) left right := by
  refine ⟨?_, ?_⟩
  · rintro ⟨before, start, stop, after, rfl, -, -, -, hstart, htaken⟩
    have hmem := mem_start_of_ends hleft hmore hstart
    exact notMem_of_takes_classWords (by decide) (by decide) htaken (List.mem_append_left _ hmem)
  · rintro ⟨before, start, stop, after, rfl, -, hne, -, hstart, htaken⟩
    have hmem := mem_start_of_ends hleft hmore hstart
    obtain ⟨opening, parameters, heq, hopening, hparameters⟩ := takes_mainWords.mp htaken
    have hnot := notMem_of_takes_mainWords hopening hparameters
    -- the parenthesis would stand before the end of the header
    obtain ⟨last, hlast⟩ := Option.isSome_iff_exists.mp (List.getLast?_isSome.mpr hne)
    obtain ⟨stop, rfl⟩ := List.getLast?_eq_some_iff.mp hlast
    rw [← List.append_assoc, ← List.append_assoc] at heq
    obtain ⟨hsame, -⟩ := List.append_inj' heq rfl
    exact hnot (hsame ▸ List.mem_append_left _ hmem)

/-- A class header ends with the name. -/
theorem exists_last_of_takes_classWords {taken : List Char} (h : (Pattern.all classWords).Takes taken) :
    ∃ front last, taken = front ++ [last] ∧ isWord last = true := by
  obtain ⟨blanks, name, rfl, -, -, hname, hword⟩ := takes_classWords.mp h
  obtain ⟨name, last, rfl⟩ := (List.eq_nil_or_concat name).resolve_left hname
  exact ⟨"class".toList ++ (blanks ++ name), last, by simp, hword last (by simp)⟩

/-- A class header in two lines may have other white space where the first of them ends. -/
theorem takes_classWords_of_blanks {start stop : List Char} (hshown : ∀ c ∈ shown, isSpace c = true)
    (hshown' : ∀ c ∈ shown', isSpace c = true)
    (h : (Pattern.all classWords).Takes (start ++ (shown' ++ '\n' :: stop))) :
    (Pattern.all classWords).Takes (start ++ (shown ++ '\n' :: stop)) := by
  obtain ⟨blanks, name, heq, -, hblanks, hname, hword⟩ := takes_classWords.mp h
  -- the newline stands between the two words
  rw [← List.append_assoc] at heq
  obtain ⟨blanks₁, hstart, hbehind⟩ := exists_of_append_cons (by decide) heq.symm
  have hnoline : '\n' ∉ name := fun hmem => absurd (hword _ hmem) (by decide)
  obtain ⟨blanks₂, rfl, rfl⟩ := exists_of_cons_append hnoline hbehind
  have hclass : "class".toList ++ blanks₁ = "clas".toList ++ 's' :: blanks₁ := by simp
  obtain ⟨blanks₀, rfl, rfl⟩ := exists_of_append_blanks (by decide) hshown' (hstart.trans hclass)
  refine takes_classWords.mpr
    ⟨blanks₀ ++ shown ++ '\n' :: blanks₂, name, by simp, by simp, ?_, hname, hword⟩
  simp only [List.mem_append, List.mem_cons] at hblanks ⊢
  rintro c ((hc | hc) | hc)
  · exact hblanks c (Or.inl (Or.inl hc))
  · exact hshown c hc
  · exact hblanks c (Or.inr hc)

/-- A semicolon at the end of a line makes no class header. -/
theorem classHeader_of_semicolon (h : TailChange left shown shown') (hrest : LineEnd rest)
    (hoccurs : classHeader.occursIn (left ++ (shown' ++ rest)) = true) :
    classHeader.occursIn (left ++ (shown ++ rest)) = true := by
  rw [classHeader_eq] at hoccurs ⊢
  obtain ⟨hword, hword'⟩ := h.not_isWord
  rcases isHeader_class.occursIn_or_crosses hword' hrest hoccurs with hstays | hcrosses
  · exact hstays
  obtain ⟨before, start, stop, after, rfl, heq, hne, hbefore, hstart, htaken⟩ := hcrosses
  cases h with
  | code _ =>
    obtain ⟨c, stop, rfl⟩ := List.exists_cons_of_ne_nil hne
    obtain ⟨rfl, -⟩ := List.cons.inj heq
    exact absurd (by simp) (notMem_of_takes_classWords (c := ';') (by decide) (by decide) htaken)
  | literal hquote _ _ =>
    obtain ⟨front, quote, more, hleft, hquote, hmore⟩ := hquote
    have hmem := mem_start_of_ends hleft hmore hstart
    refine absurd (List.mem_append_left stop hmem) ?_
    rcases isQuote_iff.mp hquote with rfl | rfl <;>
      exact notMem_of_takes_classWords (by decide) (by decide) htaken
  | comment hshown hshown' =>
    -- the name stands in the next line
    have hstop : ∀ gap, shown' ≠ stop ++ gap := by
      rintro gap rfl
      obtain ⟨stop, last, rfl⟩ := (List.eq_nil_or_concat stop).resolve_left hne
      obtain ⟨front, last', hends, hlast'⟩ := exists_last_of_takes_classWords htaken
      simp only [List.concat_eq_append, ← List.append_assoc] at hends
      obtain rfl := List.singleton_inj.mp (List.append_inj' hends rfl).2
      have hlast := hword' last (by simp)
      rw [hlast'] at hlast
      cases hlast
    rcases List.append_eq_append_iff.mp heq with ⟨gap, rfl, rfl⟩ | ⟨gap, hgap, -⟩
    case inr => exact absurd hgap (hstop gap)
    cases gap with
    | nil => exact absurd (by simp) (hstop [])
    | cons c stop =>
      obtain rfl := hrest c rfl
      exact (isHeader_class.occursIn_iff _).mpr ⟨before, _, after, by simp, hbefore,
        takes_classWords_of_blanks hshown hshown' htaken⟩

/-- A main function's header that reaches over the end of a line into a print statement begins its
parameters before that end, and the print statement's opening is one of them. -/
theorem exists_of_crosses_mainWords {opening more : List Char}
    (hopening : (Pattern.all (printOpening dialect)).Takes opening) (hclose : ')' ∉ shown)
    (hlast : mainLast dialect ∉ shown)
    (h : Crosses (mainWords dialect) left (shown ++ '\n' :: (opening ++ more))) :
    ∃ before head front back after, left = before ++ (head ++ front) ∧ more = back ++ ')' :: after ∧
      (∀ c, before.getLast? = some c → isWord c = false) ∧ (Pattern.all (mainOpening dialect)).Takes head ∧
      (Pattern.all (mainParameters dialect)).Takes (front ++ (shown ++ '\n' :: (opening ++ back))) := by
  obtain ⟨before, start, stop, after, rfl, heq, hne, hbefore, -, htaken⟩ := h
  obtain ⟨head, parameters, hwords, hhead, hparameters⟩ := takes_mainWords.mp htaken
  obtain ⟨hnoclose, first, rest, rfl, hfirst⟩ := printOpening_spec hopening
  obtain ⟨hmark, head, rfl⟩ := mainOpening_spec hhead
  -- the header ends behind the opening of the print statement
  obtain ⟨stop, last, rfl⟩ := (List.eq_nil_or_concat stop).resolve_left hne
  simp only [List.concat_eq_append, ← List.append_assoc] at hwords
  obtain ⟨hinside, hclosed⟩ := List.append_inj' hwords rfl
  obtain rfl := List.singleton_inj.mp hclosed
  have hnot : ')' ∉ shown ++ '\n' :: (first ++ printMark dialect :: rest) := by
    rw [List.mem_append, List.mem_cons, not_or, not_or]
    exact ⟨hclose, by decide, hnoclose⟩
  have hbehind : shown ++ '\n' :: (first ++ printMark dialect :: rest) ++ more = stop ++ ')' :: after := by
    simpa using heq
  obtain ⟨back, rfl, rfl⟩ := exists_of_append_cons hnot hbehind
  -- and its parameters begin before
  have hcut : head ++ [mainLast dialect] ++ parameters =
      start ++ (shown ++ '\n' :: first) ++ printMark dialect :: (rest ++ back) := by
    simpa using hinside.symm
  obtain ⟨front, hfront, rfl⟩ := exists_of_append_cons hmark hcut
  have hnolast : mainLast dialect ∉ shown ++ '\n' :: first := by
    rw [List.mem_append, List.mem_cons, not_or, not_or]
    exact ⟨hlast, by cases dialect <;> decide, hfirst⟩
  have hsplit : start ++ (shown ++ '\n' :: first) = head ++ mainLast dialect :: front := by
    simpa using hfront
  obtain ⟨front, rfl, rfl⟩ := exists_of_cons_append hnolast hsplit
  exact ⟨before, _, front, back, after, by simp, rfl, hbefore, hhead, by simpa using hparameters⟩

/-- The header of a main function stays when a semicolon is put at the end of a line before a print
statement. -/
theorem mainHeader_of_semicolon {opening more : List Char} (h : TailChange left shown shown')
    (hopening : (Pattern.all (printOpening dialect)).Takes opening)
    (hoccurs : (mainHeader dialect).occursIn (left ++ (shown ++ '\n' :: (opening ++ more))) = true) :
    (mainHeader dialect).occursIn (left ++ (shown' ++ '\n' :: (opening ++ more))) = true := by
  rw [mainHeader_eq] at hoccurs ⊢
  have hmain := isHeader_main dialect
  rcases hmain.occursIn_or_crosses h.not_isWord.1 (lineEnd_newline _) hoccurs with
    hstays | hcrosses
  · exact hstays
  have hclose := h.notMem (by decide : isSpace ')' = false) (by decide) (by decide)
  have hlast := h.notMem (by cases dialect <;> decide : isSpace (mainLast dialect) = false)
    (by cases dialect <;> decide) (by cases dialect <;> decide)
  obtain ⟨before, head, front, back, after, rfl, rfl, hbefore, hhead, hparameters⟩ :=
    exists_of_crosses_mainWords hopening hclose.1 hlast.1 hcrosses
  cases dialect with
  | java =>
    obtain ⟨one, between, two, rfl, -, hne, hdot⟩ := exists_dots_of_takes hopening
    have hdots : front ++ (shown ++ '\n' :: (one ++ '.' :: (between ++ '.' :: two) ++ back)) =
        front ++ (shown ++ '\n' :: one) ++ '.' :: (between ++ '.' :: (two ++ back)) := by simp
    exact absurd (hdots ▸ hparameters) (not_takes_of_dots hne hdot)
  | c =>
    have hnoclose : ∀ c ∈ front ++ (shown' ++ '\n' :: (opening ++ back)), (c != ')') = true := by
      have hold := Pattern.takes_star_one.mp hparameters
      simp only [List.mem_append, List.mem_cons] at hold ⊢
      rintro c (hc | hc | hc)
      · exact hold c (Or.inl hc)
      · exact bne_iff_ne.mpr fun heq => hclose.2 (heq ▸ hc)
      · exact hold c (Or.inr (Or.inr hc))
    exact (hmain.occursIn_iff _).mpr
      ⟨before, _, after, by simp, hbefore,
        takes_mainWords.mpr ⟨head, _, rfl, hhead, Pattern.takes_star_one.mpr hnoclose⟩⟩

end Places

/-! ### The headers of a text -/

/-- A text has the headers of Java where it has a class and a main function, and those of C where it has a
main function and no class. -/
theorem hasHeadersOf_iff {dialect : Dialect} {code : List Char} : HasHeadersOf dialect code ↔
    (classHeader.occursIn (mask code) = true ↔ dialect = .java) ∧
      (mainHeader dialect).occursIn (mask code) = true := by
  unfold HasHeadersOf dialectOf checkHeaders mainHeader
  dsimp only
  cases dialect <;> cases hclass : classHeader.occursIn (mask code) <;>
    cases hc : cMain.occursIn (mask code) <;> cases hjava : javaMain.occursIn (mask code) <;>
    cases includeLine.occursIn code <;> simp

/-- The class declaration is there, where one is needed. -/
def KeepsClass (dialect : Dialect) (code : List Char) : Prop :=
  dialect = .java → classHeader.occursIn (mask code) = true

instance (dialect : Dialect) (code : List Char) : Decidable (KeepsClass dialect code) :=
  inferInstanceAs (Decidable (dialect = .java → classHeader.occursIn (mask code) = true))

section Semicolon

variable {dialect : Dialect} {text blanks after : List Char}

/-- A semicolon that is masked leaves the headers of a reported text. -/
theorem HasHeadersOf.semicolon_masked (h : HasHeadersOf dialect (text ++ (blanks ++ after)))
    (hfirst : FirstOpenPrint dialect (text ++ (blanks ++ after)) (text.count '\n' + 1))
    (m : TailMask text blanks after) (hkeeps : ¬ KeepsSemicolon text) :
    HasHeadersOf dialect (text ++ ([';'] ++ after)) := by
  obtain ⟨⟨front, more, hmasked, hmore⟩, -⟩ := hfirst.ends m hkeeps
  obtain ⟨hclass, hmain⟩ := @not_crosses_of_parenthesis dialect m.masked front more (m.shown ++ m.rest)
    hmasked hmore
  rw [hasHeadersOf_iff, m.before] at h
  rw [hasHeadersOf_iff, m.behind]
  have hword := m.change.not_isWord.1
  refine ⟨⟨fun hnew => h.1.mp (classHeader_of_semicolon m.change m.lineEnd hnew), fun hjava => ?_⟩, ?_⟩
  · exact (isHeader_class.occursIn_or_crosses hword m.lineEnd (h.1.mpr hjava)).resolve_right hclass
  · rw [mainHeader_eq] at h ⊢
    exact ((isHeader_main dialect).occursIn_or_crosses hword m.lineEnd h.2).resolve_right hmain

/-- A semicolon on the line before a reported line leaves the headers, but for a class that is needed. -/
theorem hasHeadersOf_semicolon_above_iff (h : HasHeadersOf dialect (text ++ (blanks ++ after)))
    (hfirst : FirstOpenPrint dialect (text ++ (blanks ++ after)) (text.count '\n' + 2))
    (m : TailMask text blanks after) : HasHeadersOf dialect (text ++ ([';'] ++ after)) ↔
      KeepsClass dialect (text ++ ([';'] ++ after)) := by
  obtain ⟨opening, more, hrest, hopening⟩ := hfirst.begins m
  rw [hasHeadersOf_iff, m.before] at h
  rw [hasHeadersOf_iff, KeepsClass, m.behind]
  refine ⟨fun hnew => hnew.1.mpr, fun hnew => ⟨⟨fun hclass => ?_, hnew⟩, ?_⟩⟩
  · exact h.1.mp (classHeader_of_semicolon m.change m.lineEnd hclass)
  · rw [hrest] at h ⊢
    exact mainHeader_of_semicolon m.change hopening h.2

end Semicolon

end Coach.Program
