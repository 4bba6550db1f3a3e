import Coach.Metrics.Label
import Coach.Proofs.Number.Brief
import Coach.Proofs.Text.Lines
import Coach.Proofs.Text.Parts

/-!
# The text exposition format

A metric in the text exposition format has comment lines, which begin with `#`, and a line for each
sample: a name, labels in braces, and a number.  The value of a label stands between quotes; a
backslash, a quote and a line feed in it are escaped.  Blanks may stand between the parts.  The time
stamp that may follow the number is not read here.

The labels of a metric are written without escapes.  They are read back when their names are names
and their values have nothing to escape, and from no other labels are the labels themselves read.

## Main definitions

* `readText?`: the samples of a text
* `Legible`: labels that need no escapes

## Main statements

* `readSample?_line`: a line with legible labels is read back
* `legible_of_readSample?`: only legible labels are
-/

namespace Coach.Metrics

open Coach.Service Coach.Text

/-! ### The format -/

/-- A sample. -/
structure Sample where
  name : String
  labels : Labels
  value : Float
  deriving DecidableEq

/-- A character of the name of a label. -/
def isLabelChar (c : Char) : Bool := c.isAlphanum || c == '_'

/-- A character of the name of a metric. -/
def isMetricChar (c : Char) : Bool := isLabelChar c || c == ':'

/-- A name: characters of a class, of which the first is no digit. -/
def isName (p : Char → Bool) : List Char → Bool
  | [] => false
  | c :: rest => p c && !c.isDigit && rest.all p

/-- A blank between two parts of a line. -/
def isGap (c : Char) : Bool := c == ' ' || c == '\t'

/-- Skips blanks. -/
def skipGap (text : List Char) : List Char := text.dropWhile isGap

/-- Reads a given character behind blanks. -/
def expect? (c : Char) (text : List Char) : Option (List Char) :=
  match skipGap text with
  | [] => none
  | d :: rest => if d = c then some rest else none

/-- Reads a name behind blanks. -/
def readName? (p : Char → Bool) (text : List Char) : Option (List Char × List Char) :=
  let name := (skipGap text).takeWhile p
  if isName p name then some (name, (skipGap text).dropWhile p) else none

/-- What a backslash and a character stand for. -/
def unescaped? : Char → Option Char
  | '\\' => some '\\'
  | '"' => some '"'
  | 'n' => some '\n'
  | _ => none

/-- Reads a value up to its closing quote, from behind a backslash or not. -/
def readValue? : Bool → List Char → Option (List Char × List Char)
  | _, [] => none
  | true, c :: rest => do
    let d ← unescaped? c
    let (value, rest) ← readValue? false rest
    return (d :: value, rest)
  | false, c :: rest =>
    if c = '"' then some ([], rest)
    else if c = '\\' then readValue? true rest
    else do
      let (value, rest) ← readValue? false rest
      return (c :: value, rest)

/-- Reads a name with its value in quotes. -/
def readPair? (text : List Char) : Option ((String × String) × List Char) := do
  let (name, rest) ← readName? isLabelChar text
  let rest ← expect? '=' rest
  let rest ← expect? '"' rest
  let (value, rest) ← readValue? false rest
  return ((String.ofList name, String.ofList value), rest)

/-- Reads labels up to the closing brace, at most as many as `bound` is long. -/
def readLabels? : List Char → List Char → Option (Labels × List Char)
  | [], _ => none
  | _ :: bound, text =>
    match expect? '\x7d' text with
    | some rest => some ([], rest)
    | none => do
      let (pair, rest) ← readPair? text
      match expect? ',' rest with
      | some rest => do
        let (more, rest) ← readLabels? bound rest
        return (pair :: more, rest)
      | none => do
        let rest ← expect? '\x7d' rest
        return ([pair], rest)

/-- Reads the labels behind a name, if there are any. -/
def readBraces? (text : List Char) : Option (Labels × List Char) :=
  match expect? '\x7b' text with
  | some rest => readLabels? rest rest
  | none => some ([], text)

/-- Reads a line with a sample. -/
def readSample? (line : List Char) : Option Sample := do
  let (name, rest) ← readName? isMetricChar line
  let (labels, rest) ← readBraces? rest
  let value ← readFloat? rest
  return { name := String.ofList name, labels, value }

/-- A line without a sample: an empty one or a comment. -/
def isPassed (line : List Char) : Bool :=
  match skipGap line with
  | [] => true
  | c :: _ => c == '#'

/-- Reads the samples of a text, line by line. -/
def readText? (text : List Char) : Option (List Sample) :=
  ((splitOn '\n' text).filter fun line => !isPassed line).mapM readSample?

/-! ### Labels without escapes -/

/-- A name with a value that needs no escapes. -/
structure LegiblePair (p : String × String) : Prop where
  name : isName isLabelChar p.1.toList = true
  value : ∀ c ∈ p.2.toList, c ≠ '\\' ∧ c ≠ '"' ∧ c ≠ '\n'

/-- Labels that need no escapes. -/
def Legible (labels : Labels) : Prop := ∀ p ∈ labels, LegiblePair p

section Parts

variable {p : Char → Bool} {c : Char} {name text rest more : List Char}

theorem skipGap_cons (h : isGap c = false) (rest : List Char) : skipGap (c :: rest) = c :: rest := by
  rw [skipGap, List.dropWhile_cons_of_neg (by rw [h]; decide)]

theorem expect?_cons (h : isGap c = false) (rest : List Char) : expect? c (c :: rest) = some rest := by
  rw [expect?, skipGap_cons h]
  exact if_pos rfl

theorem expect?_cons_of_ne {d : Char} (h : isGap d = false) (hne : d ≠ c) (rest : List Char) :
    expect? c (d :: rest) = none := by
  rw [expect?, skipGap_cons h]
  exact if_neg hne

theorem expect?_eq_some_of_isPrefix (h : isGap c = false) {read : List Char}
    (hread : expect? c text = some read)
    (hpre : text <+: c :: more) : text = c :: read ∧ read <+: more := by
  cases text with
  | nil => cases hread
  | cons d text =>
    obtain ⟨rfl, htext⟩ := List.cons_prefix_cons.mp hpre
    rw [expect?_cons h] at hread
    obtain rfl := Option.some.inj hread
    exact ⟨rfl, htext⟩

theorem expect?_eq_none_of_isPrefix {d : Char} (h : isGap d = false) (hne : d ≠ c)
    (hpre : text <+: d :: more) :
    expect? c text = none := by
  cases text with
  | nil => rfl
  | cons e text =>
    obtain ⟨rfl, -⟩ := List.cons_prefix_cons.mp hpre
    exact expect?_cons_of_ne h hne text

/-- A value that needs no escapes is read up to its quote. -/
theorem readValue?_append (h : ∀ c ∈ text, c ≠ '\\' ∧ c ≠ '"' ∧ c ≠ '\n') (rest : List Char) :
    readValue? false (text ++ '"' :: rest) = some (text, rest) := by
  induction text with
  | nil => rfl
  | cons c text ih =>
    obtain ⟨hback, hquote, -⟩ := h c List.mem_cons_self
    have hmore := ih fun d hd => h d (List.mem_cons_of_mem c hd)
    simp [readValue?, hback, hquote, hmore]

/-- An empty value is read from a quote. -/
theorem eq_of_readValue?_nil {read : List Char} (h : readValue? false text = some ([], read)) :
    text = '"' :: read := by
  cases text with
  | nil => cases h
  | cons c text =>
    simp only [readValue?] at h
    split at h
    · next hquote =>
      obtain ⟨-, rfl⟩ := Prod.mk.inj (Option.some.inj h)
      rw [hquote]
    · split at h
      · cases text with
        | nil => cases h
        | cons mark text =>
          obtain ⟨d, -, h⟩ := Option.bind_eq_some_iff.mp h
          obtain ⟨_, -, h⟩ := Option.bind_eq_some_iff.mp h
          cases h
      · obtain ⟨_, -, h⟩ := Option.bind_eq_some_iff.mp h
        cases h

/-- The first character of a value is read from itself, or from an escape. -/
theorem cases_of_readValue?_cons {value read : List Char}
    (h : readValue? false text = some (c :: value, read)) :
    ∃ text', readValue? false text' = some (value, read) ∧
      (text = c :: text' ∧ c ≠ '"' ∧ c ≠ '\\' ∨
        ∃ mark, text = '\\' :: mark :: text' ∧ unescaped? mark = some c) := by
  cases text with
  | nil => cases h
  | cons d text =>
    simp only [readValue?] at h
    split at h
    · cases h
    · next hquote =>
      split at h
      · next hback =>
        cases text with
        | nil => cases h
        | cons mark text =>
          obtain ⟨e, he, h⟩ := Option.bind_eq_some_iff.mp h
          obtain ⟨⟨value', read'⟩, hmore, h⟩ := Option.bind_eq_some_iff.mp h
          cases h
          exact ⟨text, hmore, Or.inr ⟨mark, by rw [hback], he⟩⟩
      · next hback =>
        obtain ⟨⟨value', read'⟩, hmore, h⟩ := Option.bind_eq_some_iff.mp h
        cases h
        exact ⟨text, hmore, Or.inl ⟨rfl, hquote, hback⟩⟩

theorem eq_of_unescaped?_backslash {mark : Char} (h : unescaped? mark = some '\\') : mark = '\\' := by
  unfold unescaped? at h
  split at h
  · rfl
  · exact absurd (Option.some.inj h) (by decide)
  · exact absurd (Option.some.inj h) (by decide)
  · cases h

/-- Behind backslashes, no value is read that begins with them. -/
theorem not_prefix_of_readValue? {value read : List Char} (k : Nat)
    (h : readValue? false text = some (value, read)) :
    ¬ List.replicate (k + 1) '\\' ++ text <+: value ++ '"' :: more := by
  induction value generalizing text k with
  | nil =>
    intro hpre
    exact absurd (List.cons_prefix_cons.mp hpre).1 (by decide)
  | cons c value ih =>
    intro hpre
    obtain ⟨rfl, hrest⟩ := List.cons_prefix_cons.mp hpre
    obtain ⟨text', hmore, ⟨-, -, hne⟩ | ⟨mark, rfl, hmark⟩⟩ := cases_of_readValue?_cons h
    · exact hne rfl
    · -- the escape stands for one of the two backslashes that it takes
      obtain rfl := eq_of_unescaped?_backslash hmark
      refine ih (k + 1) hmore ?_
      have hshift : List.replicate (k + 1 + 1) '\\' ++ text' =
          List.replicate k '\\' ++ '\\' :: '\\' :: text' := by
        simp [List.replicate_succ']
      rw [hshift]
      exact hrest

/-- A value that is read from where it was written has nothing to escape. -/
theorem eq_of_readValue?_of_isPrefix {value read : List Char} (h : readValue? false text = some (value, read))
    (hpre : text <+: value ++ '"' :: more) :
    text = value ++ '"' :: read ∧ ∀ c ∈ value, c ≠ '\\' ∧ c ≠ '"' := by
  induction value generalizing text with
  | nil => exact ⟨eq_of_readValue?_nil h, nofun⟩
  | cons c value ih =>
    obtain ⟨text', hmore, ⟨rfl, hquote, hback⟩ | ⟨mark, rfl, hmark⟩⟩ := cases_of_readValue?_cons h
    · obtain ⟨htext, hvalue⟩ := ih hmore (List.cons_prefix_cons.mp hpre).2
      exact ⟨by rw [htext]; rfl, List.forall_mem_cons.mpr ⟨⟨hback, hquote⟩, hvalue⟩⟩
    · obtain ⟨rfl, hrest⟩ := List.cons_prefix_cons.mp hpre
      obtain rfl := eq_of_unescaped?_backslash hmark
      exact absurd hrest (not_prefix_of_readValue? 0 hmore)

/-- A name is read up to what cannot belong to it. -/
theorem readName?_append (hgap : ∀ c, p c = true → isGap c = false) (hname : isName p name = true)
    (hrest : ∀ c ∈ rest.head?, p c = false) : readName? p (name ++ rest) = some (name, rest) := by
  cases name with
  | nil => cases hname
  | cons c name =>
    have hparts := hname
    simp only [isName, Bool.and_eq_true, List.all_eq_true] at hparts
    obtain ⟨⟨hc, -⟩, hall⟩ := hparts
    obtain ⟨htake, hdrop⟩ := takeWhile_run (List.forall_mem_cons.mpr ⟨hc, hall⟩) hrest
    rw [readName?, List.cons_append, skipGap_cons (hgap c hc), ← List.cons_append, htake, hdrop,
      if_pos hname]

/-- A name that is read from where it was written is a name. -/
theorem eq_of_readName?_of_isPrefix (hgap : ∀ c, p c = true → isGap c = false) {read : List Char}
    (h : readName? p text = some (name, read)) (hpre : text <+: name ++ more) :
    isName p name = true ∧ text = name ++ read ∧ read <+: more := by
  unfold readName? at h
  dsimp only at h
  split at h
  · next hname =>
    obtain ⟨hnameEq, hread⟩ := Prod.mk.inj (Option.some.inj h)
    rw [hnameEq] at hname
    have htext : text = name ++ read := by
      cases name with
      | nil => cases hname
      | cons c name =>
        cases text with
        | nil => cases hnameEq
        | cons d text =>
          obtain ⟨rfl, -⟩ := List.cons_prefix_cons.mp hpre
          have hd : p d = true := by
            simp only [isName, Bool.and_eq_true] at hname
            exact hname.1.1
          rw [skipGap_cons (hgap d hd)] at hnameEq hread
          rw [← hnameEq, ← hread, List.takeWhile_append_dropWhile]
    rw [htext] at hpre
    exact ⟨hname, htext, (List.prefix_append_right_inj name).mp hpre⟩
  · cases h

end Parts

theorem not_isGap_of_isMetricChar {c : Char} (h : isMetricChar c = true) : isGap c = false := by
  rw [← Bool.not_eq_true]
  intro hgap
  simp only [isGap, Bool.or_eq_true, beq_iff_eq] at hgap
  rcases hgap with rfl | rfl <;> exact absurd h (by decide)

theorem not_isGap_of_isLabelChar {c : Char} (h : isLabelChar c = true) : isGap c = false :=
  not_isGap_of_isMetricChar (by rw [isMetricChar, h, Bool.true_or])

/-! ### Pairs and labels -/

section Labels

variable {p : String × String} {labels : Labels} {text rest read more : List Char}

theorem toList_pairText (p : String × String) :
    (Labels.pairText p).toList = p.1.toList ++ '=' :: '"' :: (p.2.toList ++ ['"']) := by
  simp [Labels.pairText]

/-- The labels with what closes them. -/
def closedText : Labels → List Char
  | [] => ['\x7d']
  | [p] => (Labels.pairText p).toList ++ ['\x7d']
  | p :: next :: labels => (Labels.pairText p).toList ++ ',' :: closedText (next :: labels)

theorem toList_text (h : labels ≠ []) : labels.text.toList = '\x7b' :: closedText labels := by
  have hclosed : ∀ labels : Labels, labels ≠ [] →
      (",".intercalate (labels.map Labels.pairText)).toList ++ ['\x7d'] = closedText labels := by
    intro labels
    induction labels with
    | nil => exact fun h => absurd rfl h
    | cons p labels ih =>
      intro _
      cases labels with
      | nil => simp [closedText]
      | cons next labels =>
        rw [List.map_cons, List.map_cons, String.intercalate_cons_cons, closedText,
          ← ih (List.cons_ne_nil _ _)]
        simp
  have hempty : labels.isEmpty = false := by simpa using h
  rw [Labels.text, hempty, ← hclosed labels h]
  simp

/-- A legible pair is read back. -/
theorem readPair?_pairText (h : LegiblePair p) (rest : List Char) :
    readPair? ((Labels.pairText p).toList ++ rest) = some (p, rest) := by
  have hvalue := readValue?_append h.value rest
  have hname : readName? isLabelChar (p.1.toList ++ '=' :: '"' :: (p.2.toList ++ '"' :: rest)) =
      some (p.1.toList, '=' :: '"' :: (p.2.toList ++ '"' :: rest)) :=
    readName?_append (fun c => not_isGap_of_isLabelChar) h.name (by rintro c ⟨⟩; decide)
  have htext : (Labels.pairText p).toList ++ rest =
      p.1.toList ++ '=' :: '"' :: (p.2.toList ++ '"' :: rest) := by
    rw [toList_pairText]
    simp
  rw [readPair?, htext, hname]
  simp [expect?_cons (show isGap '=' = false by decide), expect?_cons (show isGap '"' = false by decide),
    hvalue]

/-- A pair that is read from where it was written is legible. -/
theorem legible_of_readPair? (h : readPair? text = some (p, read)) (hline : '\n' ∉ text)
    (hpre : text <+: (Labels.pairText p).toList ++ more) :
    LegiblePair p ∧ text = (Labels.pairText p).toList ++ read ∧ read <+: more := by
  obtain ⟨⟨name, afterName⟩, hname, h⟩ := Option.bind_eq_some_iff.mp h
  obtain ⟨afterEquals, hequals, h⟩ := Option.bind_eq_some_iff.mp h
  obtain ⟨afterQuote, hquote, h⟩ := Option.bind_eq_some_iff.mp h
  obtain ⟨⟨value, afterValue⟩, hvalue, h⟩ := Option.bind_eq_some_iff.mp h
  obtain ⟨rfl, rfl⟩ := Prod.mk.inj (Option.some.inj h)
  have hpair : (Labels.pairText (String.ofList name, String.ofList value)).toList ++ more =
      name ++ ('=' :: '"' :: (value ++ '"' :: more)) := by
    rw [toList_pairText]
    simp
  rw [hpair] at hpre
  obtain ⟨hisName, rfl, hpreEquals⟩ :=
    eq_of_readName?_of_isPrefix (fun c => not_isGap_of_isLabelChar) hname hpre
  obtain ⟨rfl, hpreQuote⟩ := expect?_eq_some_of_isPrefix (by decide) hequals hpreEquals
  obtain ⟨rfl, hpreValue⟩ := expect?_eq_some_of_isPrefix (by decide) hquote hpreQuote
  obtain ⟨rfl, hplain⟩ := eq_of_readValue?_of_isPrefix hvalue hpreValue
  refine ⟨⟨by rwa [String.toList_ofList], fun c hc => ?_⟩, ?_, ?_⟩
  · rw [String.toList_ofList] at hc
    refine ⟨(hplain c hc).1, (hplain c hc).2, ?_⟩
    rintro rfl
    exact hline (by simp [hc])
  · rw [toList_pairText]
    simp
  · exact (List.cons_prefix_cons.mp ((List.prefix_append_right_inj value).mp hpreValue)).2

/-- A legible pair begins with the first character of its name. -/
theorem exists_pairText_cons (h : LegiblePair p) :
    ∃ c rest, (Labels.pairText p).toList = c :: rest ∧ isLabelChar c = true := by
  have hname := h.name
  rw [toList_pairText]
  cases hp : p.1.toList with
  | nil =>
    rw [hp] at hname
    cases hname
  | cons c name =>
    rw [hp] at hname
    simp only [isName, Bool.and_eq_true] at hname
    exact ⟨c, _, rfl, hname.1.1⟩

/-- No brace closes the labels before a legible pair. -/
theorem expect?_close_pairText (h : LegiblePair p) (rest : List Char) :
    expect? '\x7d' ((Labels.pairText p).toList ++ rest) = none := by
  obtain ⟨c, more, htext, hc⟩ := exists_pairText_cons h
  rw [htext]
  refine expect?_cons_of_ne (not_isGap_of_isLabelChar hc) ?_ _
  rintro rfl
  exact absurd hc (by decide)

/-- Legible labels are read back. -/
theorem readLabels?_closedText (hne : labels ≠ []) (h : Legible labels) {bound : List Char}
    (hbound : labels.length ≤ bound.length) (rest : List Char) :
    readLabels? bound (closedText labels ++ rest) = some (labels, rest) := by
  induction labels generalizing bound with
  | nil => exact absurd rfl hne
  | cons p labels ih =>
    obtain ⟨b, bound, rfl⟩ := List.exists_cons_of_ne_nil (List.length_pos_iff.mp
      (Nat.lt_of_lt_of_le (Nat.succ_pos _) hbound))
    obtain ⟨hp, hlabels⟩ := List.forall_mem_cons.mp h
    cases labels with
    | nil =>
      simp only [closedText, List.append_assoc, readLabels?, expect?_close_pairText hp, readPair?_pairText hp]
      rfl
    | cons next labels =>
      have hmore := ih (List.cons_ne_nil _ _) hlabels (Nat.le_of_succ_le_succ hbound)
      simp only [closedText, List.append_assoc, List.cons_append, readLabels?, expect?_close_pairText hp,
        readPair?_pairText hp, expect?_cons (show isGap ',' = false by decide), Option.bind_eq_bind,
        Option.bind_some, hmore]
      rfl

/-- Labels that are read from where they were written are legible. -/
theorem legible_of_readLabels? {bound : List Char} (hne : labels ≠ [])
    (h : readLabels? bound text = some (labels, read)) (hline : '\n' ∉ text)
    (hpre : text <+: closedText labels ++ more) : Legible labels := by
  induction labels generalizing bound text with
  | nil => exact absurd rfl hne
  | cons p labels ih =>
    cases bound with
    | nil => cases h
    | cons b bound =>
      simp only [readLabels?] at h
      split at h
      · cases h
      obtain ⟨⟨pair, afterPair⟩, hpair, h⟩ := Option.bind_eq_some_iff.mp h
      dsimp only at h
      split at h
      · next afterComma hcomma =>
        obtain ⟨⟨others, afterOthers⟩, hothers, h⟩ := Option.bind_eq_some_iff.mp h
        obtain ⟨heq, rfl⟩ := Prod.mk.inj (Option.some.inj h)
        obtain ⟨rfl, rfl⟩ := List.cons.inj heq
        dsimp only at hpre ih ⊢
        cases others with
        | nil =>
          rw [closedText, List.append_assoc] at hpre
          obtain ⟨-, -, hclose⟩ := legible_of_readPair? hpair hline hpre
          rw [expect?_eq_none_of_isPrefix (by decide) (by decide) hclose] at hcomma
          cases hcomma
        | cons next others =>
          rw [closedText, List.append_assoc] at hpre
          obtain ⟨hp, rfl, hclose⟩ := legible_of_readPair? hpair hline hpre
          obtain ⟨rfl, hmore⟩ := expect?_eq_some_of_isPrefix (by decide) hcomma hclose
          have hline' : '\n' ∉ afterComma := fun hmem => hline (by simp [hmem])
          exact List.forall_mem_cons.mpr ⟨hp, ih (List.cons_ne_nil _ _) hothers hline' hmore⟩
      · obtain ⟨afterBrace, -, h⟩ := Option.bind_eq_some_iff.mp h
        obtain ⟨heq, rfl⟩ := Prod.mk.inj (Option.some.inj h)
        obtain ⟨rfl, rfl⟩ := List.cons.inj heq
        rw [closedText, List.append_assoc] at hpre
        obtain ⟨hp, -, -⟩ := legible_of_readPair? hpair hline hpre
        exact List.forall_mem_singleton.mpr hp

end Labels

/-! ### Lines -/

section Lines

variable {name : String} {labels : Labels} {line more : List Char}

/-- A line that begins with a name is not passed over. -/
theorem isPassed_of_isName {text : List Char} (hname : isName isMetricChar text = true) (rest : List Char) :
    isPassed (text ++ rest) = false := by
  cases text with
  | nil => cases hname
  | cons c text =>
    simp only [isName, Bool.and_eq_true] at hname
    have hc := hname.1.1
    rw [isPassed, List.cons_append, skipGap_cons (not_isGap_of_isMetricChar hc)]
    rw [beq_eq_false_iff_ne]
    rintro rfl
    exact absurd hc (by decide)

theorem closedText_length (labels : Labels) : labels.length ≤ (closedText labels).length := by
  induction labels with
  | nil => exact Nat.zero_le _
  | cons p labels ih =>
    cases labels with
    | nil => simp [closedText]
    | cons next labels =>
      simp only [closedText, List.length_cons, List.length_append] at ih ⊢
      omega

/-- Legible labels are read back, or their absence in front of a blank and a number. -/
theorem readBraces?_text (h : Legible labels) {number : List Char}
    (hnumber : ∀ c ∈ number, isGap c = false ∧ c ≠ '\x7b') :
    readBraces? (labels.text.toList ++ ' ' :: number) = some (labels, ' ' :: number) := by
  cases labels with
  | nil =>
    have hnone : expect? '\x7b' (' ' :: number) = none := by
      cases number with
      | nil => rfl
      | cons c number =>
        obtain ⟨hgap, hne⟩ := hnumber c List.mem_cons_self
        have hskip : expect? '\x7b' (' ' :: c :: number) = expect? '\x7b' (c :: number) := rfl
        rw [hskip, expect?_cons_of_ne hgap hne]
    change readBraces? (' ' :: number) = _
    rw [readBraces?, hnone]
  | cons p labels =>
    have hne : p :: labels ≠ [] := List.cons_ne_nil p labels
    rw [toList_text hne, readBraces?, List.cons_append, expect?_cons (by decide)]
    refine readLabels?_closedText hne h ?_ _
    rw [List.length_append]
    exact Nat.le_trans (closedText_length _) (Nat.le_add_right _ _)

/-- A line with legible labels is read back, with its number in six digits. -/
theorem readSample?_line (hname : isName isMetricChar name.toList = true) (h : Legible labels) (x : Float) :
    readSample? (name.toList ++ (labels.text.toList ++ ' ' :: (briefFloat x).toList)) =
      some { name, labels, value := sixDigits x } := by
  have hnumber : ∀ c ∈ (briefFloat x).toList, isGap c = false ∧ c ≠ '\x7b' := by
    intro c hc
    rcases mem_briefFloat x c hc with hc | hc
    · refine ⟨not_isGap_of_isLabelChar (by rw [isLabelChar, hc, Bool.true_or]), ?_⟩
      rintro rfl
      exact absurd hc (by decide)
    · exact (by decide : ∀ c ∈ ['.', '-', '+'], isGap c = false ∧ c ≠ '\x7b') c hc
  have hend : ∀ c ∈ (labels.text.toList ++ ' ' :: (briefFloat x).toList).head?, isMetricChar c = false := by
    cases labels with
    | nil =>
      rintro c ⟨⟩
      decide
    | cons p labels =>
      rw [toList_text (List.cons_ne_nil p labels)]
      rintro c ⟨⟩
      decide
  rw [readSample?, readName?_append (fun c => not_isGap_of_isMetricChar) hname hend]
  simp only [Option.bind_eq_bind, Option.bind_some, readBraces?_text h hnumber, readFloat?_blank_cons,
    readFloat?_briefFloat, String.ofList_toList]
  rfl

/-- From what a line begins with, its labels are only read if they are legible. -/
theorem legible_of_readSample? (hname : isName isMetricChar name.toList = true) {value : Float}
    (h : readSample? line = some { name, labels, value }) (hline : '\n' ∉ line)
    (hpre : line <+: name.toList ++ (labels.text.toList ++ more)) : Legible labels := by
  obtain ⟨⟨read, afterName⟩, hread, h⟩ := Option.bind_eq_some_iff.mp h
  obtain ⟨⟨labels', afterLabels⟩, hlabels, h⟩ := Option.bind_eq_some_iff.mp h
  obtain ⟨x, -, h⟩ := Option.bind_eq_some_iff.mp h
  obtain ⟨rfl, rfl, rfl⟩ := Sample.mk.inj (Option.some.inj h)
  rw [String.toList_ofList] at hname hpre
  obtain ⟨-, rfl, hafter⟩ := eq_of_readName?_of_isPrefix (fun c => not_isGap_of_isMetricChar) hread hpre
  by_cases hne : labels' = []
  · exact hne ▸ nofun
  rw [toList_text hne, List.cons_append] at hafter
  unfold readBraces? at hlabels
  split at hlabels
  · next afterBrace hbrace =>
    obtain ⟨rfl, hbody⟩ := expect?_eq_some_of_isPrefix (by decide) hbrace hafter
    exact legible_of_readLabels? hne hlabels (fun hmem => hline (by simp [hmem])) hbody
  · exact absurd (Prod.mk.inj (Option.some.inj hlabels)).1.symm hne

end Lines

end Coach.Metrics
