import Coach.Proofs.Source.Statements
import Coach.Proofs.Text.Lines
import Mathlib.Tactic.SplitIfs

/-!
# The parts between commas

A list of declarators is cut at its commas outside brackets and literals.  Parts that are joined with
commas are cut apart again.

A part is told by its atoms: single characters outside literals, and whole literals.  Brackets are counted
over the atoms, so that what a literal holds does not count.  The reader keeps the same count: behind some
atoms it has read their text and knows how many brackets they leave open, whatever comes next.

## Main definitions

* `Atom`: a character outside literals, or a literal
* `Atom.depth`: how many brackets some atoms leave open
* `IsPart`: a trimmed text with closed literals, as many brackets closed as opened, and commas in them only
* `Padded`: a part with white space around it

## Main statements

* `splitTopLevelFrom_atoms`: atoms lengthen what has been read and open their brackets
* `splitTopLevel_joined`: parts that are joined with commas are found again

## Design notes

All brackets are of one kind here, as the reader counts them together; and nothing asks that one is opened
before it is closed.  Only the count at a comma and at the end matters.
-/

namespace Coach.Source

open Coach.Text

/-! ### What a part is made of -/

/-- A character outside literals, or a literal: its quote, and what stands behind that. -/
inductive Atom where
  | char (c : Char)
  | literal (quote : Char) (body : List Char)
  deriving DecidableEq

namespace Atom

/-- The text of an atom. -/
def text : Atom → List Char
  | .char c => [c]
  | .literal quote body => quote :: body

/-- A character opens no literal, and a literal is closed. -/
def IsClosed : Atom → Prop
  | .char c => isQuote c = false
  | .literal quote body => isQuote quote = true ∧ ClosedBody quote body

/-- By how many an atom changes the number of open brackets. -/
def opens : Atom → Int
  | .char c =>
    if c = '(' ∨ c = '[' ∨ c = '\x7b' then 1 else if c = ')' ∨ c = ']' ∨ c = '\x7d' then -1 else 0
  | .literal _ _ => 0

/-- The text of some atoms. -/
def texts (atoms : List Atom) : List Char := atoms.flatMap text

/-- The number of brackets that some atoms leave open. -/
def depth : List Atom → Int
  | [] => 0
  | a :: atoms => a.opens + depth atoms

@[simp] theorem depth_nil : depth [] = 0 := rfl

@[simp] theorem depth_cons (a : Atom) (atoms : List Atom) : depth (a :: atoms) = a.opens + depth atoms := rfl

theorem texts_cons (a : Atom) (atoms : List Atom) : texts (a :: atoms) = a.text ++ texts atoms :=
  List.flatMap_cons

theorem isClosed_of_mem_map_char (text : List Char) (h : ∀ c ∈ text, isQuote c = false) :
    ∀ a ∈ text.map char, a.IsClosed :=
  List.forall_mem_map.mpr h

end Atom

/-- Atoms with closed literals that close as many brackets as they open, and before each comma of which the
two numbers differ. -/
structure Balanced (atoms : List Atom) : Prop where
  closed : ∀ a ∈ atoms, a.IsClosed
  depth_eq : Atom.depth atoms = 0
  commas : ∀ i < atoms.length, atoms[i]? = some (.char ',') → Atom.depth (atoms.take i) ≠ 0

/-- A text that can stand between two commas.  It may be empty. -/
structure IsPart (part : List Char) : Prop where
  balanced : ∃ atoms, Atom.texts atoms = part ∧ Balanced atoms
  trimmed : strip part = part

/-! ### Reading a part -/

section SplitTopLevelFrom

variable (buffer : List Char) {depth : Int}

/-- An atom that is no comma outside brackets lengthens what has been read. -/
theorem splitTopLevelFrom_atom {a : Atom} (hclosed : a.IsClosed) (hcomma : a = .char ',' → depth ≠ 0)
    (rest : List Char) :
    splitTopLevelFrom buffer depth (a.text ++ rest) =
      splitTopLevelFrom (buffer ++ a.text) (depth + a.opens) rest := by
  cases a with
  | char c =>
    have hquote : ¬ isQuote c = true := Bool.eq_false_iff.mp hclosed
    rw [Atom.text, List.singleton_append, splitTopLevelFrom, if_neg hquote, Atom.opens]
    split_ifs with hopening hclosing hsplit
    · rfl
    · rfl
    · exact absurd hsplit.2 (hcomma (congrArg Atom.char hsplit.1))
    · rw [Int.add_zero]
  | literal quote body =>
    obtain ⟨hquote, hbody⟩ := hclosed
    rw [Atom.text, List.cons_append, splitTopLevelFrom, if_pos hquote, hbody.takeLiteral_append hquote,
      Atom.opens, Int.add_zero]

/-- Atoms without a comma outside brackets lengthen what has been read, and leave their brackets open. -/
theorem splitTopLevelFrom_atoms {atoms : List Atom} (hclosed : ∀ a ∈ atoms, a.IsClosed)
    (hcommas : ∀ i < atoms.length, atoms[i]? = some (.char ',') → depth + Atom.depth (atoms.take i) ≠ 0)
    (rest : List Char) :
    splitTopLevelFrom buffer depth (Atom.texts atoms ++ rest) =
      splitTopLevelFrom (buffer ++ Atom.texts atoms) (depth + Atom.depth atoms) rest := by
  induction atoms generalizing buffer depth with
  | nil => simp [Atom.texts]
  | cons a atoms ih =>
    obtain ⟨ha, hatoms⟩ := List.forall_mem_cons.mp hclosed
    have hcomma : a = .char ',' → depth ≠ 0 := by
      intro heq
      simpa using hcommas 0 (by simp) (congrArg some heq)
    have hlater : ∀ i < atoms.length, atoms[i]? = some (.char ',') →
        depth + a.opens + Atom.depth (atoms.take i) ≠ 0 := by
      intro i hi heq
      simpa [Int.add_assoc] using hcommas (i + 1) (by simpa using hi) (by simpa using heq)
    rw [Atom.texts_cons, List.append_assoc, splitTopLevelFrom_atom buffer ha hcomma,
      ih (buffer ++ a.text) hatoms hlater, List.append_assoc, Atom.depth_cons, Int.add_assoc]

/-- Outside brackets a comma ends the part. -/
theorem splitTopLevelFrom_comma (rest : List Char) :
    splitTopLevelFrom buffer 0 (',' :: rest) = strip buffer :: splitTopLevelFrom [] 0 rest := by
  rw [splitTopLevelFrom, if_neg (by decide), if_neg (by decide), if_neg (by decide), if_pos ⟨rfl, rfl⟩]

/-- White space lengthens what has been read. -/
theorem splitTopLevelFrom_blanks {blanks : List Char} (hblanks : ∀ c ∈ blanks, isSpace c = true)
    (rest : List Char) :
    splitTopLevelFrom buffer depth (blanks ++ rest) = splitTopLevelFrom (buffer ++ blanks) depth rest := by
  induction blanks generalizing buffer with
  | nil => rw [List.append_nil, List.nil_append]
  | cons c blanks ih =>
    obtain ⟨hc, hblanks⟩ := List.forall_mem_cons.mp hblanks
    obtain ⟨hclosed, hcomma, hopens⟩ : isQuote c = false ∧ c ≠ ',' ∧ (Atom.char c).opens = 0 :=
      of_isSpace (P := fun c => isQuote c = false ∧ c ≠ ',' ∧ (Atom.char c).opens = 0) (by decide) hc
    have hinside : Atom.char c = .char ',' → depth ≠ 0 := fun heq => absurd (Atom.char.inj heq) hcomma
    have hatom := splitTopLevelFrom_atom buffer (a := .char c) hclosed hinside (blanks ++ rest)
    rw [hopens, Int.add_zero] at hatom
    exact hatom.trans ((ih (buffer ++ [c]) hblanks).trans (by rw [List.append_assoc]; rfl))

/-- A part lengthens what has been read. -/
theorem splitTopLevelFrom_part {part : List Char} (h : IsPart part) (rest : List Char) :
    splitTopLevelFrom buffer 0 (part ++ rest) = splitTopLevelFrom (buffer ++ part) 0 rest := by
  obtain ⟨⟨atoms, rfl, hatoms⟩, -⟩ := h
  have hcommas : ∀ i < atoms.length, atoms[i]? = some (.char ',') →
      0 + Atom.depth (atoms.take i) ≠ 0 := by
    intro i hi heq
    rw [Int.zero_add]
    exact hatoms.commas i hi heq
  rw [splitTopLevelFrom_atoms buffer hatoms.closed hcommas, hatoms.depth_eq, Int.add_zero]

end SplitTopLevelFrom

/-! ### Parts joined with commas -/

/-- A part with what stands around it. -/
structure Padded where
  left : List Char
  part : List Char
  right : List Char

namespace Padded

/-- The part as it stands in a list. -/
def text (p : Padded) : List Char := p.left ++ (p.part ++ p.right)

/-- A part between white space. -/
structure IsSpaced (p : Padded) : Prop where
  left : ∀ c ∈ p.left, isSpace c = true
  isPart : IsPart p.part
  right : ∀ c ∈ p.right, isSpace c = true

/-- A part is read with the white space around it, which trimming takes off again. -/
theorem IsSpaced.splitTopLevelFrom_text {p : Padded} (h : p.IsSpaced) (rest : List Char) :
    splitTopLevelFrom [] 0 (p.text ++ rest) = splitTopLevelFrom p.text 0 rest ∧ strip p.text = p.part := by
  constructor
  · rw [text, List.append_assoc, List.append_assoc, splitTopLevelFrom_blanks [] h.left,
      splitTopLevelFrom_part _ h.isPart, splitTopLevelFrom_blanks _ h.right, List.nil_append,
      List.append_assoc]
  · rw [text, strip_blanks_append h.left, strip_append_blanks h.right, h.isPart.trimmed]

end Padded

/-- **Cutting a list at its commas undoes joining it.**  Parts with any white space around them are found
again in their order, however they nest brackets and whatever their literals hold. -/
theorem splitTopLevel_joined {padded : List Padded} (hne : padded ≠ [])
    (hpadded : ∀ p ∈ padded, p.IsSpaced) :
    splitTopLevel (joinWith [','] (padded.map Padded.text)) = padded.map Padded.part := by
  unfold splitTopLevel
  induction padded with
  | nil => exact absurd rfl hne
  | cons p padded ih =>
    obtain ⟨hp, hpadded⟩ := List.forall_mem_cons.mp hpadded
    cases padded with
    | nil =>
      obtain ⟨hread, htrim⟩ := hp.splitTopLevelFrom_text []
      rw [List.append_nil, splitTopLevelFrom, htrim] at hread
      exact hread
    | cons q padded =>
      obtain ⟨hread, htrim⟩ :=
        hp.splitTopLevelFrom_text (',' :: joinWith [','] ((q :: padded).map Padded.text))
      rw [List.map_cons, joinWith_cons (by simp), hread, splitTopLevelFrom_comma, htrim,
        ih (List.cons_ne_nil q padded) hpadded]
      rfl

/-- An array with commas in its initialiser, and a text that holds a comma and a bracket. -/
theorem splitTopLevel_joined_initialisers :
    let array : Padded := { left := [], part := "a[] = \x7b1, f(2)\x7d".toList, right := [' '] }
    let word : Padded := { left := ['\n'], part := "s = \",)\\\"\"".toList, right := [] }
    array.IsSpaced ∧ word.IsSpaced ∧
      splitTopLevel "a[] = \x7b1, f(2)\x7d ,\ns = \",)\\\"\"".toList = [array.part, word.part] := by
  intro array word
  have harray : IsPart array.part := by
    have hclosed := Atom.isClosed_of_mem_map_char array.part (by decide)
    exact ⟨⟨array.part.map .char, by decide, hclosed, by decide, by decide⟩, by decide⟩
  have hword : IsPart word.part := by
    have hbody : ClosedBody '"' [',', ')', '\\', '"', '"'] :=
      .char (by decide) (by decide) (by decide) <| .char (by decide) (by decide) (by decide) <|
        .escape '"' .quote
    have hclosed := List.forall_mem_append.mpr
      ⟨Atom.isClosed_of_mem_map_char "s = ".toList (by decide),
        List.forall_mem_singleton.mpr (show (Atom.literal _ _).IsClosed from ⟨rfl, hbody⟩)⟩
    exact ⟨⟨_, by decide, hclosed, by decide, by decide⟩, by decide⟩
  have hspaced : ∀ p ∈ [array, word], p.IsSpaced :=
    List.forall_mem_cons.mpr ⟨⟨by decide, harray, by decide⟩,
      List.forall_mem_singleton.mpr ⟨by decide, hword, by decide⟩⟩
  exact ⟨hspaced array (by simp), hspaced word (by simp),
    splitTopLevel_joined (List.cons_ne_nil array [word]) hspaced⟩

end Coach.Source
