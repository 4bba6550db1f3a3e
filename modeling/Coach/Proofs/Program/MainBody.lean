import Coach.Program.Run
import Coach.Proofs.Source.Braces
import Coach.Proofs.Text.Replacing

/-!
# The body of the main function

What is run of a source is cut out of the text without its comments: from the brace that follows the header
of the main function to the one that closes it.  The check of a source's shape counts braces only, so that
a brace which is closed too often before can make up for one that is never closed.  The body then goes on
to the end of the text, and its last character is cut off.

## Main definitions

* `OpensMain`: the brace that opens the main function
* `wholeBody`: everything that belongs to the main function

## Main statements

* `mainBody?_of_opensMain`: the body that is cut out, by the place at which it is closed
* `body_of_checked`: what is run of a source of sound shape, and when that is the whole body
* `checked_without_last_character`: a source that is run without its last semicolon
-/

namespace Coach.Program

open Coach.Source Coach.Text

/-- The first brace behind the header of the main function, outside comments and literals. -/
def OpensMain (code : List Char) (dialect : Dialect) (start : Nat) : Prop :=
  ∃ gap, ((mainHeader dialect).search? (mask code)).map Match.rest =
      some (gap ++ (mask code).drop start) ∧
    '\x7b' ∉ gap ∧ (mask code)[start]? = some '\x7b'

/-- The text strictly between two places. -/
def between (text : List Char) (first last : Nat) : List Char :=
  (text.drop (first + 1)).take (last - (first + 1))

/-- What belongs to the main function that is opened at a place, without comments: everything up to the
brace that closes it, or everything. -/
def wholeBody (code : List Char) (start : Nat) : List Char :=
  match closing? (mask code) start with
  | some last => between (maskComments code) start last
  | none => (maskComments code).drop (start + 1)

variable {code : List Char} {dialect : Dialect} {start : Nat}

/-- The body is cut out of the block that is opened behind the header. -/
theorem mainBody?_eq_block (h : OpensMain code dialect start) :
    mainBody? code dialect =
      some ((takeBlock 0 ((maskComments code).drop start)).1.drop 1).dropLast := by
  obtain ⟨gap, hheader, hgap, hbrace⟩ := h
  obtain ⟨m, hm, hrest⟩ := Option.map_eq_some_iff.mp hheader
  have hlt : start < (mask code).length := (List.getElem?_eq_some_iff.mp hbrace).1
  have hdrop := drop_of_getElem? hbrace
  have htake : m.rest.takeWhile (· != '\x7b') = gap := by
    have hall : ∀ c ∈ gap, (c != '\x7b') = true := fun c hc => bne_iff_ne.mpr fun heq => hgap (heq ▸ hc)
    rw [hrest, hdrop, List.takeWhile_append_of_pos hall]
    simp
  have hlength : gap.length + ((mask code).length - start) = m.rest.length := by
    rw [hrest, List.length_append, List.length_drop]
  have hbefore : m.before.length + m.taken.length + gap.length = start := by
    have htext := congrArg List.length (Pattern.eq_of_searchFrom? hm)
    simp only [List.length_append] at htext
    omega
  have hsome : ¬ gap.length = m.rest.length := by omega
  simp only [mainBody?, hm, Option.bind_some, htake, if_neg hsome, hbefore]

/-- What is cut out ends before the closing brace or, when there is none, before the last character. -/
theorem mainBody?_of_opensMain (h : OpensMain code dialect start) :
    mainBody? code dialect = some (match closing? (mask code) start with
      | some last => between (maskComments code) start last
      | none => ((maskComments code).drop (start + 1)).dropLast) := by
  obtain ⟨-, -, -, hbrace⟩ := id h
  have hend := blockEnd_maskComments code start hbrace
  have happend := takeBlock_append 0 ((maskComments code).drop start)
  have hlength : (maskComments code).length = code.length := (keepsPlaces_maskComments code).length_eq
  rw [mainBody?_eq_block h]
  rw [blockEnd] at hend
  generalize (takeBlock 0 ((maskComments code).drop start)).1 = block at hend happend
  have hblock : block = ((maskComments code).drop start).take block.length := by
    rw [← happend, List.take_left]
  have hdrop : block.drop 1 = ((maskComments code).drop (start + 1)).take (block.length - 1) := by
    rw [← List.drop_drop, ← List.drop_take, ← hblock]
  have hinner : (block.drop 1).dropLast =
      ((maskComments code).drop (start + 1)).take (block.length - 2) := by
    rw [List.dropLast_eq_take, List.length_drop, hdrop, List.take_take, Nat.min_eq_left (by omega)]
    rfl
  rw [hinner]
  cases hclosing : closing? (mask code) start with
  | some last =>
    rw [hclosing, Option.map_some, Option.getD_some] at hend
    have hcount : block.length - 2 = last - (start + 1) := by omega
    rw [hcount]
    rfl
  | none =>
    rw [hclosing, Option.map_none, Option.getD_none] at hend
    have hcount : block.length - 2 = code.length - (start + 1) - 1 := by omega
    rw [hcount, List.dropLast_eq_take, List.length_drop, hlength]

/-- **The body of the main function.**  Of a source of sound shape in which a brace follows the header of
the main function, the text strictly between that brace and the one that closes it is run, without
comments.  When nothing closes it, everything behind it is run but the last character.  So nothing is cut
off exactly when the brace is closed, or when nothing stands behind it. -/
theorem body_of_checked (source : String) (stdin : List String)
    (hshape : checkShape source.toList (dialectOf source.toList) = none)
    (hopen : OpensMain source.toList (dialectOf source.toList) start) :
    let code := source.toList
    let dialect := dialectOf code
    simulate source stdin = runMain code dialect stdin ∧
      mainBody? code dialect = some (match closing? (mask code) start with
        | some last => between (maskComments code) start last
        | none => ((maskComments code).drop (start + 1)).dropLast) ∧
      (mainBody? code dialect = some (wholeBody code start) ↔
        (closing? (mask code) start).isSome ∨ start + 1 = code.length) := by
  intro code dialect
  have hbody := mainBody?_of_opensMain hopen
  have hlength : (maskComments code).length = code.length := (keepsPlaces_maskComments code).length_eq
  have hlt : start < code.length := by
    obtain ⟨-, -, -, hbrace⟩ := hopen
    rw [← (keepsPlaces_mask code).length_eq]
    exact (List.getElem?_eq_some_iff.mp hbrace).1
  refine ⟨?_, hbody, ?_⟩
  · simp only [simulate, hshape, dialect, code]
  · rw [hbody, Option.some_inj, wholeBody]
    cases closing? (mask code) start with
    | some last => exact iff_of_true rfl (Or.inl rfl)
    | none =>
      -- a list without its last element is another list, unless it is empty
      simp only [Option.isSome_none, Bool.false_eq_true, false_or]
      constructor
      · intro heq
        have hcut := congrArg List.length heq
        rw [List.length_dropLast, List.length_drop, hlength] at hcut
        omega
      · intro heq
        rw [List.drop_of_length_le (Nat.le_of_eq (hlength.trans heq.symm))]
        rfl

/-- A closed main function, with a brace in a literal. -/
theorem body_of_checked_closed :
    let source := "int main() \x7bputs(\"\x7d\");\x7d"
    let code := source.toList
    let dialect := dialectOf code
    checkShape code dialect = none ∧ OpensMain code dialect 11 ∧
      (simulate source [] = runMain code dialect [] ∧
        mainBody? code dialect = some (match closing? (mask code) 11 with
          | some last => between (maskComments code) 11 last
          | none => ((maskComments code).drop 12).dropLast) ∧
        (mainBody? code dialect = some (wholeBody code 11) ↔
          (closing? (mask code) 11).isSome ∨ 12 = code.length)) := by
  intro source code dialect
  have hshape : checkShape code dialect = none := by decide +kernel
  have hopen : OpensMain code dialect 11 := ⟨[' '], by decide +kernel, by decide, by decide +kernel⟩
  exact ⟨hshape, hopen, body_of_checked source [] hshape hopen⟩

/-- A brace that closes nothing makes up for the one that is not closed, and what is run lacks the last
semicolon. -/
theorem checked_without_last_character :
    let code := "\x7dint main() \x7bputs(\"5\");".toList
    checkShape code (dialectOf code) = none ∧ OpensMain code (dialectOf code) 12 ∧
      wholeBody code 12 = "puts(\"5\");".toList ∧
      mainBody? code (dialectOf code) = some "puts(\"5\")".toList := by
  intro code
  exact ⟨by decide +kernel, ⟨[' '], by decide +kernel, by decide, by decide +kernel⟩, by decide +kernel,
    by decide +kernel⟩

end Coach.Program
