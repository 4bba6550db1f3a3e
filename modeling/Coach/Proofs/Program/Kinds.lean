import Coach.Program.Statement

/-!
# The kind of a statement, read back

A statement of a kind comes from a text that its pattern matches, with operands that are the groups of
the match.

## Main definitions

* `Statement.OperandsOf`: the operands are groups of a match

## Main statements

* `Statement.ofText_eq_declaration`, `Statement.ofText_eq_scanf`: the match behind a declaration and
  behind a `scanf`
* `Statement.ofText_ne_scanner_declaration`: a declaration declares no scanner
-/

namespace Coach.Program

open Coach.Text Coach.Source

namespace Statement

theorem exists_of_firstOf {α : Type} {attempts : List (Unit → Option α)} {answer : α}
    (h : firstOf attempts = some answer) : ∃ attempt ∈ attempts, attempt () = some answer := by
  induction attempts with
  | nil => cases h
  | cons attempt rest ih =>
    simp only [firstOf] at h
    split at h
    · next hsome => exact ⟨attempt, List.mem_cons_self, hsome.trans h⟩
    · obtain ⟨later, hmem, hsome⟩ := ih h
      exact ⟨later, List.mem_cons_of_mem _ hmem, hsome⟩

/-- The operands of a statement are groups of a match of its text. -/
def OperandsOf (text : List Char) : Statement → Prop
  | .scanf format targets =>
    ∃ m, scanfCall.match? text = some m ∧ format = m.group 1 ∧ targets = m.group 2
  | .declaration kind parts =>
    ∃ m, declarationStatement.match? text = some m ∧
      kind = kindOfWords ((words (m.group 1)).map String.ofList) ∧ parts = splitTopLevel (m.group 2)
  | _ => True

theorem operandsOf_ofText (text : List Char) : OperandsOf text (ofText text) := by
  unfold ofText
  dsimp only
  generalize hread : firstOf _ = read
  cases read with
  | none => trivial
  | some statement =>
    obtain ⟨attempt, hmem, hsome⟩ := exists_of_firstOf hread
    simp only [List.mem_cons, List.not_mem_nil, or_false] at hmem
    rcases hmem with rfl | rfl | rfl | rfl | rfl | rfl | rfl | rfl | rfl | rfl | rfl <;>
      obtain ⟨m, hmatch, rfl⟩ := Option.map_eq_some_iff.mp hsome
    case inr.inr.inr.inr.inl => exact ⟨m, hmatch, rfl, rfl⟩
    case inr.inr.inr.inr.inr.inr.inr.inr.inl => exact ⟨m, hmatch, rfl, rfl⟩
    all_goals trivial

/-- A declaration comes from a match of its pattern. -/
theorem ofText_eq_declaration {text : List Char} {kind : Kind} {parts : List (List Char)}
    (h : ofText text = .declaration kind parts) :
    ∃ m, declarationStatement.match? text = some m ∧
      kind = kindOfWords ((words (m.group 1)).map String.ofList) ∧
      parts = splitTopLevel (m.group 2) := by
  have hoperands := operandsOf_ofText text
  rwa [h] at hoperands

/-- A `scanf` comes from a match of its pattern. -/
theorem ofText_eq_scanf {text format targets : List Char} (h : ofText text = .scanf format targets) :
    ∃ m, scanfCall.match? text = some m ∧ format = m.group 1 ∧ targets = m.group 2 := by
  have hoperands := operandsOf_ofText text
  rwa [h] at hoperands

theorem kindOfWords_ne_scanner (words : List String) : kindOfWords words ≠ .scanner := by
  unfold kindOfWords
  repeat' split
  all_goals decide

/-- A declaration that is read from a text declares no scanner. -/
theorem ofText_ne_scanner_declaration (text : List Char) (parts : List (List Char)) :
    ofText text ≠ .declaration .scanner parts := by
  intro h
  obtain ⟨m, -, hkind, -⟩ := ofText_eq_declaration h
  exact kindOfWords_ne_scanner _ hkind.symm

end Statement

end Coach.Program
