import Coach.Proofs.Program.Declarations
import Coach.Proofs.Program.ScanTargets
import Coach.Proofs.Program.Skipping
import Mathlib

/-!
# Statements that fail half way

A statement that is skipped may have written to some of its targets before it failed.  Nothing rolls
these writes back: the targets are forgotten because the text mentions them.  A declarator without an
initial value is not mentioned, and neither is a target of `scanf` without an address mark.

## Main definitions

* `Statement.bareTargets`: the targets that the text of a statement need not mention
* `Machine.KnownBefore`: a variable that is known behind was known before

## Main statements

* `Machine.skip_atomic_iff`: when a skipped statement leaves nothing behind
* `Machine.skip_keeps_bare_declarator`: a declaration that leaves something behind
-/

namespace Coach.Program

open Coach.Text Coach.Source

namespace Statement

/-- The targets that the text of a statement need not mention.  A line break in the format of a `scanf`
takes the mask off its track, and with it the test for mentions. -/
def bareTargets : Statement → List String
  | .declaration _ parts => bareNames parts
  | .scanf format targets => if '\n' ∈ format then scanTargets targets else bareScanTargets targets
  | _ => []

end Statement

namespace Machine

/-- A variable that is known behind was known before, with the same type and value. -/
def KnownBefore (m m' : Machine) (name : String) : Prop :=
  ∀ v, m'.lookup? name = some v → m'.isUnknown name = false →
    m.lookup? name = some v ∧ m.isUnknown name = false

theorem SameVariable.knownBefore {m m' : Machine} {name : String} (h : m.SameVariable m' name) :
    m.KnownBefore m' name := fun _ hv hknown => ⟨h.1.symm.trans hv, h.2.symm.trans hknown⟩

/-! ### Failures -/

/-- A failed attempt leaves the machine as it was, if what follows does. -/
theorem eq_of_andThen_fault {α : Type} {m m' : Machine} {why : Fault} {attempt : Except Fault α}
    {next : α → Machine × Ending} (h : m.andThen attempt next = (m', .fault why))
    (hnext : ∀ a, next a = (m', .fault why) → m' = m) : m' = m := by
  cases attempt with
  | error why => exact (Prod.mk.inj h).1.symm
  | ok a => exact hnext a h

/-- Only declarations and `scanf` write before they fail. -/
theorem eq_of_execute_fault {m m' : Machine} {why : Fault} {statement : Statement}
    (h : m.execute statement = (m', .fault why))
    (hdeclaration : ∀ kind parts, statement ≠ .declaration kind parts)
    (hscanf : ∀ format targets, statement ≠ .scanf format targets) : m' = m := by
  cases statement with
  | control => exact (Prod.mk.inj h).1.symm
  | print kind args =>
    refine eq_of_andThen_fault h fun _ h => eq_of_andThen_fault h fun _ h => ?_
    cases h
  | puts arg =>
    refine eq_of_andThen_fault h fun _ h => eq_of_andThen_fault h fun _ h => ?_
    cases h
  | scanf format targets => exact absurd rfl (hscanf format targets)
  | scanner name => cases h
  | leave value =>
    simp only [execute] at h
    split at h
    · cases h
    · refine eq_of_andThen_fault h fun _ h => ?_
      cases h
  | exit code =>
    refine eq_of_andThen_fault h fun _ h => ?_
    cases h
  | declaration kind parts => exact absurd rfl (hdeclaration kind parts)
  | step name up =>
    refine eq_of_andThen_fault h fun _ h => eq_of_andThen_fault h fun _ h => ?_
    refine eq_of_andThen_fault h fun _ h => ?_
    cases h
  | assignment name op value =>
    refine eq_of_andThen_fault h fun _ h => eq_of_andThen_fault h fun _ h => ?_
    refine eq_of_andThen_fault h fun _ h => ?_
    cases h
  | expression text =>
    refine eq_of_andThen_fault h fun _ h => ?_
    cases h

/-- What a statement has changed when it fails is bare or mentioned. -/
theorem sameVariable_of_fault {m m' : Machine} {why : Fault} {text : List Char} {name : String}
    (h : m.execute (Statement.ofText text) = (m', .fault why))
    (hchanges : Changes (Statement.ofText text).targets m m')
    (hbare : name ∉ (Statement.ofText text).bareTargets)
    (hunmentioned : assigns (mask text) name = false) : m.SameVariable m' name := by
  cases hstatement : Statement.ofText text with
  | declaration kind parts =>
    rw [hstatement] at h hbare
    have hsame := declaration_mentions hstatement m hbare hunmentioned
    have hm' : (declareAll kind m parts).1 = m' := congrArg Prod.fst h
    rwa [hm'] at hsame
  | scanf format targets =>
    rw [hstatement] at hbare hchanges
    refine hchanges.sameVariable_of_notMem fun hname => ?_
    simp only [Statement.bareTargets] at hbare
    split at hbare
    · exact hbare hname
    · next hline =>
      have hmentioned := assigns_of_scanTarget hstatement hline hname hbare
      rw [hunmentioned] at hmentioned
      cases hmentioned
  | _ =>
    rw [eq_of_execute_fault h (by simp [hstatement]) (by simp [hstatement])]
    exact .refl m name

/-! ### The whole -/

/-- **When a skipped statement is atomic.**  It leaves the output, the input and the count of
executed statements as they were.  It leaves a variable behind, known as it was not before, exactly
when the part that was executed has made such a variable of a bare target, and the text does not
mention that target. -/
theorem skip_atomic_iff {m : Machine} {text : List Char} (hskip : m.Skips (.plain text)) :
    (m.runPiece (.plain text)).1.output = m.output ∧ (m.runPiece (.plain text)).1.input = m.input ∧
      (m.runPiece (.plain text)).1.executed = m.executed ∧
      ((∀ name, m.KnownBefore (m.runPiece (.plain text)).1 name) ↔
        ∀ name ∈ (Statement.ofText text).bareTargets, assigns (mask text) name = false →
          m.KnownBefore (m.execute (Statement.ofText text)).1 name) := by
  obtain ⟨m', why, hfault, hchanges, hrun⟩ := execute_of_skips hskip
  rw [hrun, hfault]
  refine ⟨hchanges.output_eq, rfl, hchanges.executed_eq, fun hknown name _ hunmentioned => ?_,
    fun hbare name v hv hknown => ?_⟩
  · -- the text forgets nothing that it does not mention
    intro v hv hknown'
    refine hknown name v hv ?_
    rw [← Bool.not_eq_true, isUnknown_skip_iff]
    rintro (hunknown | ⟨_, -, -, hmentioned⟩)
    · exact absurd (hknown'.symm.trans hunknown) (by decide)
    · exact absurd (hunmentioned.symm.trans hmentioned) (by decide)
  · rw [← Bool.not_eq_true, isUnknown_skip_iff, not_or] at hknown
    obtain ⟨hknown, hforgotten⟩ := hknown
    have hknown : m'.isUnknown name = false := Bool.eq_false_iff.mpr hknown
    cases hmentioned : assigns (mask text) name with
    | true =>
      -- what is mentioned and known is a scanner, and no scanner has changed
      rcases hchanges.sameVariable_or_hasVariable name with hsame | ⟨v', hv', hkind⟩
      · exact hsame.knownBefore v hv hknown
      · exact absurd ⟨v', hv', hkind, hmentioned⟩ hforgotten
    | false =>
      by_cases hname : name ∈ (Statement.ofText text).bareTargets
      · exact hbare name hname hmentioned v hv hknown
      · exact (sameVariable_of_fault hfault hchanges hname hmentioned).knownBefore v hv hknown

set_option maxRecDepth 10000 in
theorem ofText_half_declaration :
    Statement.ofText "int n, a[3]".toList = .declaration .int ["n".toList, "a[3]".toList] := by cbv

/-- The declaration fails behind its first variable. -/
theorem execute_half_declaration (m : Machine) :
    m.execute (Statement.ofText "int n, a[3]".toList) =
      ((m.declare "n" .int (.int 0)).know "n", .fault (.unsupported .declarator)) := by
  have hfirst : Declarator.ofText? "n".toList = some ⟨"n", none⟩ := by cbv
  have hsecond : Declarator.ofText? "a[3]".toList = none := by cbv
  rw [ofText_half_declaration]
  simp only [execute, declareAll, hfirst, hsecond]
  rfl

theorem skip_atomic_iff_half_declaration :
    let m : Machine := { dialect := .c, input := Input.ofValues [] }
    let text := "int n, a[3]".toList
    m.Skips (.plain text) ∧ (m.runPiece (.plain text)).1.output = m.output ∧
      (m.runPiece (.plain text)).1.input = m.input ∧
      (m.runPiece (.plain text)).1.executed = m.executed ∧
      ((∀ name, m.KnownBefore (m.runPiece (.plain text)).1 name) ↔
        ∀ name ∈ (Statement.ofText text).bareTargets, assigns (mask text) name = false →
          m.KnownBefore (m.execute (Statement.ofText text)).1 name) := by
  intro m text
  have hskip : m.Skips (.plain text) := skips_of_unsupported (execute_half_declaration m)
  exact ⟨hskip, skip_atomic_iff hskip⟩

/-- A declaration that leaves a variable behind, known although it was not there before. -/
theorem skip_keeps_bare_declarator :
    let m : Machine := { dialect := .c, input := Input.ofValues [] }
    let text := "int n, a[3]".toList
    m.Skips (.plain text) ∧ ¬ m.KnownBefore (m.runPiece (.plain text)).1 "n" := by
  intro m text
  have hfault := execute_half_declaration m
  refine ⟨skips_of_unsupported hfault, fun hknown => ?_⟩
  have hrun : (m.runPiece (.plain text)).1 =
      { (m.declare "n" .int (.int 0)).know "n" with input := m.input }.skip text := by
    simp only [runPiece, text, hfault]
  have hlookup : (m.runPiece (.plain text)).1.lookup? "n" = some ⟨.int, .int 0⟩ := by
    rw [hrun]
    rfl
  have hunmentioned : assigns (mask text) "n" = false := by
    rw [mask_of_code (by decide)]
    decide +kernel
  have hstays : (m.runPiece (.plain text)).1.isUnknown "n" = false := by
    rw [hrun, ← Bool.not_eq_true, isUnknown_skip_iff]
    rintro (hunknown | ⟨_, -, -, hmentioned⟩)
    · exact absurd hunknown (by decide)
    · exact absurd (hunmentioned.symm.trans hmentioned) (by decide)
  cases (hknown _ hlookup hstays).1

end Machine

end Coach.Program
