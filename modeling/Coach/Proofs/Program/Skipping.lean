import Coach.Proofs.Program.Agreement
import Coach.Proofs.Program.Mention
import Coach.Proofs.Source.Masking

/-!
# Skipping is sound

A statement that is skipped leaves every variable that its text writes to unknown.  Such a variable
stays unknown until it is written again, and until then every statement that needs its value is skipped
as well.

## Main definitions

* `Machine.Skips`: a machine counts a piece as skipped
* `Machine.WrittenBy`: a piece stores to a variable or declares it
* `Machine.WrittenIn`: one of the pieces of a run does
* `Machine.Evaluates`: what a statement does depends on the value of a variable

## Main statements

* `Machine.skip_forgets`: what is unknown behind a skipped piece, and for how long

## Design notes

That a statement evaluates a variable is said by what it does: there is a value for the variable with
which the statement, run where the variable is known to hold it, goes another way than where it is
unknown.  Its text would say less, since `a && b` evaluates `b` only where `a` holds.
-/

namespace Coach.Program

open Coach.Text Coach.Source

namespace Machine

/-- The machine counts a piece as skipped. -/
def Skips (m : Machine) (piece : Piece) : Prop := (m.runPiece piece).1.skipped = m.skipped + 1

/-- The names that a piece, when it is run, stores to or declares. -/
def pieceTargets : Piece → List String
  | .plain text => (Statement.ofText text).targets
  | .compound _ => []

/-- A plain statement that is skipped was tried and has failed. -/
theorem execute_of_skips {m : Machine} {text : List Char} (h : m.Skips (.plain text)) :
    ∃ m' why, m.execute (Statement.ofText text) = (m', .fault why) ∧
      Changes (Statement.ofText text).targets m m' ∧
      m.runPiece (.plain text) = ({ m' with input := m.input }.skip text, .normal) := by
  have hexecution := execute_changes m _ (Statement.ofText_ne_scanner_declaration text)
  have hskipped := hexecution.skipped_eq
  simp only [Skips, runPiece] at h
  simp only [runPiece]
  generalize m.execute (Statement.ofText text) = r at *
  obtain ⟨m', ending⟩ := r
  cases ending with
  | normal =>
    dsimp only at h hskipped
    omega
  | exit code =>
    dsimp only at h hskipped
    omega
  | fault why =>
    have hne : Ending.fault why ≠ .normal := by simp
    refine ⟨m', why, rfl, hexecution.changes_of_ne_normal hne, ?_⟩
    cases why with
    | thrown why =>
      dsimp only at h hskipped
      omega
    | _ => rfl

/-- What a skipped piece leaves: changes to the targets of the piece, with the input as it was, and the
text of the piece forgotten. -/
theorem runPiece_of_skips {m : Machine} {piece : Piece} (h : m.Skips piece) :
    ∃ m', Changes (pieceTargets piece) m m' ∧
      m.runPiece piece = ({ m' with input := m.input }.skip piece.text, .normal) := by
  cases piece with
  | compound text => exact ⟨m, .refl m, rfl⟩
  | plain text =>
    obtain ⟨m', -, -, hchanges, hrun⟩ := execute_of_skips h
    exact ⟨m', hchanges, hrun⟩

/-- A plain statement whose execution meets something unsupported is skipped. -/
theorem skips_of_unsupported {m m' : Machine} {text : List Char} {why : Unsupported}
    (h : m.execute (Statement.ofText text) = (m', .fault (.unsupported why))) :
    m.Skips (.plain text) := by
  have hskipped :=
    (execute_changes m _ (Statement.ofText_ne_scanner_declaration text)).skipped_eq
  rw [h] at hskipped
  simp only [Skips, runPiece, h]
  exact congrArg (· + 1) hskipped

/-! ### How long a variable stays unknown -/

/-- A piece, when it is run, stores to a variable or declares it. -/
def WrittenBy (m : Machine) (name : String) : Piece → Prop
  | .plain text => name ∈ (Statement.ofText text).targets ∧
    ∃ n n', Changes (Statement.ofText text).targets m n ∧ Write name n n' ∧
      Changes (Statement.ofText text).targets n' (m.execute (Statement.ofText text)).1
  | .compound _ => False

/-- One of the pieces, when they are run one after another, stores to a variable or declares it. -/
def WrittenIn (m : Machine) (name : String) (pieces : List Piece) : Prop :=
  ∃ before piece after n, pieces = before ++ piece :: after ∧ m.runPieces before = (n, .normal) ∧
    n.WrittenBy name piece

/-- A skip makes nothing known. -/
theorem isUnknown_skip {m : Machine} {name : String} (h : m.isUnknown name = true)
    (text : List Char) : (m.skip text).isUnknown name = true :=
  (isUnknown_skip_iff m text name).mpr (Or.inl h)

/-- A variable stays unknown over a piece that does not write to it. -/
theorem isUnknown_runPiece {m : Machine} {name : String} {piece : Piece}
    (h : m.isUnknown name = true) (hunwritten : ¬ m.WrittenBy name piece) :
    (m.runPiece piece).1.isUnknown name = true := by
  cases piece with
  | compound text => exact isUnknown_skip h text
  | plain text =>
    have hexecution := execute_changes m _ (Statement.ofText_ne_scanner_declaration text)
    have hstays : (m.execute (Statement.ofText text)).1.isUnknown name = true := by
      cases hknown : (m.execute (Statement.ofText text)).1.isUnknown name with
      | true => rfl
      | false => exact absurd (hexecution.exists_write h hknown) hunwritten
    simp only [runPiece]
    generalize m.execute (Statement.ofText text) = r at hstays
    obtain ⟨m', ending⟩ := r
    cases ending with
    | normal => exact hstays
    | exit code => exact hstays
    | fault why =>
      cases why with
      | thrown why => exact hstays
      | _ => exact isUnknown_skip (m := { m' with input := m.input }) hstays text

/-- A variable stays unknown over a run of which no piece writes to it. -/
theorem isUnknown_runPieces {m : Machine} {name : String} {pieces : List Piece}
    (h : m.isUnknown name = true) (hunwritten : ¬ m.WrittenIn name pieces) :
    (m.runPieces pieces).1.isUnknown name = true := by
  induction pieces generalizing m with
  | nil => exact h
  | cons piece rest ih =>
    have hpiece : ¬ m.WrittenBy name piece := fun hwritten =>
      hunwritten ⟨[], piece, rest, m, rfl, rfl, hwritten⟩
    have hnext := isUnknown_runPiece h hpiece
    -- a write in the rest of the run is one in the whole run, one piece later
    have hrest : ∀ m', m.runPiece piece = (m', .normal) → ¬ m'.WrittenIn name rest := by
      rintro m' hm' ⟨before, later, after, n, rfl, hrun, hwritten⟩
      refine hunwritten ⟨piece :: before, later, after, n, rfl, ?_, hwritten⟩
      simp only [runPieces, hm', hrun]
    simp only [runPieces]
    generalize hr : m.runPiece piece = r at hnext
    obtain ⟨m', ending⟩ := r
    cases ending with
    | normal => exact ih hnext (hrest m' hr)
    | _ => exact hnext

/-! ### Statements that need the value -/

/-- The machine with a value of a variable made known. -/
def reveal (m : Machine) (name : String) (value : Value) : Machine :=
  match m.lookup? name with
  | none => m
  | some v => (m.declare name v.kind value).know name

/-- There is a value of a variable with which the statement does something else than where the variable
is unknown: it ends in another way, or it leaves a machine that differs in more than that value. -/
def Evaluates (m : Machine) (name : String) (statement : Statement) : Prop :=
  ∃ value, ¬ ((m.execute statement).1.AgreeBut (· = name) ((m.reveal name value).execute statement).1 ∧
    (m.execute statement).2 = ((m.reveal name value).execute statement).2)

/-- A variable that is made known is all that is new. -/
theorem agreeBut_reveal {m : Machine} {name : String} (h : m.isUnknown name = true) (value : Value) :
    m.AgreeBut (· = name) (m.reveal name value) := by
  have hrefl : m.AgreeBut (· = name) m := AgreeBut.refl m
  unfold reveal
  cases hv : m.lookup? name with
  | none => exact hrefl
  | some v =>
    refine
      { hrefl with
        kind_eq := fun other => ?_
        known := fun other hother => ?_
        unknown := fun other hother => ?_ }
    · by_cases hne : other = name
      · subst hne
        simp [hv]
      · simp only [lookup?_know, lookup?_declare_of_ne _ _ _ hne]
    · have hne : other ≠ name := by
        rintro rfl
        exact absurd (h.symm.trans hother) (by decide)
      simp only [isUnknown_know_of_ne _ hne, isUnknown_declare, lookup?_know,
        lookup?_declare_of_ne _ _ _ hne]
      exact ⟨hother, trivial⟩
    · by_cases hne : other = name
      · exact Or.inr hne
      · simp only [isUnknown_know_of_ne _ hne, isUnknown_declare]
        exact Or.inl hother

/-- A statement that evaluates an unknown variable is skipped. -/
theorem skips_of_evaluates {m : Machine} {name : String} {text : List Char}
    (h : m.isUnknown name = true) (hevaluates : m.Evaluates name (Statement.ofText text)) :
    m.Skips (.plain text) := by
  obtain ⟨value, hdiffers⟩ := hevaluates
  have hcourse := (agreeBut_reveal h value).execute (Statement.ofText text)
  generalize hr : m.execute (Statement.ofText text) = r,
    (m.reveal name value).execute (Statement.ofText text) = r' at hcourse hdiffers
  cases hcourse with
  | stop hwhy =>
    obtain ⟨_, rfl, rfl⟩ := hwhy
    exact skips_of_unsupported hr
  | alike ending hagree => exact absurd ⟨hagree, rfl⟩ hdiffers

/-! ### The whole -/

/-- **Skipping is sound.**  A variable that is mentioned in a skipped piece is unknown right behind it.
Wherever the run comes from there without having written to the variable, it is unknown still, and
every statement that evaluates it is skipped. -/
theorem skip_forgets {m : Machine} {piece : Piece} {name : String} (hskip : m.Skips piece)
    (hvariable : m.HasVariable name ∨ (m.runPiece piece).1.HasVariable name)
    (hmentions : Mentions (mask piece.text) name) :
    (m.runPiece piece).1.isUnknown name = true ∧
      ∀ later, ¬ (m.runPiece piece).1.WrittenIn name later →
        ((m.runPiece piece).1.runPieces later).1.isUnknown name = true ∧
        ∀ text, ((m.runPiece piece).1.runPieces later).1.Evaluates name (Statement.ofText text) →
          ((m.runPiece piece).1.runPieces later).1.Skips (.plain text) := by
  have hunknown : (m.runPiece piece).1.isUnknown name = true := by
    obtain ⟨m', hchanges, hrun⟩ := runPiece_of_skips hskip
    rw [hrun] at hvariable ⊢
    have hvariable : m'.HasVariable name := hvariable.elim hchanges.hasVariable id
    obtain ⟨v, hv, hkind⟩ := hvariable
    exact (isUnknown_skip_iff _ _ _).mpr (Or.inr ⟨v, hv, hkind, assigns_of_mentions hmentions⟩)
  refine ⟨hunknown, fun later hunwritten => ?_⟩
  have hlater := isUnknown_runPieces hunknown hunwritten
  exact ⟨hlater, fun text hevaluates => skips_of_evaluates hlater hevaluates⟩

/-- A loop that adds to a variable. -/
theorem skip_forgets_loop :
    let m := ({ dialect := .java, input := Input.ofValues [] } : Machine).declare "n" .int (.int 0)
    let piece := Piece.compound "while (b) n += 1".toList
    m.Skips piece ∧ m.HasVariable "n" ∧ Mentions (mask piece.text) "n" ∧
      (m.runPiece piece).1.isUnknown "n" = true ∧
      ∀ later, ¬ (m.runPiece piece).1.WrittenIn "n" later →
        ((m.runPiece piece).1.runPieces later).1.isUnknown "n" = true ∧
        ∀ text, ((m.runPiece piece).1.runPieces later).1.Evaluates "n" (Statement.ofText text) →
          ((m.runPiece piece).1.runPieces later).1.Skips (.plain text) := by
  intro m piece
  have hskip : m.Skips piece := rfl
  have hvariable : m.HasVariable "n" := ⟨_, lookup?_declare_self _ _ _ _, by decide⟩
  have hmentions : Mentions (mask piece.text) "n" := by
    rw [mask_of_code (by decide)]
    refine ⟨"while (b) ".toList, " += 1".toList, rfl, ?_, ?_, Or.inl ?_⟩
    · intro c hc
      obtain rfl : ' ' = c := Option.some.inj hc
      decide
    · intro c hc
      obtain rfl : ' ' = c := Option.some.inj hc
      decide
    · exact @WritesBehind.assignment [' '] "+" " 1".toList (by decide) (by decide) (by decide)
  exact ⟨hskip, hvariable, hmentions, skip_forgets hskip (Or.inl hvariable) hmentions⟩

end Machine

end Coach.Program
