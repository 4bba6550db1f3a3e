import Coach.Proofs.Program.Changes
import Coach.Proofs.Program.Kinds
import Coach.Proofs.Program.SideBySide

/-!
# Unknown values have no influence

Two machines that differ in values that are unknown, and in the input where its position is unknown,
run a body in the same way: they print the same, count the same, end the same, and differ afterwards
in unknown values only.

## Main definitions

* `Machine.Agree`: machines that differ in unknown values only
* `Machine.AgreeBut`: the same, of machines of which the first may know less
* `SameCourse`: one statement, run on both

## Main statements

* `Machine.AgreeBut.execute`: a statement that does not read what only the second machine knows does
  the same on both
* `Machine.runBody_agree`: a body, run on machines that agree

## Design notes

`AgreeBut` carries the names that are known to the second machine only.  With no such name it is
`Agree`.  With one, it compares a machine that has forgotten a variable with the machine that still
has it, so that the same induction over statements shows what reading the variable amounts to.
-/

namespace Coach.Program

open Coach.Text Coach.Source

namespace Machine

/-- Machines that are alike but for values that are unknown and an input whose position is unknown. -/
structure Agree (a b : Machine) : Prop where
  dialect_eq : a.dialect = b.dialect
  output_eq : a.output = b.output
  executed_eq : a.executed = b.executed
  skipped_eq : a.skipped = b.skipped
  /-- The names and the types of the variables are the same. -/
  kind_eq : ∀ name, (a.lookup? name).map (·.kind) = (b.lookup? name).map (·.kind)
  unknown_eq : ∀ name, a.isUnknown name = b.isUnknown name
  /-- The values that are known are the same. -/
  known_eq : ∀ name, a.isUnknown name = false → a.lookup? name = b.lookup? name
  inputUnknown_eq : a.inputUnknown = b.inputUnknown
  /-- The input is the same, unless its position is unknown. -/
  input_eq : a.inputUnknown = false → a.input = b.input

/-- Machines that are alike but for values that are unknown to the first.  The second may know those of
the hidden names. -/
structure AgreeBut (hidden : String → Prop) (a b : Machine) : Prop where
  dialect_eq : a.dialect = b.dialect
  output_eq : a.output = b.output
  executed_eq : a.executed = b.executed
  skipped_eq : a.skipped = b.skipped
  /-- The names and the types of the variables are the same. -/
  kind_eq : ∀ name, (a.lookup? name).map (·.kind) = (b.lookup? name).map (·.kind)
  /-- What is known to the first machine is known to the second, with the same value. -/
  known : ∀ name, a.isUnknown name = false →
    b.isUnknown name = false ∧ a.lookup? name = b.lookup? name
  /-- What is unknown to the first machine is unknown to the second, unless it is hidden. -/
  unknown : ∀ name, a.isUnknown name = true → b.isUnknown name = true ∨ hidden name
  inputUnknown_eq : a.inputUnknown = b.inputUnknown
  /-- The input is the same, unless its position is unknown. -/
  input_eq : SameInput a.inputUnknown a.input b.input

/-- With nothing hidden, machines agree. -/
theorem agree_iff {a b : Machine} : Agree a b ↔ AgreeBut (fun _ => False) a b := by
  constructor
  · intro h
    exact
      { h with
        known := fun name hname => ⟨h.unknown_eq name ▸ hname, h.known_eq name hname⟩
        unknown := fun name hname => Or.inl (h.unknown_eq name ▸ hname) }
  · intro h
    refine { h with unknown_eq := fun name => ?_, known_eq := fun name hname => (h.known name hname).2 }
    cases hname : a.isUnknown name with
    | false => exact (h.known name hname).1.symm
    | true => exact (h.unknown name hname).elim Eq.symm False.elim

end Machine

/-- The fault of reading a hidden name. -/
def Hides (hidden : String → Prop) (why : Fault) : Prop :=
  ∃ name, hidden name ∧ why = .unsupported (.unknownValue name)

/-- Two runs of which the first reads a hidden name, or ends as the second does on a machine that
agrees. -/
inductive SameCourse (hidden : String → Prop) : Machine × Ending → Machine × Ending → Prop
  | stop {why : Fault} {m : Machine} {r : Machine × Ending} :
    Hides hidden why → SameCourse hidden (m, .fault why) r
  | alike {a b : Machine} (ending : Ending) :
    a.AgreeBut hidden b → SameCourse hidden (a, ending) (b, ending)

namespace Machine

namespace AgreeBut

variable {hidden : String → Prop} {a b : Machine}

theorem refl (m : Machine) : AgreeBut hidden m m where
  dialect_eq := rfl
  output_eq := rfl
  executed_eq := rfl
  skipped_eq := rfl
  kind_eq _ := rfl
  known _ hknown := ⟨hknown, rfl⟩
  unknown _ hunknown := Or.inl hunknown
  inputUnknown_eq := rfl
  input_eq _ := rfl

/-- Two machines that agree show the same, but for the hidden names. -/
theorem sameView (h : AgreeBut hidden a b) : SameView (Hides hidden) a b where
  inputUnknown_eq := h.inputUnknown_eq
  read name := by
    have hkind := h.kind_eq name
    unfold Machine.read
    cases ha : a.lookup? name with
    | none =>
      rw [ha, Option.map_none, eq_comm, Option.map_eq_none_iff] at hkind
      rw [hkind]
      exact Follows.fault _
    | some v =>
      cases hunknown : a.isUnknown name with
      | false =>
        obtain ⟨hb, heq⟩ := h.known name hunknown
        rw [← heq, ha, hb]
        exact Follows.value rfl
      | true =>
        rcases h.unknown name hunknown with hb | hhidden
        · rw [ha, Option.map_some, eq_comm, Option.map_eq_some_iff] at hkind
          obtain ⟨w, hw, -⟩ := hkind
          rw [hw, hb]
          exact Follows.fault _
        · exact Follows.stop ⟨name, hhidden, rfl⟩

/-- The inputs of both machines replaced by the same. -/
theorem withInput (h : AgreeBut hidden a b) {i j : Input} (hij : SameInput a.inputUnknown i j) :
    AgreeBut hidden { a with input := i } { b with input := j } :=
  { h with input_eq := hij }

theorem print (h : AgreeBut hidden a b) (text : Str) :
    AgreeBut hidden (a.print text) (b.print text) :=
  { h with output_eq := by simp only [Machine.print, h.output_eq] }

/-- A variable that is written on both machines is known to both. -/
theorem declare_know (h : AgreeBut hidden a b) (name : String) (kind : Kind) (value : Value) :
    AgreeBut hidden ((a.declare name kind value).know name) ((b.declare name kind value).know name) :=
  { h with
    kind_eq := fun other => by
      by_cases hne : other = name
      · subst hne
        simp
      · simp only [lookup?_know, lookup?_declare_of_ne _ _ _ hne, h.kind_eq]
    known := fun other hother => by
      by_cases hne : other = name
      · subst hne
        simp
      · simp only [isUnknown_know_of_ne _ hne, isUnknown_declare] at hother
        simp only [isUnknown_know_of_ne _ hne, isUnknown_declare, lookup?_know,
          lookup?_declare_of_ne _ _ _ hne]
        exact h.known other hother
    unknown := fun other hother => by
      by_cases hne : other = name
      · subst hne
        simp at hother
      · simp only [isUnknown_know_of_ne _ hne, isUnknown_declare] at hother ⊢
        exact h.unknown other hother }

theorem declare_scanner (h : AgreeBut hidden a b) (name : String) :
    AgreeBut hidden (a.declare name .scanner .scanner) (b.declare name .scanner .scanner) :=
  { h with
    kind_eq := fun other => by
      by_cases hne : other = name
      · subst hne
        simp
      · simp only [lookup?_declare_of_ne _ _ _ hne, h.kind_eq]
    known := fun other hother => by
      obtain ⟨hb, heq⟩ := h.known other hother
      refine ⟨hb, ?_⟩
      by_cases hne : other = name
      · subst hne
        simp
      · rw [lookup?_declare_of_ne _ _ _ hne, lookup?_declare_of_ne _ _ _ hne, heq]
    unknown := h.unknown }

/-- A store asks for the type of the variable only, which both machines know. -/
theorem assign (h : AgreeBut hidden a b) (name : String) (value : Value) :
    Follows (Hides hidden) (fun a' b' => AgreeBut hidden a' b' ∧ a'.inputUnknown = a.inputUnknown)
      (a.assign name value) (b.assign name value) := by
  have hkind := h.kind_eq name
  unfold Machine.assign
  cases ha : a.lookup? name with
  | none =>
    rw [ha, Option.map_none, eq_comm, Option.map_eq_none_iff] at hkind
    rw [hkind]
    exact Follows.fault _
  | some v =>
    rw [ha, Option.map_some, eq_comm, Option.map_eq_some_iff] at hkind
    obtain ⟨w, hw, hkind⟩ := hkind
    rw [hw]
    dsimp only
    rw [hkind]
    split
    · exact Follows.fault _
    · refine Follows.bind_same fun stored => Follows.value ⟨?_, rfl⟩
      exact h.declare_know name v.kind stored

/-- Two attempts side by side, and what is made of their answers. -/
theorem andThen {α β : Type} {R : α → β → Prop} (h : AgreeBut hidden a b) {x : Except Fault α}
    {y : Except Fault β} {f : α → Machine × Ending} {g : β → Machine × Ending}
    (hxy : Follows (Hides hidden) R x y) (hfg : ∀ u v, R u v → SameCourse hidden (f u) (g v)) :
    SameCourse hidden (a.andThen x f) (b.andThen y g) := by
  cases hxy with
  | stop hwhy => exact .stop hwhy
  | fault why => exact .alike _ h
  | value huv => exact hfg _ _ huv

/-! ### Statements -/

theorem evaluate (h : AgreeBut hidden a b) (text : List Char) :
    Follows (Hides hidden) (SameRead a.inputUnknown) (Program.evaluate a text)
      (Program.evaluate b text) :=
  evaluate_follows h.sameView h.input_eq text

theorem exitCode (h : AgreeBut hidden a b) (text : List Char) :
    Follows (Hides hidden) Eq (a.exitCode text) (b.exitCode text) := by
  refine (h.evaluate text).bind ?_
  rintro ⟨v, i⟩ ⟨_, j⟩ ⟨rfl, -⟩
  exact Follows.refl _

theorem declareAll (h : AgreeBut hidden a b) (kind : Kind) (parts : List (List Char)) :
    SameCourse hidden (Machine.declareAll kind a parts) (Machine.declareAll kind b parts) := by
  induction parts generalizing a b with
  | nil => exact .alike _ h
  | cons part rest ih =>
    simp only [Machine.declareAll]
    cases Declarator.ofText? part with
    | none => exact .alike _ h
    | some d =>
      refine h.andThen (R := SameRead a.inputUnknown) ?_ ?_
      · -- the initial value is the same in both, with the input behind it
        cases d.value with
        | none => exact Follows.value ⟨rfl, h.input_eq⟩
        | some text => exact h.evaluate text
      rintro ⟨v, i⟩ ⟨_, j⟩ ⟨rfl, hij⟩
      refine (h.withInput hij).andThen (Follows.refl _) ?_
      rintro v _ rfl
      exact ih ((h.withInput hij).declare_know d.name kind v)

/-- Conversions are tried only where the position of the input is known, so both machines take the same
tokens. -/
theorem scanAll (h : AgreeBut hidden a b) (hposition : a.inputUnknown = false)
    (conversions : List (ScanKind × String)) :
    SameCourse hidden (Machine.scanAll a conversions) (Machine.scanAll b conversions) := by
  induction conversions generalizing a b with
  | nil => exact .alike _ h
  | cons conversion rest ih =>
    obtain ⟨kind, name⟩ := conversion
    have hkind := h.kind_eq name
    simp only [Machine.scanAll]
    cases ha : a.lookup? name with
    | none =>
      rw [ha, Option.map_none, eq_comm, Option.map_eq_none_iff] at hkind
      rw [hkind]
      exact .alike _ h
    | some v =>
      rw [ha, Option.map_some, eq_comm, Option.map_eq_some_iff] at hkind
      obtain ⟨w, hw, -⟩ := hkind
      rw [hw, ← h.input_eq hposition]
      dsimp only
      obtain ⟨token, i⟩ := a.input.token?
      have h' := h.withInput fun _ => (rfl : i = i)
      cases token with
      | none => exact .alike _ h'
      | some token =>
        dsimp only
        cases scanned kind token with
        | none => exact .alike _ h'
        | some value =>
          refine h'.andThen (Follows.refl value) ?_
          rintro v _ rfl
          refine h'.andThen (h'.assign name v) ?_
          rintro a' b' ⟨h'', heq⟩
          exact ih h'' (heq.trans hposition)

/-- A statement does the same on both machines, unless it reads a hidden name. -/
theorem execute (h : AgreeBut hidden a b) (statement : Statement) :
    SameCourse hidden (a.execute statement) (b.execute statement) := by
  cases statement with
  | control => exact .alike _ h
  | print kind args =>
    refine h.andThen (evaluateAll_follows h.sameView h.input_eq args) ?_
    rintro ⟨values, i⟩ ⟨_, j⟩ ⟨rfl, hij⟩
    refine h.andThen (Follows.refl _) ?_
    rintro text _ rfl
    exact .alike _ ((h.withInput hij).print text)
  | puts arg =>
    refine h.andThen (h.evaluate arg) ?_
    rintro ⟨v, i⟩ ⟨_, j⟩ ⟨rfl, hij⟩
    refine h.andThen (Follows.refl _) ?_
    rintro text _ rfl
    exact .alike _ ((h.withInput hij).print _)
  | scanf format targets =>
    simp only [Machine.execute, ← h.inputUnknown_eq]
    split
    · exact .alike _ h
    · split
      · exact .alike _ h
      · next hposition => exact h.scanAll (Bool.eq_false_iff.mpr hposition) _
  | scanner name => exact .alike _ (h.declare_scanner name)
  | leave value =>
    simp only [Machine.execute, ← h.dialect_eq]
    split
    · exact .alike _ h
    · refine h.andThen (h.exitCode value) ?_
      rintro code _ rfl
      exact .alike _ h
  | exit code =>
    refine h.andThen (h.exitCode code) ?_
    rintro code _ rfl
    exact .alike _ h
  | declaration kind parts => exact h.declareAll kind parts
  | step name up =>
    refine h.andThen (h.sameView.read name) ?_
    rintro v _ rfl
    refine h.andThen (Follows.refl _) ?_
    rintro v _ rfl
    refine h.andThen (h.assign name v) ?_
    rintro a' b' ⟨h', -⟩
    exact .alike _ h'
  | assignment name op value =>
    refine h.andThen (h.evaluate value) ?_
    rintro ⟨v, i⟩ ⟨_, j⟩ ⟨rfl, hij⟩
    refine h.andThen (R := Eq) ?_ ?_
    · -- a compound assignment reads the variable as well
      cases op with
      | none => exact Follows.refl _
      | some op =>
        refine (h.sameView.read name).bind ?_
        rintro old _ rfl
        exact Follows.refl _
    rintro v _ rfl
    refine h.andThen ((h.withInput hij).assign name v) ?_
    rintro a' b' ⟨h', -⟩
    exact .alike _ h'
  | expression text =>
    refine h.andThen (h.evaluate text) ?_
    rintro ⟨v, i⟩ ⟨_, j⟩ ⟨rfl, hij⟩
    exact .alike _ (h.withInput hij)

end AgreeBut

/-! ### Bodies -/

namespace Agree

variable {a b : Machine}

theorem exists_variable_iff (h : Agree a b) (name : String) (p : Kind → Prop) :
    (∃ v, a.lookup? name = some v ∧ p v.kind) ↔ ∃ v, b.lookup? name = some v ∧ p v.kind := by
  have hkind := h.kind_eq name
  cases ha : a.lookup? name with
  | none =>
    rw [ha, Option.map_none, eq_comm, Option.map_eq_none_iff] at hkind
    simp [hkind]
  | some v =>
    rw [ha, Option.map_some, eq_comm, Option.map_eq_some_iff] at hkind
    obtain ⟨w, hw, hkind⟩ := hkind
    simp [hw, hkind]

/-- A text that is skipped is forgotten on both machines: whether it may write to a variable is judged
by the name and the type of the variable. -/
theorem skip (h : Agree a b) (text : List Char) : Agree (a.skip text) (b.skip text) where
  dialect_eq := h.dialect_eq
  output_eq := h.output_eq
  executed_eq := h.executed_eq
  skipped_eq := congrArg (· + 1) h.skipped_eq
  kind_eq := h.kind_eq
  unknown_eq name := by
    rw [Bool.eq_iff_iff, isUnknown_skip_iff, isUnknown_skip_iff, h.unknown_eq name]
    exact or_congr_right
      (h.exists_variable_iff name fun k => k ≠ .scanner ∧ assigns (mask text) name = true)
  known_eq name hname := by
    refine h.known_eq name ?_
    rw [Bool.eq_false_iff] at hname ⊢
    exact fun hunknown => hname ((isUnknown_skip_iff _ _ _).mpr (Or.inl hunknown))
  inputUnknown_eq := by
    rw [Bool.eq_iff_iff, inputUnknown_skip_iff, inputUnknown_skip_iff, h.inputUnknown_eq]
    refine or_congr_right (or_congr_left (exists_congr fun name => ?_))
    exact h.exists_variable_iff name fun k => k = .scanner ∧ usesMember (mask text) name = true
  input_eq hposition := by
    refine h.input_eq ?_
    rw [Bool.eq_false_iff] at hposition ⊢
    exact fun hunknown => hposition ((inputUnknown_skip_iff _ _).mpr (Or.inl hunknown))

/-- A statement does the same on two machines that agree. -/
theorem execute (h : Agree a b) (statement : Statement) :
    Agree (a.execute statement).1 (b.execute statement).1 ∧
      (a.execute statement).2 = (b.execute statement).2 := by
  have hcourse := (agree_iff.mp h).execute statement
  generalize a.execute statement = x, b.execute statement = y at hcourse
  cases hcourse with
  | stop hwhy =>
    obtain ⟨name, hnone, -⟩ := hwhy
    exact hnone.elim
  | alike ending h' => exact ⟨agree_iff.mpr h', rfl⟩

/-- Two machines that agree run a piece in the same way. -/
theorem runPiece (h : Agree a b) (piece : Piece) :
    Agree (a.runPiece piece).1 (b.runPiece piece).1 ∧
      (a.runPiece piece).2 = (b.runPiece piece).2 := by
  cases piece with
  | compound text => exact ⟨h.skip text, rfl⟩
  | plain text =>
    have hexecution := execute_changes a _ (Statement.ofText_ne_scanner_declaration text)
    have hposition := hexecution.inputUnknown_eq
    obtain ⟨h', hending⟩ := h.execute (Statement.ofText text)
    simp only [Machine.runPiece]
    generalize a.execute (Statement.ofText text) = x, b.execute (Statement.ofText text) = y at *
    obtain ⟨a', ending⟩ := x
    obtain ⟨b', _⟩ := y
    obtain rfl := hending
    cases ending with
    | normal => exact ⟨{ h' with executed_eq := congrArg (· + 1) h'.executed_eq }, rfl⟩
    | exit code => exact ⟨h', rfl⟩
    | fault why =>
      -- the input goes back to where it was, and a statement does not lose its position
      have hrestored : Agree { a' with input := a.input } { b' with input := b.input } :=
        { h' with input_eq := fun hknown => h.input_eq (hposition.symm.trans hknown) }
      cases why with
      | thrown why => exact ⟨h', rfl⟩
      | _ => exact ⟨hrestored.skip text, rfl⟩

/-- Two machines that agree run the same pieces in the same way. -/
theorem runPieces (h : Agree a b) (rest : List Piece) :
    Agree (a.runPieces rest).1 (b.runPieces rest).1 ∧
      (a.runPieces rest).2 = (b.runPieces rest).2 := by
  induction rest generalizing a b with
  | nil => exact ⟨h, rfl⟩
  | cons piece rest ih =>
    obtain ⟨h', hending⟩ := h.runPiece piece
    simp only [Machine.runPieces]
    generalize a.runPiece piece = x, b.runPiece piece = y at h' hending
    obtain ⟨a', ending⟩ := x
    obtain ⟨b', _⟩ := y
    obtain rfl := hending
    cases ending with
    | normal => exact ih h'
    | _ => exact ⟨h', rfl⟩

end Agree

end Machine

end Coach.Program
