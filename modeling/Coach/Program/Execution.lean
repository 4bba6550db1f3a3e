import Coach.Program.Assignment
import Coach.Program.Expression
import Coach.Program.Statement
import Coach.Source.Mask

/-!
# Running a body

Statement by statement: a plain statement is tried, and skipped when it is unsupported or goes past a
limit; a compound one is skipped at once. Skipping never ends a run, but what the skipped text may
have changed is unknown from there on.

## Main definitions

* `Outcome`: how a body ends
* `Machine.execute`: one plain statement
* `Machine.skip`: what is forgotten when a statement is skipped
* `Machine.runPieces`: a body

## Design notes

A statement that fails part of the way keeps the variables it has declared or stored by then, so
`execute` answers a machine also when it fails. The input position alone goes back.
-/

namespace Coach.Program

open Coach.Text Coach.Source

/-- How a statement or a body ends: by going on, by leaving the program, or by a fault. -/
inductive Ending where
  | normal
  | exit (code : Int)
  | fault (why : Fault)

namespace Machine

/-- Goes on from an attempt with the machine that it answers, or ends with its fault. -/
def andThen {α : Type} (m : Machine) (attempt : Except Fault α) (next : α → Machine × Ending) :
    Machine × Ending :=
  match attempt with
  | .ok a => next a
  | .error why => (m, .fault why)

/-- Prints values as a print statement of a kind does. -/
def printed (kind : PrintKind) (values : List Value) : Except Fault Str :=
  match kind, values with
  | .line, [] => .ok [10]
  | .line, [v] => do return (← v.show) ++ [10]
  | .plain, [v] => v.show
  | .formatted, .str text :: args => format text args
  | _, _ => unsupported .arity

/-- The declarators of one declaration, in order; each may read those before it. -/
def declareAll (kind : Kind) : Machine → List (List Char) → Machine × Ending
  | m, [] => (m, .normal)
  | m, part :: rest =>
    match Declarator.ofText? part with
    | none => (m, .fault (.unsupported .declarator))
    | some d =>
      let initial : Except Fault (Value × Input) := match d.value with
        | none => .ok (if kind = .string then .null else .int 0, m.input)
        | some text => evaluate m text
      m.andThen initial fun (v, input) =>
        let m := { m with input }
        m.andThen (coerce kind v) fun v => declareAll kind ((m.declare d.name kind v).know d.name) rest

/-- What a conversion of `scanf` makes of a token; nothing when the token does not fit. -/
def scanned (kind : ScanKind) (token : List Char) : Option (Except Fault Value) :=
  match kind with
  | .integer => (integerText? token).map fun n => n.map .int
  | .real => (readFloat? token).map fun x => .ok (.float x)
  | .character => some (.ok (.char (Str.ofChars (token.take 1))))
  | .word => some (.ok (.str (.ofChars token)))

/-- The conversions of one `scanf` with their targets, in order. The first token that is missing or
does not fit ends it. -/
def scanAll : Machine → List (ScanKind × String) → Machine × Ending
  | m, [] => (m, .normal)
  | m, (kind, name) :: rest =>
    match m.lookup? name with
    | none => (m, .fault (.unsupported (.unknownVariable name)))
    | some _ =>
      match m.input.token? with
      | (none, input) => ({ m with input }, .normal)
      | (some token, input) =>
        let m := { m with input }
        match scanned kind token with
        | none => (m, .normal)
        | some value =>
          m.andThen value fun v => m.andThen (m.assign name v) fun m => scanAll m rest

/-- The integer that the value of an expression counts as. -/
def exitCode (m : Machine) (text : List Char) : Except Fault Int := do
  let (v, _) ← evaluate m text
  toInt (← v.number)

/-- Executes one plain statement. -/
def execute (m : Machine) : Statement → Machine × Ending
  | .control => (m, .fault (.unsupported .control))
  | .print kind args =>
    m.andThen (evaluateAll m args) fun (values, input) =>
      m.andThen (printed kind values) fun text => ({ m with input }.print text, .normal)
  | .puts arg =>
    m.andThen (evaluate m arg) fun (v, input) =>
      m.andThen v.show fun text => ({ m with input }.print (text ++ [10]), .normal)
  | .scanf formatText targets =>
    let conversions := scanConversions (plainChars (unescape (formatText.drop 1).dropLast))
    let names := scanTargets targets
    if conversions.length ≠ names.length then (m, .fault (.unsupported .arity))
    else if m.inputUnknown then (m, .fault (.unsupported .unknownInput))
    else scanAll m (conversions.zip names)
  | .scanner name => (m.declare name .scanner .scanner, .normal)
  | .leave value =>
    if value.isEmpty || m.dialect ≠ .c then (m, .exit 0)
    else m.andThen (exitCode m value) fun code => (m, .exit code)
  | .exit code => m.andThen (exitCode m code) fun code => (m, .exit code)
  | .declaration kind parts => declareAll kind m parts
  | .step name up =>
    m.andThen (m.read name) fun v =>
      m.andThen (Value.binary (if up then .add else .sub) v (.int 1)) fun v =>
        m.andThen (m.assign name v) fun m => (m, .normal)
  | .assignment name op value =>
    m.andThen (evaluate m value) fun (v, input) =>
      let combined : Except Fault Value := match op with
        | none => .ok v
        | some op => do Value.binary op (← m.read name) v
      m.andThen combined fun v =>
        m.andThen ({ m with input }.assign name v) fun m => (m, .normal)
  | .expression text => m.andThen (evaluate m text) fun (_, input) => ({ m with input }, .normal)

/-- Forgets what a skipped text may have changed: the variables it may write to, and the input
position when it may read. -/
def forget (m : Machine) (text : List Char) : Machine :=
  let masked := mask text
  let written := m.bound.filter fun (name, v) =>
    v.kind ≠ .scanner && assigns masked name && !m.isUnknown name
  let reads := m.bound.any fun (name, v) => v.kind == .scanner && usesMember masked name
  { m with
    unknown := m.unknown ++ written.map (·.1)
    inputUnknown := m.inputUnknown || reads || callsScanf masked }

/-- What is unknown after a text is forgotten: what was, and the variables that the text may write to.
A scanner is no such variable. -/
theorem isUnknown_forget_iff (m : Machine) (text : List Char) (name : String) :
    (m.forget text).isUnknown name = true ↔
      m.isUnknown name = true ∨
        ∃ v, m.lookup? name = some v ∧ v.kind ≠ .scanner ∧ assigns (mask text) name = true := by
  simp only [isUnknown, forget, List.contains_iff_mem, List.mem_append, List.mem_map,
    List.mem_filter, Bool.and_eq_true, decide_eq_true_eq, Bool.not_eq_true', Prod.exists]
  constructor
  · rintro (h | ⟨_, v, ⟨hv, ⟨hkind, hassigns⟩, -⟩, rfl⟩)
    · exact Or.inl h
    · exact Or.inr ⟨v, mem_bound_iff.mp hv, hkind, hassigns⟩
  · rintro (h | ⟨v, hv, hkind, hassigns⟩)
    · exact Or.inl h
    · by_cases hin : name ∈ m.unknown
      · exact Or.inl hin
      · refine Or.inr ⟨name, v, ⟨mem_bound_iff.mpr hv, ⟨hkind, hassigns⟩, ?_⟩, rfl⟩
        simpa [isUnknown] using hin

/-- When the input position is unknown after a text is forgotten: when it was, when the text uses a
scanner, and when it calls `scanf`. -/
theorem inputUnknown_forget_iff (m : Machine) (text : List Char) :
    (m.forget text).inputUnknown = true ↔
      m.inputUnknown = true ∨
        (∃ name v, m.lookup? name = some v ∧ v.kind = .scanner ∧
          usesMember (mask text) name = true) ∨ callsScanf (mask text) = true := by
  simp only [forget, Bool.or_eq_true, List.any_eq_true, Bool.and_eq_true, beq_iff_eq, Prod.exists,
    mem_bound_iff, or_assoc]

/-- Counts a statement as skipped and forgets what it may have changed. -/
def skip (m : Machine) (text : List Char) : Machine := { m with skipped := m.skipped + 1 }.forget text

theorem isUnknown_skip_iff (m : Machine) (text : List Char) (name : String) :
    (m.skip text).isUnknown name = true ↔
      m.isUnknown name = true ∨
        ∃ v, m.lookup? name = some v ∧ v.kind ≠ .scanner ∧ assigns (mask text) name = true :=
  isUnknown_forget_iff _ _ _

theorem inputUnknown_skip_iff (m : Machine) (text : List Char) :
    (m.skip text).inputUnknown = true ↔
      m.inputUnknown = true ∨
        (∃ name v, m.lookup? name = some v ∧ v.kind = .scanner ∧
          usesMember (mask text) name = true) ∨ callsScanf (mask text) = true :=
  inputUnknown_forget_iff _ _

@[simp] theorem lookup?_skip (m : Machine) (text : List Char) (name : String) :
    (m.skip text).lookup? name = m.lookup? name := rfl

/-- Runs one piece of a body. -/
def runPiece (m : Machine) : Piece → Machine × Ending
  | .compound text => (m.skip text, .normal)
  | .plain text =>
    match m.execute (Statement.ofText text) with
    | (after, .normal) => ({ after with executed := after.executed + 1 }, .normal)
    | (after, .exit code) => (after, .exit code)
    | (after, .fault (.thrown why)) => (after, .fault (.thrown why))
    | (after, .fault _) => ({ after with input := m.input }.skip text, .normal)

/-- Runs the pieces of a body until one of them ends the program. -/
def runPieces : Machine → List Piece → Machine × Ending
  | m, [] => (m, .normal)
  | m, piece :: rest => match m.runPiece piece with
    | (m, .normal) => runPieces m rest
    | ended => ended

/-- Runs a body, whose comments are blanked. -/
def runBody (m : Machine) (body : List Char) : Machine × Ending := m.runPieces (pieces body)

end Machine

end Coach.Program
