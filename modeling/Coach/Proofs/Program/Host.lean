import Coach.Program.Expression

/-!
# Evaluation by a host

The evaluator with the world that it asks made a parameter: who answers for variables, for methods of
values and for static functions.  Whatever holds for every host is no matter of what those answer.

## Main definitions

* `Host`: what an evaluation asks
* `Host.of`: the host that a machine is
* `Host.choice`, `Host.disjunction`, …, `Host.primary`: the levels, as in `Coach.Program.Expression`

## Main statements

* `Host.Evaluates.all`: a machine evaluates as the host that it is

## Design notes

The levels are those of the evaluator, line by line.  Nothing else in them looks at the machine, which is
what the equality says.
-/

namespace Coach.Program

/-- What an evaluation asks: a variable, a method of a value, and a static function. -/
structure Host where
  read : String → Except Fault Value
  method : Input → Value → String → List Value → Except Fault (Value × Input)
  static : String → String → List Value → Except Fault Value

namespace Host

/-- A machine as a host. -/
def of (m : Machine) : Host where
  read := m.read
  method := callMethod m
  static := callStatic

mutual

/-- The conditional operator. -/
def choice (h : Host) : Nat → Bool → Point → Reached
  | 0, _, _ => unsupported .tooDeep
  | fuel + 1, live, p => do
    let (condition, p) ← disjunction h fuel live p
    match p.accept? "?" with
    | none => return (condition, p)
    | some p =>
      let take ← if live then condition.truth else pure false
      let (first, p) ← choice h fuel take p
      let p ← p.expect ":"
      let (second, p) ← choice h fuel (live && !take) p
      return (if !live then .null else if take then first else second, p)

/-- Operands between `||`. -/
def disjunction (h : Host) : Nat → Bool → Point → Reached
  | 0, _, _ => unsupported .tooDeep
  | fuel + 1, live, p => do
    let (left, p) ← conjunction h fuel live p
    disjunctionRest h fuel live left p

/-- What follows the operands of `||` that have been read. -/
def disjunctionRest (h : Host) : Nat → Bool → Value → Point → Reached
  | 0, _, _, _ => unsupported .tooDeep
  | fuel + 1, live, left, p =>
    match p.accept? "||" with
    | none => .ok (left, p)
    | some p => do
      let done ← if live then left.truth else pure false
      let (right, p) ← conjunction h fuel (live && !done) p
      let left ← if !live then pure left
        else if done then pure (.bool true) else right.truth.map .bool
      disjunctionRest h fuel live left p

/-- Operands between `&&`. -/
def conjunction (h : Host) : Nat → Bool → Point → Reached
  | 0, _, _ => unsupported .tooDeep
  | fuel + 1, live, p => do
    let (left, p) ← chain h fuel .equality live p
    conjunctionRest h fuel live left p

/-- What follows the operands of `&&` that have been read. -/
def conjunctionRest (h : Host) : Nat → Bool → Value → Point → Reached
  | 0, _, _, _ => unsupported .tooDeep
  | fuel + 1, live, left, p =>
    match p.accept? "&&" with
    | none => .ok (left, p)
    | some p => do
      let done ← if live then left.truth.map (!·) else pure false
      let (right, p) ← chain h fuel .equality (live && !done) p
      let left ← if !live then pure left
        else if done then pure (.bool false) else right.truth.map .bool
      conjunctionRest h fuel live left p

/-- Operands between left-associative operators of a level. -/
def chain (h : Host) : Nat → Level → Bool → Point → Reached
  | 0, _, _, _ => unsupported .tooDeep
  | fuel + 1, level, live, p => do
    let (left, p) ← operand h fuel level live p
    chainRest h fuel level live left p

/-- An operand of a level. -/
def operand (h : Host) : Nat → Level → Bool → Point → Reached
  | 0, _, _, _ => unsupported .tooDeep
  | fuel + 1, level, live, p =>
    match level.tighter? with
    | some level => chain h fuel level live p
    | none => unary h fuel live p

/-- What follows the operands of a level that have been read. -/
def chainRest (h : Host) : Nat → Level → Bool → Value → Point → Reached
  | 0, _, _, _, _ => unsupported .tooDeep
  | fuel + 1, level, live, left, p =>
    match level.next? p with
    | none => .ok (left, p)
    | some (op, p) => do
      let (right, p) ← operand h fuel level live p
      let left ← if live then Value.binary op left right else pure left
      chainRest h fuel level live left p

/-- Signs, negation and casts. -/
def unary (h : Host) : Nat → Bool → Point → Reached
  | 0, _, _ => unsupported .tooDeep
  | fuel + 1, live, p =>
    match p.tokens with
    | .op "-" :: rest => do
      let (v, p) ← unary h fuel live { p with tokens := rest }
      return (← whenLive live v.negate, p)
    | .op "+" :: rest => do
      let (v, p) ← unary h fuel live { p with tokens := rest }
      return (← whenLive live v.plus, p)
    | .op "!" :: rest => do
      let (v, p) ← unary h fuel live { p with tokens := rest }
      return (← whenLive live (v.truth.map fun b => .bool !b), p)
    | .op "++" :: _ => unsupported .stepInExpression
    | .op "--" :: _ => unsupported .stepInExpression
    | _ => match takeCast? p with
      | some (kind, p) => do
        let (v, p) ← unary h fuel live p
        return (← whenLive live (cast kind v), p)
      | none => do
        let (v, p) ← primary h fuel live p
        methodCalls h fuel live v p

/-- The method calls on a value. -/
def methodCalls (h : Host) : Nat → Bool → Value → Point → Reached
  | 0, _, _, _ => unsupported .tooDeep
  | fuel + 1, live, v, p =>
    match p.tokens with
    | .op "." :: rest => do
      let (name, p) ← Point.takeName { p with tokens := rest }
      let p ← p.expect "("
      let (args, p) ← arguments h fuel live p
      if live then
        let (v, input) ← h.method p.input v name args
        methodCalls h fuel live v { p with input }
      else methodCalls h fuel live v p
    | .op "++" :: _ => unsupported .stepInExpression
    | .op "--" :: _ => unsupported .stepInExpression
    | .op "[" :: _ => unsupported .arrayAccess
    | _ => .ok (v, p)

/-- The arguments of a call behind its opening parenthesis. -/
def arguments (h : Host) : Nat → Bool → Point → Except Fault (List Value × Point)
  | 0, _, _ => unsupported .tooDeep
  | fuel + 1, live, p =>
    match p.accept? ")" with
    | some p => .ok ([], p)
    | none => do
      let (v, p) ← choice h fuel live p
      let (rest, p) ← argumentsRest h fuel live p
      return (v :: rest, p)

/-- The arguments behind those that have been read. -/
def argumentsRest (h : Host) : Nat → Bool → Point → Except Fault (List Value × Point)
  | 0, _, _ => unsupported .tooDeep
  | fuel + 1, live, p =>
    match p.accept? "," with
    | some p => do
      let (v, p) ← choice h fuel live p
      let (rest, p) ← argumentsRest h fuel live p
      return (v :: rest, p)
    | none => do return ([], ← p.expect ")")

/-- Literals, names, static members and parentheses. -/
def primary (h : Host) : Nat → Bool → Point → Reached
  | 0, _, _ => unsupported .tooDeep
  | fuel + 1, live, p =>
    match p.tokens with
    | [] => unsupported .unexpectedToken
    | .number text :: rest => do return (← numberValue text, { p with tokens := rest })
    | .string body :: rest => .ok (.str (unescape body), { p with tokens := rest })
    | .char body :: rest =>
      match unescape body with
      | [code] => .ok (.char [code], { p with tokens := rest })
      | _ => unsupported .badCharLiteral
    | .op "(" :: rest => do
      let (v, p) ← choice h fuel live { p with tokens := rest }
      return (v, ← p.expect ")")
    | .op _ :: _ => unsupported .unexpectedToken
    | .name "true" :: rest => .ok (.bool true, { p with tokens := rest })
    | .name "false" :: rest => .ok (.bool false, { p with tokens := rest })
    | .name "null" :: rest => .ok (.null, { p with tokens := rest })
    | .name s :: rest =>
      let p : Point := { p with tokens := rest }
      match p.accept? "." with
      | some q =>
        if staticClasses.contains s then do
          let (member, q) ← q.takeName
          match q.accept? "(" with
          | some q =>
            let (args, q) ← arguments h fuel live q
            return (← whenLive live (h.static s member args), q)
          | none => match staticField? s member with
            | some v => return (v, q)
            | none => unsupported (.noSuchMember s member)
        else do return (← whenLive live (h.read s), p)
      | none =>
        if p.sees "(" then unsupported (.call s)
        else do return (← whenLive live (h.read s), p)

end

/-! ### Machines as hosts -/

/-- With some fuel, a machine evaluates as the host that it is. -/
structure Evaluates (m : Machine) (fuel : Nat) : Prop where
  choice : ∀ live p, Program.choice m fuel live p = (of m).choice fuel live p
  disjunction : ∀ live p, Program.disjunction m fuel live p = (of m).disjunction fuel live p
  disjunctionRest : ∀ live v p,
    Program.disjunctionRest m fuel live v p = (of m).disjunctionRest fuel live v p
  conjunction : ∀ live p, Program.conjunction m fuel live p = (of m).conjunction fuel live p
  conjunctionRest : ∀ live v p,
    Program.conjunctionRest m fuel live v p = (of m).conjunctionRest fuel live v p
  chain : ∀ level live p, Program.chain m fuel level live p = (of m).chain fuel level live p
  operand : ∀ level live p, Program.operand m fuel level live p = (of m).operand fuel level live p
  chainRest : ∀ level live v p,
    Program.chainRest m fuel level live v p = (of m).chainRest fuel level live v p
  unary : ∀ live p, Program.unary m fuel live p = (of m).unary fuel live p
  methodCalls : ∀ live v p, Program.methodCalls m fuel live v p = (of m).methodCalls fuel live v p
  arguments : ∀ live p, Program.arguments m fuel live p = (of m).arguments fuel live p
  argumentsRest : ∀ live p, Program.argumentsRest m fuel live p = (of m).argumentsRest fuel live p
  primary : ∀ live p, Program.primary m fuel live p = (of m).primary fuel live p

/-- A machine evaluates as the host that it is, by induction on the fuel. -/
theorem Evaluates.all (m : Machine) (fuel : Nat) : Evaluates m fuel := by
  induction fuel with
  | zero => constructor <;> intros <;> rfl
  | succ fuel ih =>
    constructor <;> intros
    -- where the two definitions match, their matches are equal by definition and may be the same already
    case choice => simp only [Program.choice, Host.choice, ih.disjunction, ih.choice] <;> rfl
    case disjunction =>
      simp only [Program.disjunction, Host.disjunction, ih.conjunction, ih.disjunctionRest]
    case disjunctionRest =>
      simp only [Program.disjunctionRest, Host.disjunctionRest, ih.conjunction, ih.disjunctionRest] <;> rfl
    case conjunction => simp only [Program.conjunction, Host.conjunction, ih.chain, ih.conjunctionRest]
    case conjunctionRest =>
      simp only [Program.conjunctionRest, Host.conjunctionRest, ih.chain, ih.conjunctionRest] <;> rfl
    case chain => simp only [Program.chain, Host.chain, ih.operand, ih.chainRest]
    case operand => simp only [Program.operand, Host.operand, ih.chain, ih.unary] <;> rfl
    case chainRest => simp only [Program.chainRest, Host.chainRest, ih.operand, ih.chainRest] <;> rfl
    case unary => simp only [Program.unary, Host.unary, ih.unary, ih.primary, ih.methodCalls] <;> rfl
    case methodCalls =>
      simp only [Program.methodCalls, Host.methodCalls, ih.arguments, ih.methodCalls] <;> rfl
    case arguments => simp only [Program.arguments, Host.arguments, ih.choice, ih.argumentsRest] <;> rfl
    case argumentsRest =>
      simp only [Program.argumentsRest, Host.argumentsRest, ih.choice, ih.argumentsRest] <;> rfl
    case primary => simp only [Program.primary, Host.primary, ih.choice, ih.arguments] <;> rfl

end Host

end Coach.Program
