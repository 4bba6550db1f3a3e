import Coach.Program.Library
import Coach.Program.Token

/-!
# Expressions

Evaluation of expressions straight from their tokens, level by level of precedence, from the
conditional operator down to primary expressions.

## Main definitions

* `Point`: the tokens that are left and the input
* `choice`, `disjunction`, `conjunction`, `chain`, `unary`, `postfix'`, `primary`: the levels
* `evaluate`, `evaluateAll`: one expression, or several between commas, from a whole text

## Design notes

Every level takes a flag `live`. When it is off, the tokens are consumed and nothing is evaluated;
that is what happens to the operand of `&&`, `||` and `?:` that does not count. Evaluation goes on
while reading, so what fails first in the text is what fails.

The fuel counts calls. Each round through the levels consumes a token, so a fixed multiple of their
number is enough, and `evaluate` supplies it.
-/

namespace Coach.Program

/-- Where evaluation stands: the tokens that are left, and the input. -/
structure Point where
  tokens : List Token
  input : Input

namespace Point

/-- Moves over an operator, if it comes next. -/
def accept? (p : Point) (symbol : String) : Option Point :=
  match p.tokens with
  | .op s :: rest => if s = symbol then some { p with tokens := rest } else none
  | _ => none

/-- Moves over an operator that has to come next. -/
def expect (p : Point) (symbol : String) : Except Fault Point :=
  match p.accept? symbol with
  | some p => .ok p
  | none => unsupported (.expected symbol)

/-- Moves over a name that has to come next. -/
def takeName (p : Point) : Except Fault (String × Point) :=
  match p.tokens with
  | .name s :: rest => .ok (s, { p with tokens := rest })
  | _ => unsupported (.expected "a name")

/-- Whether an operator comes next. -/
def sees (p : Point) (symbol : String) : Bool :=
  match p.tokens with
  | .op s :: _ => s == symbol
  | _ => false

end Point

/-- The levels of left-associative operators, from the loosest on. -/
inductive Level where
  | equality
  | relation
  | sum
  | product
  deriving DecidableEq, Repr

namespace Level

/-- The level below, unless that is the one of unary operators. -/
def tighter? : Level → Option Level
  | .equality => some .relation
  | .relation => some .sum
  | .sum => some .product
  | .product => none

/-- The operator of a level that a symbol stands for. -/
def operator? : Level → String → Option Value.Operator
  | .equality, "==" => some .equal
  | .equality, "!=" => some .unequal
  | .relation, "<" => some .less
  | .relation, ">" => some .greater
  | .relation, "<=" => some .atMost
  | .relation, ">=" => some .atLeast
  | .sum, "+" => some .add
  | .sum, "-" => some .sub
  | .product, "*" => some .mul
  | .product, "/" => some .div
  | .product, "%" => some .mod
  | _, _ => none

/-- The operator of a level that comes next, and the point behind it. -/
def next? (level : Level) (p : Point) : Option (Value.Operator × Point) :=
  match p.tokens with
  | .op s :: rest => (level.operator? s).map (·, { p with tokens := rest })
  | _ => none

end Level

/-- The type of a cast that comes next, and the point behind it. -/
def takeCast? (p : Point) : Option (Kind × Point) :=
  match p.tokens with
  | .op "(" :: .name s :: .op ")" :: rest => (Kind.ofName? s).map (·, { p with tokens := rest })
  | _ => none

/-- A value cast to a type. A double is cut to an integer on its way to a character. -/
def cast (kind : Kind) (v : Value) : Except Fault Value :=
  match kind, v with
  | .char, .float x => do coerce .char (.int (← toInt (.float x)))
  | _, _ => coerce kind v

/-- What `f` makes of a value that counts, and null for one that does not. -/
def whenLive (live : Bool) (f : Except Fault Value) : Except Fault Value :=
  if live then f else .ok .null

/-- A value with the point that evaluation has come to. -/
abbrev Reached := Except Fault (Value × Point)

mutual

/-- The conditional operator. -/
def choice (m : Machine) : Nat → Bool → Point → Reached
  | 0, _, _ => unsupported .tooDeep
  | fuel + 1, live, p => do
    let (condition, p) ← disjunction m fuel live p
    match p.accept? "?" with
    | none => return (condition, p)
    | some p =>
      let take ← if live then condition.truth else pure false
      let (first, p) ← choice m fuel take p
      let p ← p.expect ":"
      let (second, p) ← choice m fuel (live && !take) p
      return (if !live then .null else if take then first else second, p)

/-- Operands between `||`. -/
def disjunction (m : Machine) : Nat → Bool → Point → Reached
  | 0, _, _ => unsupported .tooDeep
  | fuel + 1, live, p => do
    let (left, p) ← conjunction m fuel live p
    disjunctionRest m fuel live left p

/-- What follows the operands of `||` that have been read. -/
def disjunctionRest (m : Machine) : Nat → Bool → Value → Point → Reached
  | 0, _, _, _ => unsupported .tooDeep
  | fuel + 1, live, left, p =>
    match p.accept? "||" with
    | none => .ok (left, p)
    | some p => do
      let done ← if live then left.truth else pure false
      let (right, p) ← conjunction m fuel (live && !done) p
      let left ← if !live then pure left
        else if done then pure (.bool true) else right.truth.map .bool
      disjunctionRest m fuel live left p

/-- Operands between `&&`. -/
def conjunction (m : Machine) : Nat → Bool → Point → Reached
  | 0, _, _ => unsupported .tooDeep
  | fuel + 1, live, p => do
    let (left, p) ← chain m fuel .equality live p
    conjunctionRest m fuel live left p

/-- What follows the operands of `&&` that have been read. -/
def conjunctionRest (m : Machine) : Nat → Bool → Value → Point → Reached
  | 0, _, _, _ => unsupported .tooDeep
  | fuel + 1, live, left, p =>
    match p.accept? "&&" with
    | none => .ok (left, p)
    | some p => do
      let done ← if live then left.truth.map (!·) else pure false
      let (right, p) ← chain m fuel .equality (live && !done) p
      let left ← if !live then pure left
        else if done then pure (.bool false) else right.truth.map .bool
      conjunctionRest m fuel live left p

/-- Operands between left-associative operators of a level. -/
def chain (m : Machine) : Nat → Level → Bool → Point → Reached
  | 0, _, _, _ => unsupported .tooDeep
  | fuel + 1, level, live, p => do
    let (left, p) ← operand m fuel level live p
    chainRest m fuel level live left p

/-- An operand of a level. -/
def operand (m : Machine) : Nat → Level → Bool → Point → Reached
  | 0, _, _, _ => unsupported .tooDeep
  | fuel + 1, level, live, p =>
    match level.tighter? with
    | some level => chain m fuel level live p
    | none => unary m fuel live p

/-- What follows the operands of a level that have been read. -/
def chainRest (m : Machine) : Nat → Level → Bool → Value → Point → Reached
  | 0, _, _, _, _ => unsupported .tooDeep
  | fuel + 1, level, live, left, p =>
    match level.next? p with
    | none => .ok (left, p)
    | some (op, p) => do
      let (right, p) ← operand m fuel level live p
      let left ← if live then Value.binary op left right else pure left
      chainRest m fuel level live left p

/-- Signs, negation and casts. -/
def unary (m : Machine) : Nat → Bool → Point → Reached
  | 0, _, _ => unsupported .tooDeep
  | fuel + 1, live, p =>
    match p.tokens with
    | .op "-" :: rest => do
      let (v, p) ← unary m fuel live { p with tokens := rest }
      return (← whenLive live v.negate, p)
    | .op "+" :: rest => do
      let (v, p) ← unary m fuel live { p with tokens := rest }
      return (← whenLive live v.plus, p)
    | .op "!" :: rest => do
      let (v, p) ← unary m fuel live { p with tokens := rest }
      return (← whenLive live (v.truth.map fun b => .bool !b), p)
    | .op "++" :: _ => unsupported .stepInExpression
    | .op "--" :: _ => unsupported .stepInExpression
    | _ => match takeCast? p with
      | some (kind, p) => do
        let (v, p) ← unary m fuel live p
        return (← whenLive live (cast kind v), p)
      | none => do
        let (v, p) ← primary m fuel live p
        methodCalls m fuel live v p

/-- The method calls on a value. -/
def methodCalls (m : Machine) : Nat → Bool → Value → Point → Reached
  | 0, _, _, _ => unsupported .tooDeep
  | fuel + 1, live, v, p =>
    match p.tokens with
    | .op "." :: rest => do
      let (name, p) ← Point.takeName { p with tokens := rest }
      let p ← p.expect "("
      let (args, p) ← arguments m fuel live p
      if live then
        let (v, input) ← callMethod m p.input v name args
        methodCalls m fuel live v { p with input }
      else methodCalls m fuel live v p
    | .op "++" :: _ => unsupported .stepInExpression
    | .op "--" :: _ => unsupported .stepInExpression
    | .op "[" :: _ => unsupported .arrayAccess
    | _ => .ok (v, p)

/-- The arguments of a call behind its opening parenthesis. -/
def arguments (m : Machine) : Nat → Bool → Point → Except Fault (List Value × Point)
  | 0, _, _ => unsupported .tooDeep
  | fuel + 1, live, p =>
    match p.accept? ")" with
    | some p => .ok ([], p)
    | none => do
      let (v, p) ← choice m fuel live p
      let (rest, p) ← argumentsRest m fuel live p
      return (v :: rest, p)

/-- The arguments behind those that have been read. -/
def argumentsRest (m : Machine) : Nat → Bool → Point → Except Fault (List Value × Point)
  | 0, _, _ => unsupported .tooDeep
  | fuel + 1, live, p =>
    match p.accept? "," with
    | some p => do
      let (v, p) ← choice m fuel live p
      let (rest, p) ← argumentsRest m fuel live p
      return (v :: rest, p)
    | none => do return ([], ← p.expect ")")

/-- Literals, names, static members and parentheses. -/
def primary (m : Machine) : Nat → Bool → Point → Reached
  | 0, _, _ => unsupported .tooDeep
  | fuel + 1, live, p =>
    match p.tokens with
    | [] => unsupported .unexpectedToken
    | .number text :: rest => do return (← numberValue text, { p with tokens := rest })
    | .string body :: rest => .ok (.str (unescape body), { p with tokens := rest })
    | .char body :: rest =>
      match unescape body with
      | [code] => .ok (.char [code], { p with tokens := rest })
      | _ => unsupported .badCharLiteral
    | .op "(" :: rest => do
      let (v, p) ← choice m fuel live { p with tokens := rest }
      return (v, ← p.expect ")")
    | .op _ :: _ => unsupported .unexpectedToken
    | .name "true" :: rest => .ok (.bool true, { p with tokens := rest })
    | .name "false" :: rest => .ok (.bool false, { p with tokens := rest })
    | .name "null" :: rest => .ok (.null, { p with tokens := rest })
    | .name s :: rest =>
      let p : Point := { p with tokens := rest }
      match p.accept? "." with
      | some q =>
        if staticClasses.contains s then do
          let (member, q) ← q.takeName
          match q.accept? "(" with
          | some q =>
            let (args, q) ← arguments m fuel live q
            return (← whenLive live (callStatic s member args), q)
          | none => match staticField? s member with
            | some v => return (v, q)
            | none => unsupported (.noSuchMember s member)
        else do return (← whenLive live (m.read s), p)
      | none =>
        if p.sees "(" then unsupported (.call s)
        else do return (← whenLive live (m.read s), p)

end

/-- The fuel for some tokens: every level of a round, and one round more than there are tokens. -/
def fuelFor (tokens : List Token) : Nat := 16 * (tokens.length + 1)

/-- A value of several between commas, up to the end of the tokens. -/
def valuesFrom (m : Machine) (fuel : Nat) : Nat → Point → Except Fault (List Value × Input)
  | 0, _ => unsupported .tooDeep
  | rounds + 1, p => do
    let (v, p) ← choice m fuel true p
    match p.accept? "," with
    | some p =>
      let (rest, input) ← valuesFrom m fuel rounds p
      return (v :: rest, input)
    | none => if p.tokens.isEmpty then return ([v], p.input) else unsupported .unexpectedToken

/-- The value of an expression, and the input behind what it has read. -/
def evaluate (m : Machine) (text : List Char) : Except Fault (Value × Input) := do
  let ts ← tokens text
  let (v, p) ← choice m (fuelFor ts) true { tokens := ts, input := m.input }
  if p.tokens.isEmpty then return (v, p.input) else unsupported .unexpectedToken

/-- The values of expressions between commas, possibly none. -/
def evaluateAll (m : Machine) (text : List Char) : Except Fault (List Value × Input) := do
  let ts ← tokens text
  if ts.isEmpty then return ([], m.input)
  else valuesFrom m (fuelFor ts) (ts.length + 1) { tokens := ts, input := m.input }

end Coach.Program
