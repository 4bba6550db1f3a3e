import Coach.Program.Expression

/-!
# Expressions as trees

An expression as a tree: what it comes to when it is evaluated directly, and how it is written with as
few parentheses as the grammar of Java allows.

## Main definitions

* `Expression`: the trees
* `Expression.value`: the value of a tree, from its left operands to its right ones
* `Rank`: the levels of precedence, from the conditional operator to primary expressions
* `Expression.print`: the tokens of a tree

## Design notes

The leaves carry what makes them readable: a numeral is short enough to be read, a literal closes with
its own quote, and a name is none that means something else.

A cast to a class does not go before a sign: `(String) -x` is a difference in Java.  The operand is put
in parentheses there.
-/

namespace Coach.Program

/-! ### Leaves -/

/-- An integer that is written with few enough digits to be read, with or without the mark of a long. -/
structure Numeral where
  number : Nat
  isLong : Bool := false
  isShort : (natDigits number).length ≤ digitLimit

/-- The inside of a literal: it stays on its line, and a quote in it stands behind a backslash. -/
inductive IsBody (quote : Char) : List Char → Prop
  | nil : IsBody quote []
  | plain {c : Char} {body : List Char} : c ≠ quote → c ≠ '\\' → c ≠ '\n' → IsBody quote body →
    IsBody quote (c :: body)
  | escape {c : Char} {body : List Char} : c ≠ '\n' → IsBody quote body →
    IsBody quote ('\\' :: c :: body)

/-- A string literal. -/
structure StringLiteral where
  body : List Char
  isBody : IsBody '"' body

/-- A literal of one character. -/
structure CharLiteral where
  body : List Char
  code : Nat
  isBody : IsBody '\'' body
  isSingle : unescape body = [code]

/-- What a name is written with. -/
def IsName (name : String) : Prop :=
  ∃ c rest, name.toList = c :: rest ∧ isNameStart c = true ∧ ∀ d ∈ rest, isNamePart d = true

/-- The name of a variable, which is no literal and no type. -/
structure VariableName where
  name : String
  isName : IsName name
  notLiteral : name ∉ ["true", "false", "null"]
  notType : Kind.ofName? name = none

/-- A type that a value can be cast to. -/
structure CastType where
  name : String
  kind : Kind
  isType : Kind.ofName? name = some kind

/-! ### Operators -/

/-- The operators before an operand. -/
inductive Sign where
  | minus
  | plus
  | not
  deriving DecidableEq, Repr

namespace Sign

/-- How a sign is written. -/
def symbol : Sign → String
  | .minus => "-"
  | .plus => "+"
  | .not => "!"

/-- What a sign makes of a value. -/
def apply : Sign → Value → Except Fault Value
  | .minus, v => v.negate
  | .plus, v => v.plus
  | .not, v => v.truth.map fun b => .bool !b

end Sign

namespace Value.Operator

/-- How an operator is written. -/
def symbol : Operator → String
  | .add => "+"
  | .sub => "-"
  | .mul => "*"
  | .div => "/"
  | .mod => "%"
  | .less => "<"
  | .greater => ">"
  | .atMost => "<="
  | .atLeast => ">="
  | .equal => "=="
  | .unequal => "!="

/-- The level of an operator. -/
def level : Operator → Level
  | .add | .sub => .sum
  | .mul | .div | .mod => .product
  | .less | .greater | .atMost | .atLeast => .relation
  | .equal | .unequal => .equality

end Value.Operator

/-- What stands between two operands. -/
inductive Connective where
  | or
  | and
  | op (o : Value.Operator)
  deriving DecidableEq, Repr

/-- How a connective is written. -/
def Connective.symbol : Connective → String
  | .or => "||"
  | .and => "&&"
  | .op o => o.symbol

/-! ### Trees -/

/-- An expression. -/
inductive Expression where
  | integer (n : Numeral)
  | boolean (b : Bool)
  | string (s : StringLiteral)
  | char (c : CharLiteral)
  | name (x : VariableName)
  | group (e : Expression)
  | sign (s : Sign) (e : Expression)
  | cast (type : CastType) (e : Expression)
  | join (c : Connective) (left right : Expression)
  | choose (condition first second : Expression)

namespace Expression

/-- The value of a tree.  Of the operands of `&&`, `||` and `?:` only those are evaluated that count. -/
def value (m : Machine) : Expression → Except Fault Value
  | .integer n => .ok (.int n.number)
  | .boolean b => .ok (.bool b)
  | .string s => .ok (.str (unescape s.body))
  | .char c => .ok (.char [c.code])
  | .name x => m.read x.name
  | .group e => e.value m
  | .sign s e => do s.apply (← e.value m)
  | .cast type e => do Program.cast type.kind (← e.value m)
  | .join .or left right => do
    if ← (← left.value m).truth then return .bool true
    else (← right.value m).truth.map .bool
  | .join .and left right => do
    if ← (← left.value m).truth then (← right.value m).truth.map .bool
    else return .bool false
  | .join (.op o) left right => do
    let left ← left.value m
    let right ← right.value m
    Value.binary o left right
  | .choose condition first second => do
    if ← (← condition.value m).truth then first.value m else second.value m

end Expression

/-! ### Precedence -/

/-- The levels of precedence, from the loosest on. -/
inductive Rank where
  | choice
  | disjunction
  | conjunction
  | chain (level : Level)
  | unary
  | primary
  deriving DecidableEq, Repr

namespace Rank

/-- The place of a level. -/
def place : Rank → Nat
  | .choice => 1
  | .disjunction => 2
  | .conjunction => 3
  | .chain .equality => 4
  | .chain .relation => 5
  | .chain .sum => 6
  | .chain .product => 7
  | .unary => 8
  | .primary => 9

/-- The next level. -/
def tighter : Rank → Rank
  | .choice => .disjunction
  | .disjunction => .conjunction
  | .conjunction => .chain .equality
  | .chain level => level.tighter?.elim .unary .chain
  | .unary => .primary
  | .primary => .primary

theorem place_tighter {r : Rank} (h : r ≠ .primary) : r.tighter.place = r.place + 1 := by
  cases r with
  | chain level => cases level <;> rfl
  | primary => exact absurd rfl h
  | _ => rfl

theorem one_le_place (r : Rank) : 1 ≤ r.place := by
  cases r with
  | chain level => cases level <;> decide
  | _ => decide

theorem place_le_unary {r : Rank} (h : r ≠ .primary) : r.place ≤ Rank.unary.place := by
  cases r with
  | chain level => cases level <;> decide
  | primary => exact absurd rfl h
  | _ => decide

theorem place_le_primary (r : Rank) : r.place ≤ Rank.primary.place := by
  cases r with
  | chain level => cases level <;> decide
  | _ => decide

theorem eq_of_place {r r' : Rank} (h : r.place = r'.place) : r = r' := by
  cases r with
  | chain level => cases r' with
    | chain level' => cases level <;> cases level' <;> first | rfl | cases h
    | _ => cases level <;> cases h
  | _ => cases r' with
    | chain level' => cases level' <;> cases h
    | _ => first | rfl | cases h

end Rank

/-- The level of a connective, whose right operand is of the next one: it groups to the left. -/
def Connective.rank : Connective → Rank
  | .or => .disjunction
  | .and => .conjunction
  | .op o => .chain o.level

theorem Connective.rank_ne_primary (c : Connective) : c.rank ≠ .primary := by cases c <;> nofun

namespace Expression

/-- The level of an expression. -/
def rank : Expression → Rank
  | .choose .. => .choice
  | .join c _ _ => c.rank
  | .sign .. | .cast .. => .unary
  | .integer _ | .boolean _ | .string _ | .char _ | .name _ | .group _ => .primary

/-- Whether an expression begins with a plus or a minus. -/
def isSigned : Expression → Bool
  | .sign .minus _ | .sign .plus _ => true
  | _ => false

end Expression

/-! ### Printing -/

/-- Tokens in parentheses, unless they may stand without. -/
def parenthesized (bare : Bool) (ts : List Token) : List Token :=
  if bare then ts else .op "(" :: ts ++ [.op ")"]

/-- The mark of a long, or nothing. -/
def longMark (isLong : Bool) : List Char := if isLong then ['L'] else []

/-- The token of an integer. -/
def Numeral.token (n : Numeral) : Token := .number (natDigits n.number ++ longMark n.isLong)

namespace Expression

/-- Whether an expression may stand without parentheses where a level is asked for. -/
def fits (e : Expression) (r : Rank) : Bool := r.place ≤ e.rank.place

/-- Whether an expression may stand without parentheses behind a cast. -/
def followsCast (e : Expression) (type : CastType) : Bool :=
  e.fits .unary && !(type.kind = .string && e.isSigned)

/-- The tokens of an expression. -/
def print : Expression → List Token
  | .integer n => [n.token]
  | .boolean b => [.name (if b then "true" else "false")]
  | .string s => [.string s.body]
  | .char c => [.char c.body]
  | .name x => [.name x.name]
  | .group e => .op "(" :: e.print ++ [.op ")"]
  | .sign s e => .op s.symbol :: parenthesized (e.fits .unary) e.print
  | .cast type e =>
    .op "(" :: .name type.name :: .op ")" :: parenthesized (e.followsCast type) e.print
  | .join c left right =>
    parenthesized (left.fits c.rank) left.print ++
      .op c.symbol :: parenthesized (right.fits c.rank.tighter) right.print
  | .choose condition first second =>
    parenthesized (condition.fits .disjunction) condition.print ++
      .op "?" :: first.print ++ .op ":" :: second.print

-- only the second of two differences is put in parentheses, on the right
example (x y z : VariableName) :
    let minus := join (.op .sub)
    (minus (minus (.name x) (.name y)) (minus (.name z) (.sign .minus (.name x)))).print =
      [.name x.name, .op "-", .name y.name, .op "-", .op "(", .name z.name, .op "-", .op "-", .name x.name,
        .op ")"] := rfl

end Expression

end Coach.Program
