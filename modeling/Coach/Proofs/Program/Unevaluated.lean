import Coach.Proofs.Program.Host
import Coach.Proofs.Program.Parsing
import Coach.Proofs.Program.SideBySide

/-!
# Operands that do not count

An operand of `&&`, `||` or `?:` that does not count is read and not evaluated.  Reading it asks nothing of
the world, and takes the tokens that evaluating it would take.

## Main definitions

* `Quiet`: evaluations that go the same way, throw no exception and leave the input as it is
* `Idle`: reading without evaluating is quiet at every level, whoever the hosts are
* `Shadows`: reading without evaluating comes as far as evaluating, at every level
* `SkipsOperands`: operands of `&&`, `||` and `?:` that do not count are read to their end
* `Grammar`: the levels, with what reads them

## Main statements

* `Idle.all`, `Shadows.all`: both, with any fuel
* `SkipsOperands.all`: what the two make of the operands
* `Grammar.reading_does_not_evaluate`: all of it, for every level

## Design notes

That nothing is asked is said by changing whoever answers: a reading that asked for something would differ
when the answer does.  The second part needs no more than that an evaluation which fails says nothing of
the tokens, so it is `Follows` where everything blocks.
-/

namespace Coach.Program

/-! ### Points with the same input -/

section Points

variable {ts : List Token} {input : Input}

theorem Point.accept?_self (symbol : String) (ts : List Token) (input : Input) :
    ({ tokens := .op symbol :: ts, input } : Point).accept? symbol = some { tokens := ts, input } := by
  simp only [Point.accept?, if_true]

theorem Point.expect_self (symbol : String) (ts : List Token) (input : Input) :
    ({ tokens := .op symbol :: ts, input } : Point).expect symbol = .ok { tokens := ts, input } := by
  simp only [Point.expect, Point.accept?_self]

theorem Point.exists_of_accept? {symbol : String} {q : Point}
    (h : ({ tokens := ts, input } : Point).accept? symbol = some q) :
    ∃ rest, q = { tokens := rest, input } := by
  unfold Point.accept? at h
  split at h
  · split at h
    · exact ⟨_, (Option.some.inj h).symm⟩
    · cases h
  · cases h

theorem Level.exists_of_next? {level : Level} {next : Value.Operator × Point}
    (h : level.next? { tokens := ts, input } = some next) :
    ∃ op rest, next = (op, { tokens := rest, input }) := by
  unfold Level.next? at h
  split at h
  · obtain ⟨op, -, rfl⟩ := Option.map_eq_some_iff.mp h
    exact ⟨op, _, rfl⟩
  · cases h

theorem exists_of_takeCast? {cast : Kind × Point} (h : takeCast? { tokens := ts, input } = some cast) :
    ∃ kind rest, cast = (kind, { tokens := rest, input }) := by
  unfold takeCast? at h
  split at h
  · obtain ⟨kind, -, rfl⟩ := Option.map_eq_some_iff.mp h
    exact ⟨kind, _, rfl⟩
  · cases h

end Points

/-! ### Quiet evaluations -/

/-- The exceptions of the program, which are not all of the faults. -/
def Fault.IsThrown (why : Fault) : Prop := ∃ thrown, why = .thrown thrown

/-- A number that cannot be read goes past a limit. -/
theorem not_isThrown_of_numberValue {text : List Char} {why : Fault} (h : numberValue text = .error why) :
    ¬ why.IsThrown := by
  have hdecimal : ∀ digits, (decimalInt digits).map Value.int = .error why → ¬ why.IsThrown := by
    intro digits h
    unfold decimalInt at h
    split at h
    · cases h
    · cases h
      nofun
  unfold numberValue at h
  dsimp only at h
  split at h
  · cases h
  · split at h
    · exact hdecimal _ h
    · split at h
      · cases h
      · exact hdecimal _ h

/-- Two evaluations go the same way, throw no exception of the program, and leave the input as it is. -/
inductive Quiet {α : Type} (input : Input) :
    Except Fault (α × Point) → Except Fault (α × Point) → Prop
  | value (a : α) (tokens : List Token) :
    Quiet input (.ok (a, { tokens, input })) (.ok (a, { tokens, input }))
  | fault {why : Fault} : ¬ why.IsThrown → Quiet input (.error why) (.error why)

namespace Quiet

variable {α β : Type} {input : Input} {ts : List Token}

theorem unsupported (why : Unsupported) :
    Quiet (α := α) input (Program.unsupported why) (Program.unsupported why) := fault nofun

theorem bind {x y : Except Fault (α × Point)} {f g : α × Point → Except Fault (β × Point)}
    (h : Quiet input x y)
    (hf : ∀ a tokens, Quiet input (f (a, { tokens, input })) (g (a, { tokens, input }))) :
    Quiet input (x >>= f) (y >>= g) := by
  cases h with
  | value a tokens => exact hf a tokens
  | fault hwhy => exact fault hwhy

theorem eq {x y : Except Fault (α × Point)} (h : Quiet input x y) : x = y := by cases h <;> rfl

theorem input_eq {y : Except Fault (α × Point)} {a : α} {q : Point} (h : Quiet input (.ok (a, q)) y) :
    q.input = input := by
  cases h
  rfl

theorem not_isThrown {y : Except Fault (α × Point)} {why : Fault} (h : Quiet input (.error why) y) :
    ¬ why.IsThrown := by
  cases h with
  | fault hwhy => exact hwhy

/-- Looking for an operator that has to come next is quiet. -/
theorem expect_bind {symbol : String} {f g : Point → Except Fault (α × Point)}
    (hf : ∀ tokens, Quiet input (f { tokens, input }) (g { tokens, input })) :
    Quiet input (({ tokens := ts, input } : Point).expect symbol >>= f)
      (({ tokens := ts, input } : Point).expect symbol >>= g) := by
  unfold Point.expect
  cases haccept : ({ tokens := ts, input } : Point).accept? symbol with
  | none => exact unsupported _
  | some q =>
    obtain ⟨rest, rfl⟩ := Point.exists_of_accept? haccept
    exact hf rest

theorem numberValue_bind {text : List Char} {f g : Value → Except Fault (α × Point)}
    (hf : ∀ v, Quiet input (f v) (g v)) :
    Quiet input (numberValue text >>= f) (numberValue text >>= g) := by
  cases hvalue : numberValue text with
  | error why => exact fault (not_isThrown_of_numberValue hvalue)
  | ok v => exact hf v

theorem takeName (ts : List Token) (input : Input) :
    Quiet input ({ tokens := ts, input } : Point).takeName ({ tokens := ts, input } : Point).takeName := by
  unfold Point.takeName
  dsimp only
  split
  · exact value _ _
  · exact unsupported _

end Quiet

/-- With some fuel, reading without evaluating is quiet at every level, whoever the hosts are. -/
structure Idle (h h' : Host) (fuel : Nat) : Prop where
  choice : ∀ tokens input,
    Quiet input (h.choice fuel false { tokens, input }) (h'.choice fuel false { tokens, input })
  disjunction : ∀ tokens input,
    Quiet input (h.disjunction fuel false { tokens, input }) (h'.disjunction fuel false { tokens, input })
  disjunctionRest : ∀ v tokens input, Quiet input (h.disjunctionRest fuel false v { tokens, input })
    (h'.disjunctionRest fuel false v { tokens, input })
  conjunction : ∀ tokens input,
    Quiet input (h.conjunction fuel false { tokens, input }) (h'.conjunction fuel false { tokens, input })
  conjunctionRest : ∀ v tokens input, Quiet input (h.conjunctionRest fuel false v { tokens, input })
    (h'.conjunctionRest fuel false v { tokens, input })
  chain : ∀ level tokens input,
    Quiet input (h.chain fuel level false { tokens, input }) (h'.chain fuel level false { tokens, input })
  operand : ∀ level tokens input, Quiet input (h.operand fuel level false { tokens, input })
    (h'.operand fuel level false { tokens, input })
  chainRest : ∀ level v tokens input, Quiet input (h.chainRest fuel level false v { tokens, input })
    (h'.chainRest fuel level false v { tokens, input })
  unary : ∀ tokens input,
    Quiet input (h.unary fuel false { tokens, input }) (h'.unary fuel false { tokens, input })
  methodCalls : ∀ v tokens input, Quiet input (h.methodCalls fuel false v { tokens, input })
    (h'.methodCalls fuel false v { tokens, input })
  arguments : ∀ tokens input,
    Quiet input (h.arguments fuel false { tokens, input }) (h'.arguments fuel false { tokens, input })
  argumentsRest : ∀ tokens input, Quiet input (h.argumentsRest fuel false { tokens, input })
    (h'.argumentsRest fuel false { tokens, input })
  primary : ∀ tokens input,
    Quiet input (h.primary fuel false { tokens, input }) (h'.primary fuel false { tokens, input })

namespace Idle

variable {h h' : Host} {fuel : Nat} (ih : Idle h h' fuel)

include ih

theorem choice_succ (ts : List Token) (input : Input) :
    Quiet input (h.choice (fuel + 1) false { tokens := ts, input })
      (h'.choice (fuel + 1) false { tokens := ts, input }) := by
  simp only [Host.choice]
  refine (ih.disjunction ts input).bind fun condition ts => ?_
  dsimp only
  cases haccept : ({ tokens := ts, input } : Point).accept? "?" with
  | none => exact .value _ _
  | some q =>
    obtain ⟨ts, rfl⟩ := Point.exists_of_accept? haccept
    refine (ih.choice ts input).bind fun first ts => Quiet.expect_bind fun ts => ?_
    exact (ih.choice ts input).bind fun second ts => .value _ _

theorem disjunction_succ (ts : List Token) (input : Input) :
    Quiet input (h.disjunction (fuel + 1) false { tokens := ts, input })
      (h'.disjunction (fuel + 1) false { tokens := ts, input }) := by
  simp only [Host.disjunction]
  exact (ih.conjunction ts input).bind fun left ts => ih.disjunctionRest left ts input

theorem disjunctionRest_succ (left : Value) (ts : List Token) (input : Input) :
    Quiet input (h.disjunctionRest (fuel + 1) false left { tokens := ts, input })
      (h'.disjunctionRest (fuel + 1) false left { tokens := ts, input }) := by
  simp only [Host.disjunctionRest]
  cases haccept : ({ tokens := ts, input } : Point).accept? "||" with
  | none => exact .value _ _
  | some q =>
    obtain ⟨ts, rfl⟩ := Point.exists_of_accept? haccept
    exact (ih.conjunction ts input).bind fun right ts => ih.disjunctionRest left ts input

theorem conjunction_succ (ts : List Token) (input : Input) :
    Quiet input (h.conjunction (fuel + 1) false { tokens := ts, input })
      (h'.conjunction (fuel + 1) false { tokens := ts, input }) := by
  simp only [Host.conjunction]
  exact (ih.chain .equality ts input).bind fun left ts => ih.conjunctionRest left ts input

theorem conjunctionRest_succ (left : Value) (ts : List Token) (input : Input) :
    Quiet input (h.conjunctionRest (fuel + 1) false left { tokens := ts, input })
      (h'.conjunctionRest (fuel + 1) false left { tokens := ts, input }) := by
  simp only [Host.conjunctionRest]
  cases haccept : ({ tokens := ts, input } : Point).accept? "&&" with
  | none => exact .value _ _
  | some q =>
    obtain ⟨ts, rfl⟩ := Point.exists_of_accept? haccept
    exact (ih.chain .equality ts input).bind fun right ts => ih.conjunctionRest left ts input

theorem chain_succ (level : Level) (ts : List Token) (input : Input) :
    Quiet input (h.chain (fuel + 1) level false { tokens := ts, input })
      (h'.chain (fuel + 1) level false { tokens := ts, input }) := by
  simp only [Host.chain]
  exact (ih.operand level ts input).bind fun left ts => ih.chainRest level left ts input

theorem operand_succ (level : Level) (ts : List Token) (input : Input) :
    Quiet input (h.operand (fuel + 1) level false { tokens := ts, input })
      (h'.operand (fuel + 1) level false { tokens := ts, input }) := by
  simp only [Host.operand]
  split
  · exact ih.chain _ ts input
  · exact ih.unary ts input

theorem chainRest_succ (level : Level) (left : Value) (ts : List Token) (input : Input) :
    Quiet input (h.chainRest (fuel + 1) level false left { tokens := ts, input })
      (h'.chainRest (fuel + 1) level false left { tokens := ts, input }) := by
  simp only [Host.chainRest]
  cases hnext : level.next? { tokens := ts, input } with
  | none => exact .value _ _
  | some next =>
    obtain ⟨op, ts, rfl⟩ := Level.exists_of_next? hnext
    exact (ih.operand level ts input).bind fun right ts => ih.chainRest level left ts input

theorem unary_succ (ts : List Token) (input : Input) :
    Quiet input (h.unary (fuel + 1) false { tokens := ts, input })
      (h'.unary (fuel + 1) false { tokens := ts, input }) := by
  -- an operator in front of its operand makes nothing of it
  have hsign : ∀ (rest : List Token) (f : Value → Except Fault Value),
      Quiet input
        (h.unary fuel false { tokens := rest, input } >>= fun x =>
          whenLive false (f x.1) >>= fun v => pure (v, x.2))
        (h'.unary fuel false { tokens := rest, input } >>= fun x =>
          whenLive false (f x.1) >>= fun v => pure (v, x.2)) :=
    fun rest f => (ih.unary rest input).bind fun v ts => .value _ _
  simp only [Host.unary]
  split
  · exact hsign _ fun v => v.negate
  · exact hsign _ fun v => v.plus
  · exact hsign _ fun v => v.truth.map fun b => .bool !b
  · exact .unsupported _
  · exact .unsupported _
  · cases hcast : takeCast? { tokens := ts, input } with
    | none => exact (ih.primary ts input).bind fun v ts => ih.methodCalls v ts input
    | some cast =>
      obtain ⟨kind, ts, rfl⟩ := exists_of_takeCast? hcast
      exact hsign ts (Program.cast kind)

theorem methodCalls_succ (v : Value) (ts : List Token) (input : Input) :
    Quiet input (h.methodCalls (fuel + 1) false v { tokens := ts, input })
      (h'.methodCalls (fuel + 1) false v { tokens := ts, input }) := by
  simp only [Host.methodCalls]
  split
  · next rest =>
    refine (Quiet.takeName rest input).bind fun name ts => Quiet.expect_bind fun ts => ?_
    exact (ih.arguments ts input).bind fun args ts => ih.methodCalls v ts input
  · exact .unsupported _
  · exact .unsupported _
  · exact .unsupported _
  · exact .value _ _

theorem arguments_succ (ts : List Token) (input : Input) :
    Quiet input (h.arguments (fuel + 1) false { tokens := ts, input })
      (h'.arguments (fuel + 1) false { tokens := ts, input }) := by
  simp only [Host.arguments]
  cases haccept : ({ tokens := ts, input } : Point).accept? ")" with
  | some q =>
    obtain ⟨ts, rfl⟩ := Point.exists_of_accept? haccept
    exact .value _ _
  | none =>
    refine (ih.choice ts input).bind fun v ts => ?_
    exact (ih.argumentsRest ts input).bind fun rest ts => .value _ _

theorem argumentsRest_succ (ts : List Token) (input : Input) :
    Quiet input (h.argumentsRest (fuel + 1) false { tokens := ts, input })
      (h'.argumentsRest (fuel + 1) false { tokens := ts, input }) := by
  simp only [Host.argumentsRest]
  cases haccept : ({ tokens := ts, input } : Point).accept? "," with
  | some q =>
    obtain ⟨ts, rfl⟩ := Point.exists_of_accept? haccept
    refine (ih.choice ts input).bind fun v ts => ?_
    exact (ih.argumentsRest ts input).bind fun rest ts => .value _ _
  | none => exact Quiet.expect_bind fun ts => .value _ _

theorem primary_succ (ts : List Token) (input : Input) :
    Quiet input (h.primary (fuel + 1) false { tokens := ts, input })
      (h'.primary (fuel + 1) false { tokens := ts, input }) := by
  simp only [Host.primary]
  split
  · exact .unsupported _
  · exact Quiet.numberValue_bind fun v => .value _ _
  · exact .value _ _
  · split
    · exact .value _ _
    · exact .unsupported _
  · next rest =>
    exact (ih.choice rest input).bind fun v ts => Quiet.expect_bind fun ts => .value _ _
  · exact .unsupported _
  · exact .value _ _
  · exact .value _ _
  · exact .value _ _
  · next s rest _ _ _ =>
    -- a name is a variable, or a class whose member follows behind a dot
    cases haccept : ({ tokens := rest, input } : Point).accept? "." with
    | none =>
      dsimp only
      split
      · exact .unsupported _
      · exact .value _ _
    | some q =>
      obtain ⟨ts, rfl⟩ := Point.exists_of_accept? haccept
      dsimp only
      split
      · refine (Quiet.takeName ts input).bind fun member ts => ?_
        dsimp only
        cases hcall : ({ tokens := ts, input } : Point).accept? "(" with
        | none =>
          dsimp only
          split
          · exact .value _ _
          · exact .unsupported _
        | some q =>
          obtain ⟨ts, rfl⟩ := Point.exists_of_accept? hcall
          exact (ih.arguments ts input).bind fun args ts => .value _ _
      · exact .value _ _

end Idle

/-- Reading without evaluating is quiet, by induction on the fuel. -/
theorem Idle.all (h h' : Host) (fuel : Nat) : Idle h h' fuel := by
  induction fuel with
  | zero => constructor <;> intros <;> exact .unsupported _
  | succ fuel ih =>
    exact
      { choice := ih.choice_succ
        disjunction := ih.disjunction_succ
        disjunctionRest := ih.disjunctionRest_succ
        conjunction := ih.conjunction_succ
        conjunctionRest := ih.conjunctionRest_succ
        chain := ih.chain_succ
        operand := ih.operand_succ
        chainRest := ih.chainRest_succ
        unary := ih.unary_succ
        methodCalls := ih.methodCalls_succ
        arguments := ih.arguments_succ
        argumentsRest := ih.argumentsRest_succ
        primary := ih.primary_succ }

/-! ### Readings beside evaluations -/

/-- An evaluation fails, or another one comes to the same tokens. -/
abbrev KeepsUp {α β : Type} : Except Fault (α × Point) → Except Fault (β × Point) → Prop :=
  Follows (fun _ => True) fun r s => SamePlace true r.2 s.2

namespace KeepsUp

variable {α β γ : Type} {y : Except Fault (β × Point)}

/-- What is made of values does not matter, as long as it is made by the evaluation that may fail. -/
theorem bind_any {x : Except Fault γ} {f : γ → Except Fault (α × Point)} (hf : ∀ a, KeepsUp (f a) y) :
    KeepsUp (x >>= f) y := by
  cases x with
  | error why => exact .stop trivial
  | ok a => exact hf a

/-- The truth of an operand, where it counts. -/
theorem truth_bind {live : Bool} {x : Except Fault Bool} {f : Bool → Except Fault (α × Point)}
    (hf : ∀ t, KeepsUp (f t) y) : KeepsUp (if live then x >>= f else pure false >>= f) y := by
  split
  · exact bind_any hf
  · exact hf false

/-- Where an evaluation comes to an end, the reading beside it comes to the same tokens. -/
theorem exists_ok {a : α} {p : Point} (h : KeepsUp (.ok (a, p)) y) :
    ∃ b q, y = .ok (b, q) ∧ q.tokens = p.tokens := by
  cases h with
  | @value _ s hpq =>
    obtain ⟨b, q⟩ := s
    obtain ⟨tokens, -⟩ := hpq
    exact ⟨b, _, rfl, rfl⟩

end KeepsUp

/-- With some fuel, reading without evaluating comes as far as evaluating, at every level. -/
structure Shadows (h : Host) (fuel : Nat) : Prop where
  choice : ∀ live p q, SamePlace true p q → KeepsUp (h.choice fuel live p) (h.choice fuel false q)
  disjunction : ∀ live p q, SamePlace true p q →
    KeepsUp (h.disjunction fuel live p) (h.disjunction fuel false q)
  disjunctionRest : ∀ live v w p q, SamePlace true p q →
    KeepsUp (h.disjunctionRest fuel live v p) (h.disjunctionRest fuel false w q)
  conjunction : ∀ live p q, SamePlace true p q →
    KeepsUp (h.conjunction fuel live p) (h.conjunction fuel false q)
  conjunctionRest : ∀ live v w p q, SamePlace true p q →
    KeepsUp (h.conjunctionRest fuel live v p) (h.conjunctionRest fuel false w q)
  chain : ∀ level live p q, SamePlace true p q →
    KeepsUp (h.chain fuel level live p) (h.chain fuel level false q)
  operand : ∀ level live p q, SamePlace true p q →
    KeepsUp (h.operand fuel level live p) (h.operand fuel level false q)
  chainRest : ∀ level live v w p q, SamePlace true p q →
    KeepsUp (h.chainRest fuel level live v p) (h.chainRest fuel level false w q)
  unary : ∀ live p q, SamePlace true p q → KeepsUp (h.unary fuel live p) (h.unary fuel false q)
  methodCalls : ∀ live v w p q, SamePlace true p q →
    KeepsUp (h.methodCalls fuel live v p) (h.methodCalls fuel false w q)
  arguments : ∀ live p q, SamePlace true p q →
    KeepsUp (h.arguments fuel live p) (h.arguments fuel false q)
  argumentsRest : ∀ live p q, SamePlace true p q →
    KeepsUp (h.argumentsRest fuel live p) (h.argumentsRest fuel false q)
  primary : ∀ live p q, SamePlace true p q → KeepsUp (h.primary fuel live p) (h.primary fuel false q)

namespace Shadows

variable {h : Host} {fuel : Nat} {p q : Point} (ih : Shadows h fuel)

include ih

theorem choice_succ (live : Bool) (hpq : SamePlace true p q) :
    KeepsUp (h.choice (fuel + 1) live p) (h.choice (fuel + 1) false q) := by
  simp only [Host.choice]
  refine (ih.disjunction live p q hpq).bind ?_
  rintro ⟨condition, p⟩ ⟨condition', q⟩ hpq
  have haccept := hpq.accept? "?"
  dsimp only
  generalize p.accept? "?" = x, q.accept? "?" = y at haccept
  cases haccept with
  | none => exact .value hpq
  | some hpq =>
    refine KeepsUp.truth_bind fun take => ?_
    refine (ih.choice take _ _ hpq).bind ?_
    rintro ⟨first, p⟩ ⟨first', q⟩ hpq
    refine (hpq.expect _ ":").bind fun p q hpq => ?_
    refine (ih.choice _ _ _ hpq).bind ?_
    rintro ⟨second, p⟩ ⟨second', q⟩ hpq
    exact .value hpq

theorem disjunction_succ (live : Bool) (hpq : SamePlace true p q) :
    KeepsUp (h.disjunction (fuel + 1) live p) (h.disjunction (fuel + 1) false q) := by
  simp only [Host.disjunction]
  refine (ih.conjunction live p q hpq).bind ?_
  rintro ⟨left, p⟩ ⟨left', q⟩ hpq
  exact ih.disjunctionRest live left left' p q hpq

theorem disjunctionRest_succ (live : Bool) (left left' : Value) (hpq : SamePlace true p q) :
    KeepsUp (h.disjunctionRest (fuel + 1) live left p) (h.disjunctionRest (fuel + 1) false left' q) := by
  have haccept := hpq.accept? "||"
  simp only [Host.disjunctionRest]
  generalize p.accept? "||" = x, q.accept? "||" = y at haccept
  cases haccept with
  | none => exact .value hpq
  | some hpq =>
    refine KeepsUp.truth_bind fun done => ?_
    refine (ih.conjunction _ _ _ hpq).bind ?_
    rintro ⟨right, p⟩ ⟨right', q⟩ hpq
    have hrest := fun v => ih.disjunctionRest live v left' p q hpq
    split
    · exact hrest left
    · split
      · exact hrest (.bool true)
      · exact KeepsUp.bind_any hrest

theorem conjunction_succ (live : Bool) (hpq : SamePlace true p q) :
    KeepsUp (h.conjunction (fuel + 1) live p) (h.conjunction (fuel + 1) false q) := by
  simp only [Host.conjunction]
  refine (ih.chain .equality live p q hpq).bind ?_
  rintro ⟨left, p⟩ ⟨left', q⟩ hpq
  exact ih.conjunctionRest live left left' p q hpq

theorem conjunctionRest_succ (live : Bool) (left left' : Value) (hpq : SamePlace true p q) :
    KeepsUp (h.conjunctionRest (fuel + 1) live left p) (h.conjunctionRest (fuel + 1) false left' q) := by
  have haccept := hpq.accept? "&&"
  simp only [Host.conjunctionRest]
  generalize p.accept? "&&" = x, q.accept? "&&" = y at haccept
  cases haccept with
  | none => exact .value hpq
  | some hpq =>
    refine KeepsUp.truth_bind fun done => ?_
    refine (ih.chain .equality _ _ _ hpq).bind ?_
    rintro ⟨right, p⟩ ⟨right', q⟩ hpq
    have hrest := fun v => ih.conjunctionRest live v left' p q hpq
    split
    · exact hrest left
    · split
      · exact hrest (.bool false)
      · exact KeepsUp.bind_any hrest

theorem chain_succ (level : Level) (live : Bool) (hpq : SamePlace true p q) :
    KeepsUp (h.chain (fuel + 1) level live p) (h.chain (fuel + 1) level false q) := by
  simp only [Host.chain]
  refine (ih.operand level live p q hpq).bind ?_
  rintro ⟨left, p⟩ ⟨left', q⟩ hpq
  exact ih.chainRest level live left left' p q hpq

theorem operand_succ (level : Level) (live : Bool) (hpq : SamePlace true p q) :
    KeepsUp (h.operand (fuel + 1) level live p) (h.operand (fuel + 1) level false q) := by
  simp only [Host.operand]
  split
  · exact ih.chain _ live p q hpq
  · exact ih.unary live p q hpq

theorem chainRest_succ (level : Level) (live : Bool) (left left' : Value) (hpq : SamePlace true p q) :
    KeepsUp (h.chainRest (fuel + 1) level live left p) (h.chainRest (fuel + 1) level false left' q) := by
  have hnext := hpq.next? level
  simp only [Host.chainRest]
  generalize level.next? p = x, level.next? q = y at hnext
  cases hnext with
  | none => exact .value hpq
  | @some x y hxy =>
    obtain ⟨op, p⟩ := x
    obtain ⟨_, q⟩ := y
    obtain ⟨rfl, hpq⟩ := hxy
    refine (ih.operand level live p q hpq).bind ?_
    rintro ⟨right, p⟩ ⟨right', q⟩ hpq
    have hrest := fun v => ih.chainRest level live v left' p q hpq
    split
    · exact KeepsUp.bind_any hrest
    · exact hrest left

theorem unary_succ (live : Bool) (hpq : SamePlace true p q) :
    KeepsUp (h.unary (fuel + 1) live p) (h.unary (fuel + 1) false q) := by
  have hcast := hpq.takeCast?
  obtain @⟨ts, i, j, hinput⟩ := hpq
  -- an operator in front of its operand, where the operand ends
  have hsign : ∀ {p q : Point} (f : Value → Except Fault Value), SamePlace true p q →
      KeepsUp (h.unary fuel live p >>= fun x => whenLive live (f x.1) >>= fun v => pure (v, x.2))
        (h.unary fuel false q >>= fun x => whenLive false (f x.1) >>= fun v => pure (v, x.2)) := by
    intro p q f hpq
    refine (ih.unary live p q hpq).bind ?_
    rintro ⟨v, p⟩ ⟨w, q⟩ hpq
    exact KeepsUp.bind_any fun v => .value hpq
  simp only [Host.unary]
  split
  · exact hsign (fun v => v.negate) ⟨_, hinput⟩
  · exact hsign (fun v => v.plus) ⟨_, hinput⟩
  · exact hsign (fun v => v.truth.map fun b => .bool !b) ⟨_, hinput⟩
  · exact .fault _
  · exact .fault _
  · generalize takeCast? { tokens := ts, input := i } = x,
      takeCast? { tokens := ts, input := j } = y at hcast
    cases hcast with
    | none =>
      refine (ih.primary live _ _ ⟨ts, hinput⟩).bind ?_
      rintro ⟨v, p⟩ ⟨w, q⟩ hpq
      exact ih.methodCalls live v w p q hpq
    | @some x y hxy =>
      obtain ⟨kind, p⟩ := x
      obtain ⟨_, q⟩ := y
      obtain ⟨rfl, hpq⟩ := hxy
      exact hsign (Program.cast kind) hpq

theorem methodCalls_succ (live : Bool) (v w : Value) (hpq : SamePlace true p q) :
    KeepsUp (h.methodCalls (fuel + 1) live v p) (h.methodCalls (fuel + 1) false w q) := by
  obtain @⟨ts, i, j, hinput⟩ := hpq
  simp only [Host.methodCalls]
  split
  · next rest =>
    have hpq : SamePlace true { tokens := rest, input := i } { tokens := rest, input := j } := ⟨rest, hinput⟩
    refine (hpq.takeName _).bind ?_
    rintro ⟨name, p⟩ ⟨_, q⟩ ⟨rfl, hpq⟩
    refine (hpq.expect _ "(").bind fun p q hpq => ?_
    refine (ih.arguments live p q hpq).bind ?_
    rintro ⟨args, p⟩ ⟨args', q⟩ hpq
    split
    · -- a method may move the input, and nothing else of the point
      obtain ⟨ts, -⟩ := hpq
      exact KeepsUp.bind_any fun r => ih.methodCalls live r.1 w _ _ ⟨ts, Bool.noConfusion⟩
    · exact ih.methodCalls live v w p q hpq
  · exact .fault _
  · exact .fault _
  · exact .fault _
  · exact .value ⟨ts, hinput⟩

theorem arguments_succ (live : Bool) (hpq : SamePlace true p q) :
    KeepsUp (h.arguments (fuel + 1) live p) (h.arguments (fuel + 1) false q) := by
  have haccept := hpq.accept? ")"
  simp only [Host.arguments]
  generalize p.accept? ")" = x, q.accept? ")" = y at haccept
  cases haccept with
  | some hpq => exact .value hpq
  | none =>
    refine (ih.choice live p q hpq).bind ?_
    rintro ⟨v, p⟩ ⟨v', q⟩ hpq
    refine (ih.argumentsRest live p q hpq).bind ?_
    rintro ⟨rest, p⟩ ⟨rest', q⟩ hpq
    exact .value hpq

theorem argumentsRest_succ (live : Bool) (hpq : SamePlace true p q) :
    KeepsUp (h.argumentsRest (fuel + 1) live p) (h.argumentsRest (fuel + 1) false q) := by
  have haccept := hpq.accept? ","
  simp only [Host.argumentsRest]
  generalize p.accept? "," = x, q.accept? "," = y at haccept
  cases haccept with
  | none => exact (hpq.expect _ ")").bind fun p q hpq => .value hpq
  | some hpq =>
    refine (ih.choice live _ _ hpq).bind ?_
    rintro ⟨v, p⟩ ⟨v', q⟩ hpq
    refine (ih.argumentsRest live p q hpq).bind ?_
    rintro ⟨rest, p⟩ ⟨rest', q⟩ hpq
    exact .value hpq

theorem primary_succ (live : Bool) (hpq : SamePlace true p q) :
    KeepsUp (h.primary (fuel + 1) live p) (h.primary (fuel + 1) false q) := by
  obtain @⟨ts, i, j, hinput⟩ := hpq
  simp only [Host.primary]
  split
  · exact .fault _
  · exact Follows.bind_same fun v => .value ⟨_, hinput⟩
  · exact .value ⟨_, hinput⟩
  · split
    · exact .value ⟨_, hinput⟩
    · exact .fault _
  · refine (ih.choice live _ _ ⟨_, hinput⟩).bind ?_
    rintro ⟨v, p⟩ ⟨v', q⟩ hpq
    exact (hpq.expect _ ")").bind fun p q hpq => .value hpq
  · exact .fault _
  · exact .value ⟨_, hinput⟩
  · exact .value ⟨_, hinput⟩
  · exact .value ⟨_, hinput⟩
  · next s rest _ _ _ =>
    -- a name is a variable, or a class whose member follows behind a dot
    have hpq : SamePlace true { tokens := rest, input := i } { tokens := rest, input := j } := ⟨rest, hinput⟩
    have hread : ∀ x y : Except Fault Value,
        KeepsUp (whenLive live x >>= fun v => pure (v, { tokens := rest, input := i }))
          (whenLive false y >>= fun v => pure (v, { tokens := rest, input := j })) :=
      fun x y => KeepsUp.bind_any fun v => .value hpq
    have haccept := hpq.accept? "."
    have hsees := hpq.sees "("
    generalize ({ tokens := rest, input := i } : Point).accept? "." = x,
      ({ tokens := rest, input := j } : Point).accept? "." = y at haccept
    cases haccept with
    | none =>
      dsimp only
      rw [hsees]
      split
      · exact .fault _
      · exact hread _ _
    | @some p q hpq' =>
      dsimp only
      split
      · refine (hpq'.takeName _).bind ?_
        rintro ⟨member, p⟩ ⟨_, q⟩ ⟨rfl, hpq⟩
        have haccept := hpq.accept? "("
        dsimp only
        generalize p.accept? "(" = x, q.accept? "(" = y at haccept
        cases haccept with
        | none =>
          dsimp only
          cases staticField? s member with
          | none => exact .fault _
          | some v => exact .value hpq
        | some hpq =>
          refine (ih.arguments live _ _ hpq).bind ?_
          rintro ⟨args, p⟩ ⟨args', q⟩ hpq
          exact KeepsUp.bind_any fun v => .value hpq
      · exact hread _ _

end Shadows

/-- Reading without evaluating comes as far as evaluating, by induction on the fuel. -/
theorem Shadows.all (h : Host) (fuel : Nat) : Shadows h fuel := by
  induction fuel with
  | zero => constructor <;> intros <;> exact .fault _
  | succ fuel ih =>
    exact
      { choice := fun live _ _ hpq => ih.choice_succ live hpq
        disjunction := fun live _ _ hpq => ih.disjunction_succ live hpq
        disjunctionRest := fun live v w _ _ hpq => ih.disjunctionRest_succ live v w hpq
        conjunction := fun live _ _ hpq => ih.conjunction_succ live hpq
        conjunctionRest := fun live v w _ _ hpq => ih.conjunctionRest_succ live v w hpq
        chain := fun level live _ _ hpq => ih.chain_succ level live hpq
        operand := fun level live _ _ hpq => ih.operand_succ level live hpq
        chainRest := fun level live v w _ _ hpq => ih.chainRest_succ level live v w hpq
        unary := fun live _ _ hpq => ih.unary_succ live hpq
        methodCalls := fun live v w _ _ hpq => ih.methodCalls_succ live v w hpq
        arguments := fun live _ _ hpq => ih.arguments_succ live hpq
        argumentsRest := fun live _ _ hpq => ih.argumentsRest_succ live hpq
        primary := fun live _ _ hpq => ih.primary_succ live hpq }

/-! ### Levels of precedence -/

/-- What a host reads at a level of precedence. -/
def Rank.readBy (h : Host) : Rank → Nat → Bool → Point → Reached
  | .choice => h.choice
  | .disjunction => h.disjunction
  | .conjunction => h.conjunction
  | .chain level => fun fuel => h.chain fuel level
  | .unary => h.unary
  | .primary => h.primary

theorem Host.Evaluates.rank {m : Machine} {fuel : Nat} (h : Host.Evaluates m fuel) (r : Rank) (live : Bool)
    (p : Point) : r.read m fuel live p = r.readBy (.of m) fuel live p := by
  cases r with
  | choice => exact h.choice live p
  | disjunction => exact h.disjunction live p
  | conjunction => exact h.conjunction live p
  | chain level => exact h.chain level live p
  | unary => exact h.unary live p
  | primary => exact h.primary live p

theorem Idle.rank {h h' : Host} {fuel : Nat} (hidle : Idle h h' fuel) (r : Rank) (tokens : List Token)
    (input : Input) :
    Quiet input (r.readBy h fuel false { tokens, input }) (r.readBy h' fuel false { tokens, input }) := by
  cases r with
  | choice => exact hidle.choice tokens input
  | disjunction => exact hidle.disjunction tokens input
  | conjunction => exact hidle.conjunction tokens input
  | chain level => exact hidle.chain level tokens input
  | unary => exact hidle.unary tokens input
  | primary => exact hidle.primary tokens input

theorem Shadows.rank {h : Host} {fuel : Nat} (hshadows : Shadows h fuel) (r : Rank) (live : Bool)
    {p q : Point} (hpq : SamePlace true p q) :
    KeepsUp (r.readBy h fuel live p) (r.readBy h fuel false q) := by
  cases r with
  | choice => exact hshadows.choice live p q hpq
  | disjunction => exact hshadows.disjunction live p q hpq
  | conjunction => exact hshadows.conjunction live p q hpq
  | chain level => exact hshadows.chain level live p q hpq
  | unary => exact hshadows.unary live p q hpq
  | primary => exact hshadows.primary live p q hpq

/-! ### Operands that are skipped -/

/-- Where a level is evaluated to its end by some machine, another one that skips it comes to the same
tokens, with its own input. -/
theorem Rank.exists_skipped {m' : Machine} {r : Rank} {fuel : Nat} {ts : List Token} {j : Input}
    {v : Value} {q : Point} (h : r.read m' fuel true { tokens := ts, input := j } = .ok (v, q))
    (m : Machine) (input : Input) :
    ∃ w, r.read m fuel false { tokens := ts, input } = .ok (w, { q with input }) := by
  rw [(Host.Evaluates.all m' fuel).rank] at h
  rw [(Host.Evaluates.all m fuel).rank]
  have hkeeps := (Shadows.all (.of m') fuel).rank r true (SamePlace.mk (i := j) (j := input) ts nofun)
  obtain ⟨w, ⟨tokens, input'⟩, hread, htokens⟩ := KeepsUp.exists_ok (h ▸ hkeeps)
  have hquiet := (Idle.all (.of m) (.of m') fuel).rank r ts input
  rw [← hquiet.eq] at hread
  obtain rfl : input' = input := (hread ▸ hquiet).input_eq
  obtain rfl : tokens = q.tokens := htokens
  exact ⟨w, hread⟩

/-- An operand that does not count is read up to where it would be evaluated to, by whatever machine, and
nothing comes of it: behind what is false for `&&`, behind what is true for `||`, and on the other side of a
condition for `?:`. -/
structure SkipsOperands (m : Machine) (fuel : Nat) : Prop where
  behindFalse : ∀ {m' : Machine} {left v : Value} {ts : List Token} {input j : Input} {q : Point},
    left.truth = .ok false → chain m' fuel .equality true { tokens := ts, input := j } = .ok (v, q) →
    conjunctionRest m (fuel + 1) true left { tokens := .op "&&" :: ts, input } =
      conjunctionRest m fuel true (.bool false) { q with input }
  behindTrue : ∀ {m' : Machine} {left v : Value} {ts : List Token} {input j : Input} {q : Point},
    left.truth = .ok true → conjunction m' fuel true { tokens := ts, input := j } = .ok (v, q) →
    disjunctionRest m (fuel + 1) true left { tokens := .op "||" :: ts, input } =
      disjunctionRest m fuel true (.bool true) { q with input }
  first : ∀ {m' : Machine} {condition v : Value} {ts us : List Token} {input j : Input} {p q : Point},
    condition.truth = .ok false →
    disjunction m fuel true p = .ok (condition, { tokens := .op "?" :: ts, input }) →
    choice m' fuel true { tokens := ts, input := j } = .ok (v, q) → q.tokens = .op ":" :: us →
    choice m (fuel + 1) true p = choice m fuel true { tokens := us, input }
  second : ∀ {m' : Machine} {condition first v : Value} {ts us : List Token} {input i j : Input}
    {p q : Point}, condition.truth = .ok true →
    disjunction m fuel true p = .ok (condition, { tokens := .op "?" :: ts, input }) →
    choice m fuel true { tokens := ts, input } = .ok (first, { tokens := .op ":" :: us, input := i }) →
    choice m' fuel true { tokens := us, input := j } = .ok (v, q) →
    choice m (fuel + 1) true p = .ok (first, { q with input := i })

/-- Operands that do not count are skipped by every machine, with any fuel. -/
theorem SkipsOperands.all (m : Machine) (fuel : Nat) : SkipsOperands m fuel where
  behindFalse := by
    intro m' left v ts input j q hleft h
    obtain ⟨w, hskip⟩ := Rank.exists_skipped (r := .chain .equality) h m input
    simp only [Rank.read] at hskip
    simp only [conjunctionRest, Point.accept?_self, hleft, bind, Except.bind, Except.map, if_true,
      Bool.not_false, Bool.not_true, Bool.and_false, hskip]
    rfl
  behindTrue := by
    intro m' left v ts input j q hleft h
    obtain ⟨w, hskip⟩ := Rank.exists_skipped (r := .conjunction) h m input
    simp only [Rank.read] at hskip
    simp only [disjunctionRest, Point.accept?_self, hleft, bind, Except.bind, if_true, Bool.not_true,
      Bool.and_false, hskip]
    rfl
  first := by
    intro m' condition v ts us input j p q hcondition hp h hcolon
    obtain ⟨w, hskip⟩ := Rank.exists_skipped (r := .choice) h m input
    simp only [Rank.read, hcolon] at hskip
    rw [choice]
    simp only [hp, bind, Except.bind, Point.accept?_self, hcondition, if_true, hskip, Point.expect_self,
      Bool.not_false, Bool.and_true]
    cases choice m fuel true { tokens := us, input } <;> rfl
  second := by
    intro m' condition first v ts us input i j p q hcondition hp hfirst h
    obtain ⟨w, hskip⟩ := Rank.exists_skipped (r := .choice) h m i
    simp only [Rank.read] at hskip
    rw [choice]
    simp only [hp, bind, Except.bind, Point.accept?_self, hcondition, if_true, hfirst, Point.expect_self,
      Bool.not_true, Bool.and_false, hskip]
    rfl

/-! ### The grammar -/

/-- The levels of the grammar: those of precedence, the calls on a primary expression, and the arguments of
a call. -/
inductive Grammar where
  | rank (r : Rank)
  | calls
  | arguments

namespace Grammar

/-- The values and the point that a machine comes to at a level. -/
def read (m : Machine) : Grammar → Nat → Bool → Point → Except Fault (List Value × Point)
  | .rank r, fuel, live, p => do
    let (v, p) ← r.read m fuel live p
    return ([v], p)
  | .calls, fuel, live, p => do
    let (v, p) ← primary m fuel live p
    let (v, p) ← methodCalls m fuel live v p
    return ([v], p)
  | .arguments, fuel, live, p => Program.arguments m fuel live p

/-- The values and the point that a host comes to at a level. -/
def readBy (h : Host) : Grammar → Nat → Bool → Point → Except Fault (List Value × Point)
  | .rank r, fuel, live, p => do
    let (v, p) ← r.readBy h fuel live p
    return ([v], p)
  | .calls, fuel, live, p => do
    let (v, p) ← h.primary fuel live p
    let (v, p) ← h.methodCalls fuel live v p
    return ([v], p)
  | .arguments, fuel, live, p => h.arguments fuel live p

theorem read_eq_readBy (m : Machine) (g : Grammar) (fuel : Nat) (live : Bool) (p : Point) :
    g.read m fuel live p = g.readBy (.of m) fuel live p := by
  have h := Host.Evaluates.all m fuel
  cases g with
  | rank r => simp only [read, readBy, h.rank]
  | calls => simp only [read, readBy, h.primary, h.methodCalls]
  | arguments => exact h.arguments live p

/-- Reading without evaluating is quiet at every level of the grammar. -/
theorem quiet (h h' : Host) (g : Grammar) (fuel : Nat) (p : Point) :
    Quiet p.input (g.readBy h fuel false p) (g.readBy h' fuel false p) := by
  have hidle := Idle.all h h' fuel
  cases g with
  | rank r => exact (hidle.rank r p.tokens p.input).bind fun v ts => .value _ _
  | calls =>
    refine (hidle.primary p.tokens p.input).bind fun v ts => ?_
    exact (hidle.methodCalls v ts p.input).bind fun v ts => .value _ _
  | arguments => exact hidle.arguments p.tokens p.input

/-- Reading without evaluating comes as far as evaluating at every level of the grammar. -/
theorem keepsUp (h : Host) (g : Grammar) (fuel : Nat) (live : Bool) {p q : Point}
    (hpq : SamePlace true p q) : KeepsUp (g.readBy h fuel live p) (g.readBy h fuel false q) := by
  have hshadows := Shadows.all h fuel
  cases g with
  | rank r =>
    refine (hshadows.rank r live hpq).bind ?_
    rintro ⟨v, p⟩ ⟨w, q⟩ hpq
    exact .value hpq
  | calls =>
    refine (hshadows.primary live p q hpq).bind ?_
    rintro ⟨v, p⟩ ⟨w, q⟩ hpq
    refine (hshadows.methodCalls live v w p q hpq).bind ?_
    rintro ⟨v, p⟩ ⟨w, q⟩ hpq
    exact .value hpq
  | arguments => exact hshadows.arguments live p q hpq

/-- **Reading does not depend on evaluating.**  At every level of the grammar, with any fuel and from any
point: a reading that does not evaluate is the same whoever answers for variables, methods and static
functions, throws no exception of the program, and leaves the input as it is.  Where an evaluation comes to
an end, the reading comes to the same tokens, and an evaluation does not come to others.  So an operand of
`&&`, `||` or `?:` that does not count is read to its end, and has no effect. -/
theorem reading_does_not_evaluate (m : Machine) (g : Grammar) (fuel : Nat) (p : Point) :
    (∀ live, g.readBy (.of m) fuel live p = g.read m fuel live p) ∧
      (∀ h : Host, g.readBy h fuel false p = g.read m fuel false p) ∧
      (∀ why, g.read m fuel false p = .error why → ¬ why.IsThrown) ∧
      (∀ vs q, g.read m fuel false p = .ok (vs, q) → q.input = p.input) ∧
      (∀ vs q, g.read m fuel true p = .ok (vs, q) →
        ∃ ws, g.read m fuel false p = .ok (ws, { q with input := p.input })) ∧
      (∀ ws q, g.read m fuel false p = .ok (ws, q) →
        ∀ vs q', g.read m fuel true p = .ok (vs, q') → q'.tokens = q.tokens) ∧
      SkipsOperands m fuel := by
  have hquiet := fun h => g.quiet h (.of m) fuel p
  have hkeeps := g.keepsUp (.of m) fuel true (SamePlace.mk (i := p.input) (j := p.input) p.tokens nofun)
  have hreaches : ∀ vs q, g.readBy (.of m) fuel true p = .ok (vs, q) →
      ∃ ws, g.readBy (.of m) fuel false p = .ok (ws, { q with input := p.input }) := by
    intro vs q h
    obtain ⟨ws, ⟨tokens, input⟩, hread, htokens⟩ := KeepsUp.exists_ok (h ▸ hkeeps)
    obtain rfl : input = p.input := (hread ▸ hquiet (.of m)).input_eq
    obtain rfl : tokens = q.tokens := htokens
    exact ⟨ws, hread⟩
  refine ⟨fun live => (g.read_eq_readBy m fuel live p).symm, ?_⟩
  simp only [read_eq_readBy]
  refine ⟨fun h => (hquiet h).eq, fun why h => ?_, fun vs q h => ?_, hreaches, ?_, .all m fuel⟩
  · exact (h ▸ hquiet (.of m)).not_isThrown
  · exact (h ▸ hquiet (.of m)).input_eq
  · intro ws q hread vs q' h
    obtain ⟨ws', hread'⟩ := hreaches vs q' h
    obtain ⟨-, hq⟩ := Prod.mk.inj (Except.ok.inj (hread.symm.trans hread'))
    rw [hq]

/-- A number that cannot be parsed, read up to the colon behind it: evaluating it throws. -/
theorem reading_does_not_evaluate_parseInt :
    let m : Machine := { dialect := .java, input := Input.ofValues [] }
    let p : Point :=
      { tokens := [.name "Integer", .op ".", .name "parseInt", .op "(", .string ['x'], .op ")", .op ":"]
        input := m.input }
    (rank .choice).read m 32 true p = .error (.thrown (.numberFormat (.ofString "x"))) ∧
      (rank .choice).read m 32 false p = .ok ([.null], { tokens := [.op ":"], input := m.input }) ∧
      ∀ h : Host, (rank .choice).readBy h 32 false p =
        .ok ([.null], { tokens := [.op ":"], input := m.input }) := by
  intro m p
  have hdead : (rank .choice).read m 32 false p =
      .ok ([.null], { tokens := [.op ":"], input := m.input }) := by
    rfl
  obtain ⟨-, hhosts, -⟩ := reading_does_not_evaluate m (rank .choice) 32 p
  exact ⟨by rfl, hdead, fun h => (hhosts h).trans hdead⟩

end Grammar

end Coach.Program
