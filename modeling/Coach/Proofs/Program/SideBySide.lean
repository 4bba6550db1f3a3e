import Coach.Program.Expression

/-!
# Two evaluations side by side

An expression is evaluated on two machines that answer every read alike, unless the first of them
refuses the read.  Then the two evaluations go the same way, up to the point at which the first one
meets such a refusal.

## Main definitions

* `Follows`: a computation does what another does, or is blocked
* `SameView`: machines that answer the same reads
* `SamePlace`: points of two evaluations with the same tokens left
* `SideBySide`: every level of the evaluator follows, with some fuel

## Design notes

What blocks an evaluation is a parameter.  With nothing that blocks, two machines that agree on all
they know evaluate in lockstep; with the refusal of one name, a machine that does not know the name
runs beside one that does.  The levels call each other, so they are taken together, in one induction
on the fuel; each is a chain of binds and needs only `Follows.bind`.
-/

namespace Coach.Program

/-! ### Computations that may be blocked -/

/-- The first computation is blocked, or fails as the second does, or answers something related. -/
inductive Follows {α β : Type} (blocked : Fault → Prop) (R : α → β → Prop) :
    Except Fault α → Except Fault β → Prop
  | stop {why : Fault} {y : Except Fault β} : blocked why → Follows blocked R (.error why) y
  | fault (why : Fault) : Follows blocked R (.error why) (.error why)
  | value {u : α} {v : β} : R u v → Follows blocked R (.ok u) (.ok v)

namespace Follows

variable {α β γ δ : Type} {blocked : Fault → Prop} {R : α → β → Prop} {S : γ → δ → Prop}

theorem bind {x : Except Fault α} {y : Except Fault β} {f : α → Except Fault γ}
    {g : β → Except Fault δ} (h : Follows blocked R x y)
    (hf : ∀ u v, R u v → Follows blocked S (f u) (g v)) : Follows blocked S (x >>= f) (y >>= g) := by
  cases h with
  | stop hwhy => exact stop hwhy
  | fault why => exact fault why
  | value huv => exact hf _ _ huv

theorem map {x : Except Fault α} {y : Except Fault β} {f : α → γ} {g : β → δ}
    (h : Follows blocked R x y) (hf : ∀ u v, R u v → S (f u) (g v)) :
    Follows blocked S (x.map f) (y.map g) := by
  cases h with
  | stop hwhy => exact stop hwhy
  | fault why => exact fault why
  | value huv => exact value (hf _ _ huv)

theorem imp {R' : α → β → Prop} {x : Except Fault α} {y : Except Fault β}
    (h : Follows blocked R x y) (hR : ∀ u v, R u v → R' u v) : Follows blocked R' x y := by
  cases h with
  | stop hwhy => exact stop hwhy
  | fault why => exact fault why
  | value huv => exact value (hR _ _ huv)

theorem refl (x : Except Fault α) : Follows blocked Eq x x := by
  cases x with
  | error why => exact fault why
  | ok u => exact value rfl

/-- A computation that does not look at the machines. -/
theorem bind_same {x : Except Fault α} {f : α → Except Fault γ} {g : α → Except Fault δ}
    (hf : ∀ u, Follows blocked S (f u) (g u)) : Follows blocked S (x >>= f) (x >>= g) :=
  (refl x).bind fun u _ huv => huv ▸ hf u

end Follows

/-! ### What two machines show -/

/-- Machines of which the first answers every read as the second does, or is blocked. -/
structure SameView (blocked : Fault → Prop) (a b : Machine) : Prop where
  read : ∀ name, Follows blocked Eq (a.read name) (b.read name)
  inputUnknown_eq : a.inputUnknown = b.inputUnknown

/-- Inputs that are the same, unless the position is unknown. -/
def SameInput (blind : Bool) (i j : Input) : Prop := blind = false → i = j

/-- Points with the same tokens left. -/
inductive SamePlace (blind : Bool) : Point → Point → Prop
  | mk (tokens : List Token) {i j : Input} : SameInput blind i j →
    SamePlace blind { tokens, input := i } { tokens, input := j }

/-- Values, or lists of them, that are the same and were reached at the same place. -/
def SameReach {α : Type} (blind : Bool) (x y : α × Point) : Prop :=
  x.1 = y.1 ∧ SamePlace blind x.2 y.2

/-- Values that are the same, with inputs that are. -/
def SameRead {α : Type} (blind : Bool) (x y : α × Input) : Prop :=
  x.1 = y.1 ∧ SameInput blind x.2 y.2

namespace SamePlace

variable {blind : Bool} {p q : Point}

theorem accept? (h : SamePlace blind p q) (symbol : String) :
    Option.Rel (SamePlace blind) (p.accept? symbol) (q.accept? symbol) := by
  obtain ⟨ts, hinput⟩ := h
  unfold Point.accept?
  dsimp only
  split
  · split
    · exact Option.Rel.some ⟨_, hinput⟩
    · exact Option.Rel.none
  · exact Option.Rel.none

theorem sees (h : SamePlace blind p q) (symbol : String) : p.sees symbol = q.sees symbol := by
  obtain ⟨ts, hinput⟩ := h
  rfl

theorem expect (blocked : Fault → Prop) (h : SamePlace blind p q) (symbol : String) :
    Follows blocked (SamePlace blind) (p.expect symbol) (q.expect symbol) := by
  have haccept := h.accept? symbol
  unfold Point.expect
  generalize p.accept? symbol = x, q.accept? symbol = y at haccept
  cases haccept with
  | none => exact Follows.fault _
  | some h => exact Follows.value h

theorem takeName (blocked : Fault → Prop) (h : SamePlace blind p q) :
    Follows blocked (SameReach blind) p.takeName q.takeName := by
  obtain ⟨ts, hinput⟩ := h
  unfold Point.takeName
  dsimp only
  split
  · exact Follows.value ⟨rfl, _, hinput⟩
  · exact Follows.fault _

theorem next? (h : SamePlace blind p q) (level : Level) :
    Option.Rel (SameReach blind) (level.next? p) (level.next? q) := by
  obtain ⟨ts, hinput⟩ := h
  unfold Level.next?
  dsimp only
  split
  · next s rest =>
    cases level.operator? s with
    | none => exact Option.Rel.none
    | some op => exact Option.Rel.some ⟨rfl, _, hinput⟩
  · exact Option.Rel.none

theorem takeCast? (h : SamePlace blind p q) :
    Option.Rel (SameReach blind) (Program.takeCast? p) (Program.takeCast? q) := by
  obtain ⟨ts, hinput⟩ := h
  unfold Program.takeCast?
  dsimp only
  split
  · next s rest =>
    cases Kind.ofName? s with
    | none => exact Option.Rel.none
    | some kind => exact Option.Rel.some ⟨rfl, _, hinput⟩
  · exact Option.Rel.none

end SamePlace

/-! ### Calls -/

section Calls

variable {blocked : Fault → Prop} {a b : Machine}

/-- A scanner is not read when the position is unknown, and reads the same otherwise. -/
theorem callScanner_follows (h : SameView blocked a b) {i j : Input}
    (hij : SameInput a.inputUnknown i j) (name : String) (args : List Value) :
    Follows blocked (SameRead a.inputUnknown) (callScanner a i name args)
      (callScanner b j name args) := by
  unfold callScanner
  rw [← h.inputUnknown_eq]
  cases hblind : a.inputUnknown with
  | true =>
    rw [hblind] at hij
    -- closing a scanner is all that does not look at the input
    by_cases hname : name = "close"
    · subst hname
      split
      · exact Follows.fault _
      · exact Follows.value ⟨rfl, hij⟩
    · split
      · exact Follows.fault _
      · rw [if_pos (by simp [hname]), if_pos (by simp [hname])]
        exact Follows.fault _
  | false =>
    obtain rfl := hij hblind
    exact (Follows.refl _).imp fun u v huv => huv ▸ ⟨rfl, fun _ => rfl⟩

theorem callMethod_follows (h : SameView blocked a b) {i j : Input}
    (hij : SameInput a.inputUnknown i j) (target : Value) (name : String) (args : List Value) :
    Follows blocked (SameRead a.inputUnknown) (callMethod a i target name args)
      (callMethod b j target name args) := by
  cases target with
  | scanner => exact callScanner_follows h hij name args
  | str s => exact (Follows.refl _).map fun u v huv => ⟨huv, hij⟩
  | _ => exact Follows.fault _

end Calls

/-! ### The levels -/

/-- With some fuel, every level of the evaluation on one machine follows that on the other. -/
structure SideBySide (blocked : Fault → Prop) (a b : Machine) (fuel : Nat) : Prop where
  choice : ∀ live p q, SamePlace a.inputUnknown p q →
    Follows blocked (SameReach a.inputUnknown) (choice a fuel live p) (choice b fuel live q)
  disjunction : ∀ live p q, SamePlace a.inputUnknown p q →
    Follows blocked (SameReach a.inputUnknown) (disjunction a fuel live p) (disjunction b fuel live q)
  disjunctionRest : ∀ live v p q, SamePlace a.inputUnknown p q →
    Follows blocked (SameReach a.inputUnknown) (disjunctionRest a fuel live v p)
      (disjunctionRest b fuel live v q)
  conjunction : ∀ live p q, SamePlace a.inputUnknown p q →
    Follows blocked (SameReach a.inputUnknown) (conjunction a fuel live p) (conjunction b fuel live q)
  conjunctionRest : ∀ live v p q, SamePlace a.inputUnknown p q →
    Follows blocked (SameReach a.inputUnknown) (conjunctionRest a fuel live v p)
      (conjunctionRest b fuel live v q)
  chain : ∀ level live p q, SamePlace a.inputUnknown p q →
    Follows blocked (SameReach a.inputUnknown) (chain a fuel level live p) (chain b fuel level live q)
  operand : ∀ level live p q, SamePlace a.inputUnknown p q →
    Follows blocked (SameReach a.inputUnknown) (operand a fuel level live p)
      (operand b fuel level live q)
  chainRest : ∀ level live v p q, SamePlace a.inputUnknown p q →
    Follows blocked (SameReach a.inputUnknown) (chainRest a fuel level live v p)
      (chainRest b fuel level live v q)
  unary : ∀ live p q, SamePlace a.inputUnknown p q →
    Follows blocked (SameReach a.inputUnknown) (unary a fuel live p) (unary b fuel live q)
  methodCalls : ∀ live v p q, SamePlace a.inputUnknown p q →
    Follows blocked (SameReach a.inputUnknown) (methodCalls a fuel live v p)
      (methodCalls b fuel live v q)
  arguments : ∀ live p q, SamePlace a.inputUnknown p q →
    Follows blocked (SameReach a.inputUnknown) (arguments a fuel live p) (arguments b fuel live q)
  argumentsRest : ∀ live p q, SamePlace a.inputUnknown p q →
    Follows blocked (SameReach a.inputUnknown) (argumentsRest a fuel live p)
      (argumentsRest b fuel live q)
  primary : ∀ live p q, SamePlace a.inputUnknown p q →
    Follows blocked (SameReach a.inputUnknown) (primary a fuel live p) (primary b fuel live q)

namespace SideBySide

variable {blocked : Fault → Prop} {a b : Machine} {fuel : Nat} {p q : Point}

/-- The part that each operand of `?:`, `||` and `&&` plays: what is done with the truth value of the
one before it, where that counts. -/
theorem truth_bind {α β : Type} {S : α → β → Prop} {live : Bool} {x : Except Fault Bool}
    {f : Bool → Except Fault α} {g : Bool → Except Fault β}
    (hf : ∀ t, Follows blocked S (f t) (g t)) :
    Follows blocked S (if live then x >>= f else pure false >>= f)
      (if live then x >>= g else pure false >>= g) := by
  split
  · exact Follows.bind_same hf
  · exact hf false

/-- A value that is made only where it counts. -/
theorem whenLive_bind {α β : Type} {S : α → β → Prop} {live : Bool} {x y : Except Fault Value}
    {f : Value → Except Fault α} {g : Value → Except Fault β} (hxy : Follows blocked Eq x y)
    (hf : ∀ v, Follows blocked S (f v) (g v)) :
    Follows blocked S (whenLive live x >>= f) (whenLive live y >>= g) := by
  unfold whenLive
  split
  · exact hxy.bind fun v _ hv => hv ▸ hf v
  · exact hf .null

section Levels

variable (ih : SideBySide blocked a b fuel)

include ih

theorem choice_succ (live : Bool) (h : SamePlace a.inputUnknown p q) :
    Follows blocked (SameReach a.inputUnknown) (Program.choice a (fuel + 1) live p)
      (Program.choice b (fuel + 1) live q) := by
  simp only [Program.choice]
  refine (ih.disjunction live p q h).bind ?_
  rintro ⟨condition, p⟩ ⟨_, q⟩ ⟨rfl, h⟩
  have haccept := h.accept? "?"
  dsimp only
  generalize p.accept? "?" = x, q.accept? "?" = y at haccept
  cases haccept with
  | none => exact Follows.value ⟨rfl, h⟩
  | some h =>
    refine truth_bind fun take => ?_
    refine (ih.choice take _ _ h).bind ?_
    rintro ⟨first, p⟩ ⟨_, q⟩ ⟨rfl, h⟩
    refine (h.expect blocked ":").bind fun p q h => ?_
    refine (ih.choice _ _ _ h).bind ?_
    rintro ⟨second, p⟩ ⟨_, q⟩ ⟨rfl, h⟩
    exact Follows.value ⟨rfl, h⟩

theorem disjunction_succ (live : Bool) (h : SamePlace a.inputUnknown p q) :
    Follows blocked (SameReach a.inputUnknown) (Program.disjunction a (fuel + 1) live p)
      (Program.disjunction b (fuel + 1) live q) := by
  simp only [Program.disjunction]
  refine (ih.conjunction live p q h).bind ?_
  rintro ⟨left, p⟩ ⟨_, q⟩ ⟨rfl, h⟩
  exact ih.disjunctionRest live left p q h

theorem disjunctionRest_succ (live : Bool) (left : Value) (h : SamePlace a.inputUnknown p q) :
    Follows blocked (SameReach a.inputUnknown) (Program.disjunctionRest a (fuel + 1) live left p)
      (Program.disjunctionRest b (fuel + 1) live left q) := by
  have haccept := h.accept? "||"
  simp only [Program.disjunctionRest]
  generalize p.accept? "||" = x, q.accept? "||" = y at haccept
  cases haccept with
  | none => exact Follows.value ⟨rfl, h⟩
  | some h =>
    refine truth_bind fun done => ?_
    refine (ih.conjunction _ _ _ h).bind ?_
    rintro ⟨right, p⟩ ⟨_, q⟩ ⟨rfl, h⟩
    split
    · exact ih.disjunctionRest live left p q h
    · split
      · exact ih.disjunctionRest live (.bool true) p q h
      · exact Follows.bind_same fun left => ih.disjunctionRest live left p q h

theorem conjunction_succ (live : Bool) (h : SamePlace a.inputUnknown p q) :
    Follows blocked (SameReach a.inputUnknown) (Program.conjunction a (fuel + 1) live p)
      (Program.conjunction b (fuel + 1) live q) := by
  simp only [Program.conjunction]
  refine (ih.chain .equality live p q h).bind ?_
  rintro ⟨left, p⟩ ⟨_, q⟩ ⟨rfl, h⟩
  exact ih.conjunctionRest live left p q h

theorem conjunctionRest_succ (live : Bool) (left : Value) (h : SamePlace a.inputUnknown p q) :
    Follows blocked (SameReach a.inputUnknown) (Program.conjunctionRest a (fuel + 1) live left p)
      (Program.conjunctionRest b (fuel + 1) live left q) := by
  have haccept := h.accept? "&&"
  simp only [Program.conjunctionRest]
  generalize p.accept? "&&" = x, q.accept? "&&" = y at haccept
  cases haccept with
  | none => exact Follows.value ⟨rfl, h⟩
  | some h =>
    refine truth_bind fun done => ?_
    refine (ih.chain .equality _ _ _ h).bind ?_
    rintro ⟨right, p⟩ ⟨_, q⟩ ⟨rfl, h⟩
    split
    · exact ih.conjunctionRest live left p q h
    · split
      · exact ih.conjunctionRest live (.bool false) p q h
      · exact Follows.bind_same fun left => ih.conjunctionRest live left p q h

theorem chain_succ (level : Level) (live : Bool) (h : SamePlace a.inputUnknown p q) :
    Follows blocked (SameReach a.inputUnknown) (Program.chain a (fuel + 1) level live p)
      (Program.chain b (fuel + 1) level live q) := by
  simp only [Program.chain]
  refine (ih.operand level live p q h).bind ?_
  rintro ⟨left, p⟩ ⟨_, q⟩ ⟨rfl, h⟩
  exact ih.chainRest level live left p q h

theorem operand_succ (level : Level) (live : Bool) (h : SamePlace a.inputUnknown p q) :
    Follows blocked (SameReach a.inputUnknown) (Program.operand a (fuel + 1) level live p)
      (Program.operand b (fuel + 1) level live q) := by
  simp only [Program.operand]
  split
  · exact ih.chain _ live p q h
  · exact ih.unary live p q h

theorem chainRest_succ (level : Level) (live : Bool) (left : Value)
    (h : SamePlace a.inputUnknown p q) :
    Follows blocked (SameReach a.inputUnknown) (Program.chainRest a (fuel + 1) level live left p)
      (Program.chainRest b (fuel + 1) level live left q) := by
  have hnext := h.next? level
  simp only [Program.chainRest]
  generalize level.next? p = x, level.next? q = y at hnext
  cases hnext with
  | none => exact Follows.value ⟨rfl, h⟩
  | @some x y h =>
    obtain ⟨op, p⟩ := x
    obtain ⟨_, q⟩ := y
    obtain ⟨rfl, h⟩ := h
    refine (ih.operand level live p q h).bind ?_
    rintro ⟨right, p⟩ ⟨_, q⟩ ⟨rfl, h⟩
    split
    · exact Follows.bind_same fun left => ih.chainRest level live left p q h
    · exact ih.chainRest level live left p q h

theorem unary_succ (live : Bool) (h : SamePlace a.inputUnknown p q) :
    Follows blocked (SameReach a.inputUnknown) (Program.unary a (fuel + 1) live p)
      (Program.unary b (fuel + 1) live q) := by
  have hcast := h.takeCast?
  obtain @⟨ts, i, j, hinput⟩ := h
  -- an operator in front of its operand
  have hsign : ∀ (rest : List Token) (f : Value → Except Fault Value),
      Follows blocked (SameReach a.inputUnknown)
        (Program.unary a fuel live { tokens := rest, input := i } >>= fun x =>
          whenLive live (f x.1) >>= fun v => pure (v, x.2))
        (Program.unary b fuel live { tokens := rest, input := j } >>= fun x =>
          whenLive live (f x.1) >>= fun v => pure (v, x.2)) := by
    intro rest f
    refine (ih.unary live _ _ ⟨rest, hinput⟩).bind ?_
    rintro ⟨v, p⟩ ⟨_, q⟩ ⟨rfl, h⟩
    exact Follows.bind_same fun v => Follows.value ⟨rfl, h⟩
  simp only [Program.unary]
  split
  · exact hsign _ fun v => v.negate
  · exact hsign _ fun v => v.plus
  · exact hsign _ fun v => v.truth.map fun b => .bool !b
  · exact Follows.fault _
  · exact Follows.fault _
  · generalize takeCast? { tokens := ts, input := i } = x,
      takeCast? { tokens := ts, input := j } = y at hcast
    cases hcast with
    | none =>
      refine (ih.primary live _ _ ⟨ts, hinput⟩).bind ?_
      rintro ⟨v, p⟩ ⟨_, q⟩ ⟨rfl, h⟩
      exact ih.methodCalls live v p q h
    | @some x y h =>
      obtain ⟨kind, p⟩ := x
      obtain ⟨_, q⟩ := y
      obtain ⟨rfl, h⟩ := h
      refine (ih.unary live p q h).bind ?_
      rintro ⟨v, p⟩ ⟨_, q⟩ ⟨rfl, h⟩
      exact Follows.bind_same fun v => Follows.value ⟨rfl, h⟩

theorem methodCalls_succ (hview : SameView blocked a b) (live : Bool) (v : Value)
    (h : SamePlace a.inputUnknown p q) :
    Follows blocked (SameReach a.inputUnknown) (Program.methodCalls a (fuel + 1) live v p)
      (Program.methodCalls b (fuel + 1) live v q) := by
  obtain @⟨ts, i, j, hinput⟩ := h
  simp only [Program.methodCalls]
  split
  · next rest =>
    have h : SamePlace a.inputUnknown { tokens := rest, input := i } { tokens := rest, input := j } :=
      ⟨rest, hinput⟩
    refine (h.takeName blocked).bind ?_
    rintro ⟨name, p⟩ ⟨_, q⟩ ⟨rfl, h⟩
    refine (h.expect blocked "(").bind fun p q h => ?_
    refine (ih.arguments live p q h).bind ?_
    rintro ⟨args, p⟩ ⟨_, q⟩ ⟨rfl, h⟩
    split
    · obtain ⟨ts, hinput⟩ := h
      refine (callMethod_follows hview hinput v name args).bind ?_
      rintro ⟨v, i⟩ ⟨_, j⟩ ⟨rfl, hinput⟩
      exact ih.methodCalls live v _ _ ⟨ts, hinput⟩
    · exact ih.methodCalls live v p q h
  · exact Follows.fault _
  · exact Follows.fault _
  · exact Follows.fault _
  · exact Follows.value ⟨rfl, ts, hinput⟩

theorem arguments_succ (live : Bool) (h : SamePlace a.inputUnknown p q) :
    Follows blocked (SameReach a.inputUnknown) (Program.arguments a (fuel + 1) live p)
      (Program.arguments b (fuel + 1) live q) := by
  have haccept := h.accept? ")"
  simp only [Program.arguments]
  generalize p.accept? ")" = x, q.accept? ")" = y at haccept
  cases haccept with
  | some h => exact Follows.value ⟨rfl, h⟩
  | none =>
    refine (ih.choice live p q h).bind ?_
    rintro ⟨v, p⟩ ⟨_, q⟩ ⟨rfl, h⟩
    refine (ih.argumentsRest live p q h).bind ?_
    rintro ⟨rest, p⟩ ⟨_, q⟩ ⟨rfl, h⟩
    exact Follows.value ⟨rfl, h⟩

theorem argumentsRest_succ (live : Bool) (h : SamePlace a.inputUnknown p q) :
    Follows blocked (SameReach a.inputUnknown) (Program.argumentsRest a (fuel + 1) live p)
      (Program.argumentsRest b (fuel + 1) live q) := by
  have haccept := h.accept? ","
  simp only [Program.argumentsRest]
  generalize p.accept? "," = x, q.accept? "," = y at haccept
  cases haccept with
  | none => exact (h.expect blocked ")").bind fun p q h => Follows.value ⟨rfl, h⟩
  | some h =>
    refine (ih.choice live _ _ h).bind ?_
    rintro ⟨v, p⟩ ⟨_, q⟩ ⟨rfl, h⟩
    refine (ih.argumentsRest live p q h).bind ?_
    rintro ⟨rest, p⟩ ⟨_, q⟩ ⟨rfl, h⟩
    exact Follows.value ⟨rfl, h⟩

theorem primary_succ (hview : SameView blocked a b) (live : Bool)
    (h : SamePlace a.inputUnknown p q) :
    Follows blocked (SameReach a.inputUnknown) (Program.primary a (fuel + 1) live p)
      (Program.primary b (fuel + 1) live q) := by
  obtain @⟨ts, i, j, hinput⟩ := h
  simp only [Program.primary]
  split
  · exact Follows.fault _
  · exact Follows.bind_same fun v => Follows.value ⟨rfl, _, hinput⟩
  · exact Follows.value ⟨rfl, _, hinput⟩
  · split
    · exact Follows.value ⟨rfl, _, hinput⟩
    · exact Follows.fault _
  · refine (ih.choice live _ _ ⟨_, hinput⟩).bind ?_
    rintro ⟨v, p⟩ ⟨_, q⟩ ⟨rfl, h⟩
    exact (h.expect blocked ")").bind fun p q h => Follows.value ⟨rfl, h⟩
  · exact Follows.fault _
  · exact Follows.value ⟨rfl, _, hinput⟩
  · exact Follows.value ⟨rfl, _, hinput⟩
  · exact Follows.value ⟨rfl, _, hinput⟩
  · next s rest _ _ _ =>
    -- a name is a variable, or a class whose member follows behind a dot
    have h : SamePlace a.inputUnknown { tokens := rest, input := i } { tokens := rest, input := j } :=
      ⟨rest, hinput⟩
    have hread : Follows blocked (SameReach a.inputUnknown)
        (whenLive live (a.read s) >>= fun v => pure (v, { tokens := rest, input := i }))
        (whenLive live (b.read s) >>= fun v => pure (v, { tokens := rest, input := j })) :=
      whenLive_bind (hview.read s) fun v => Follows.value ⟨rfl, h⟩
    have haccept := h.accept? "."
    have hsees := h.sees "("
    generalize ({ tokens := rest, input := i } : Point).accept? "." = x,
      ({ tokens := rest, input := j } : Point).accept? "." = y at haccept
    cases haccept with
    | none =>
      dsimp only
      rw [hsees]
      split
      · exact Follows.fault _
      · exact hread
    | @some p q h' =>
      dsimp only
      split
      · refine (h'.takeName blocked).bind ?_
        rintro ⟨member, p⟩ ⟨_, q⟩ ⟨rfl, h⟩
        have haccept := h.accept? "("
        dsimp only
        generalize p.accept? "(" = x, q.accept? "(" = y at haccept
        cases haccept with
        | none =>
          dsimp only
          cases staticField? s member with
          | none => exact Follows.fault _
          | some v => exact Follows.value ⟨rfl, h⟩
        | some h =>
          refine (ih.arguments live _ _ h).bind ?_
          rintro ⟨args, p⟩ ⟨_, q⟩ ⟨rfl, h⟩
          exact Follows.bind_same fun v => Follows.value ⟨rfl, h⟩
      · exact hread

end Levels

/-- Machines with the same view are evaluated side by side, by induction on the fuel. -/
theorem of_sameView (hview : SameView blocked a b) (fuel : Nat) : SideBySide blocked a b fuel := by
  induction fuel with
  | zero =>
    constructor <;> intros <;> exact Follows.fault _
  | succ fuel ih =>
    exact
      { choice := fun live _ _ h => ih.choice_succ live h
        disjunction := fun live _ _ h => ih.disjunction_succ live h
        disjunctionRest := fun live v _ _ h => ih.disjunctionRest_succ live v h
        conjunction := fun live _ _ h => ih.conjunction_succ live h
        conjunctionRest := fun live v _ _ h => ih.conjunctionRest_succ live v h
        chain := fun level live _ _ h => ih.chain_succ level live h
        operand := fun level live _ _ h => ih.operand_succ level live h
        chainRest := fun level live v _ _ h => ih.chainRest_succ level live v h
        unary := fun live _ _ h => ih.unary_succ live h
        methodCalls := fun live v _ _ h => ih.methodCalls_succ hview live v h
        arguments := fun live _ _ h => ih.arguments_succ live h
        argumentsRest := fun live _ _ h => ih.argumentsRest_succ live h
        primary := fun live _ _ h => ih.primary_succ hview live h }

end SideBySide

/-! ### Whole expressions -/

section Whole

variable {blocked : Fault → Prop} {a b : Machine}

theorem valuesFrom_follows (hview : SameView blocked a b) (fuel rounds : Nat) {p q : Point}
    (h : SamePlace a.inputUnknown p q) :
    Follows blocked (SameRead a.inputUnknown) (valuesFrom a fuel rounds p)
      (valuesFrom b fuel rounds q) := by
  induction rounds generalizing p q with
  | zero => exact Follows.fault _
  | succ rounds ih =>
    simp only [valuesFrom]
    refine ((SideBySide.of_sameView hview fuel).choice true p q h).bind ?_
    rintro ⟨v, p⟩ ⟨_, q⟩ ⟨rfl, h⟩
    have haccept := h.accept? ","
    dsimp only
    generalize p.accept? "," = x, q.accept? "," = y at haccept
    cases haccept with
    | some h =>
      refine (ih h).bind ?_
      rintro ⟨rest, i⟩ ⟨_, j⟩ ⟨rfl, hinput⟩
      exact Follows.value ⟨rfl, hinput⟩
    | none =>
      obtain ⟨ts, hinput⟩ := h
      dsimp only
      split
      · exact Follows.value ⟨rfl, hinput⟩
      · exact Follows.fault _

/-- One expression, evaluated on two machines with the same view. -/
theorem evaluate_follows (hview : SameView blocked a b)
    (hinput : SameInput a.inputUnknown a.input b.input) (text : List Char) :
    Follows blocked (SameRead a.inputUnknown) (evaluate a text) (evaluate b text) := by
  refine Follows.bind_same fun ts => ?_
  refine ((SideBySide.of_sameView hview _).choice true _ _ ⟨ts, hinput⟩).bind ?_
  rintro ⟨v, p⟩ ⟨_, q⟩ ⟨rfl, ⟨rest, hinput⟩⟩
  dsimp only
  split
  · exact Follows.value ⟨rfl, hinput⟩
  · exact Follows.fault _

/-- Several expressions, evaluated on two machines with the same view. -/
theorem evaluateAll_follows (hview : SameView blocked a b)
    (hinput : SameInput a.inputUnknown a.input b.input) (text : List Char) :
    Follows blocked (SameRead a.inputUnknown) (evaluateAll a text) (evaluateAll b text) := by
  refine Follows.bind_same fun ts => ?_
  split
  · exact Follows.value ⟨rfl, hinput⟩
  · exact valuesFrom_follows hview _ _ ⟨ts, hinput⟩

end Whole

end Coach.Program
