import Coach.Program.Expression

/-!
# The tokens of an expression that has a value

An expression that can be evaluated is made of operands, and behind a slash there is one.  So no two
tokens of it would open a comment, and it does not begin as a comparison would end.

## Main definitions

* `Ensures`: what holds of the answer of a computation, if it answers
* `OpensOperand`: a token that may begin an operand
* `SlashesClosed`: tokens in which an operand follows every slash
* `Took`: the tokens that lie between two points
* `Wellformed`: what every level takes, with some fuel

## Main statements

* `tokens_of_evaluate`: the tokens of an expression that has a value

## Design notes

Evaluation goes along while the tokens are read, so this is no property of a grammar: it is shown of
the evaluator itself, by induction on its fuel, and it holds whether or not the operand counts.
-/

namespace Coach.Program

/-! ### Answers -/

/-- What a computation answers, if it answers, has a property. -/
def Ensures {α : Type} (P : α → Prop) (x : Except Fault α) : Prop := ∀ a, x = .ok a → P a

namespace Ensures

variable {α β : Type} {P : α → Prop} {Q : β → Prop}

theorem error (why : Fault) : Ensures P (.error why) := nofun

theorem ok {a : α} (h : P a) : Ensures P (.ok a) := fun _ heq => Except.ok.inj heq ▸ h

theorem bind {x : Except Fault α} {f : α → Except Fault β} (h : Ensures P x)
    (hf : ∀ a, P a → Ensures Q (f a)) : Ensures Q (x >>= f) := by
  cases x with
  | error why => exact error why
  | ok a => exact hf a (h a rfl)

/-- Nothing need be known of what the computation answers. -/
theorem bind_any {x : Except Fault α} {f : α → Except Fault β} (hf : ∀ a, Ensures Q (f a)) :
    Ensures Q (x >>= f) :=
  bind (fun _ _ => trivial : Ensures (fun _ => True) x) fun a _ => hf a

theorem map {x : Except Fault α} {f : α → β} (h : Ensures P x) (hf : ∀ a, P a → Q (f a)) :
    Ensures Q (x.map f) := by
  cases x with
  | error why => exact error why
  | ok a => exact ok (hf a (h a rfl))

theorem map_any {x : Except Fault α} {f : α → β} (hf : ∀ a, Q (f a)) : Ensures Q (x.map f) :=
  map (fun _ _ => trivial : Ensures (fun _ => True) x) fun a _ => hf a

end Ensures

/-! ### Tokens -/

/-- A token that may begin an operand. -/
def OpensOperand (t : Token) : Prop := t ≠ .op "/" ∧ t ≠ .op "*" ∧ t ≠ .op "=="

instance : DecidablePred OpensOperand := fun t =>
  inferInstanceAs (Decidable (t ≠ .op "/" ∧ t ≠ .op "*" ∧ t ≠ .op "=="))

/-- Behind every slash an operand begins. -/
def SlashesClosed : List Token → Prop
  | [] => True
  | t :: rest =>
    (t = .op "/" → ∃ next more, rest = next :: more ∧ OpensOperand next) ∧ SlashesClosed rest

/-- Tokens that begin as an operand, with an operand behind every slash. -/
def OperandShape (used : List Token) : Prop :=
  (∃ t rest, used = t :: rest ∧ OpensOperand t) ∧ SlashesClosed used

theorem SlashesClosed.append {first second : List Token} (h₁ : SlashesClosed first)
    (h₂ : SlashesClosed second) : SlashesClosed (first ++ second) := by
  induction first with
  | nil => exact h₂
  | cons t rest ih =>
    refine ⟨fun hslash => ?_, ih h₁.2⟩
    obtain ⟨next, more, rfl, hopens⟩ := h₁.1 hslash
    exact ⟨next, more ++ second, rfl, hopens⟩

/-- The tokens before one point and after another have a shape. -/
def Took (shape : List Token → Prop) (p q : Point) : Prop :=
  ∃ used, p.tokens = used ++ q.tokens ∧ shape used

namespace Took

variable {p q r : Point}

theorem refl (p : Point) : Took SlashesClosed p p := ⟨[], rfl, trivial⟩

theorem trans (h₁ : Took SlashesClosed p q) (h₂ : Took SlashesClosed q r) :
    Took SlashesClosed p r := by
  obtain ⟨first, hfirst, hclosed₁⟩ := h₁
  obtain ⟨second, hsecond, hclosed₂⟩ := h₂
  exact ⟨first ++ second, by rw [hfirst, hsecond, List.append_assoc], hclosed₁.append hclosed₂⟩

/-- What follows an operand belongs to the operand. -/
theorem operand_trans (h₁ : Took OperandShape p q) (h₂ : Took SlashesClosed q r) :
    Took OperandShape p r := by
  obtain ⟨first, hfirst, ⟨t, rest, rfl, hopens⟩, hclosed₁⟩ := h₁
  obtain ⟨second, hsecond, hclosed₂⟩ := h₂
  refine ⟨t :: rest ++ second, by rw [hfirst, hsecond, List.append_assoc],
    ⟨t, rest ++ second, rfl, hopens⟩,
    hclosed₁.append hclosed₂⟩

theorem of_operand (h : Took OperandShape p q) : Took SlashesClosed p q := by
  obtain ⟨used, hused, -, hclosed⟩ := h
  exact ⟨used, hused, hclosed⟩

/-- Any operator in front of an operand. -/
theorem operator {t : Token} {rest : List Token} (hp : p.tokens = t :: rest)
    (h : Took OperandShape { p with tokens := rest } q) : Took SlashesClosed p q := by
  obtain ⟨used, hused, ⟨next, more, rfl, hopens⟩, hclosed⟩ := h
  refine ⟨t :: next :: more, ?_, fun _ => ⟨next, more, rfl, hopens⟩, hclosed⟩
  rw [hp]
  exact congrArg (t :: ·) hused

/-- A token that may begin an operand, and what follows it. -/
theorem opening {t : Token} {rest : List Token} (hp : p.tokens = t :: rest) (hopens : OpensOperand t)
    (h : Took SlashesClosed { p with tokens := rest } q) : Took OperandShape p q := by
  obtain ⟨used, hused, hclosed⟩ := h
  refine ⟨t :: used, ?_, ⟨t, used, rfl, hopens⟩, fun hslash => absurd hslash hopens.1, hclosed⟩
  rw [hp]
  exact congrArg (t :: ·) hused

/-- A token that is no slash. -/
theorem token {t : Token} {rest : List Token} (hp : p.tokens = t :: rest) (hslash : t ≠ .op "/") :
    Took SlashesClosed p { p with tokens := rest } :=
  ⟨[t], hp, fun heq => absurd heq hslash, trivial⟩

end Took

namespace Point

theorem took_of_accept? {p q : Point} {symbol : String} (h : p.accept? symbol = some q)
    (hslash : symbol ≠ "/") : Took SlashesClosed p q := by
  unfold accept? at h
  split at h
  · next s rest hp =>
    split at h
    · next hs =>
      obtain rfl := Option.some.inj h
      refine Took.token hp fun heq => hslash ?_
      rw [← hs]
      exact Token.op.inj heq
    · cases h
  · cases h

theorem ensures_expect (p : Point) {symbol : String} (hslash : symbol ≠ "/") :
    Ensures (Took SlashesClosed p) (p.expect symbol) := by
  unfold expect
  cases h : p.accept? symbol with
  | none => exact Ensures.error _
  | some q => exact Ensures.ok (took_of_accept? h hslash)

theorem ensures_takeName (p : Point) :
    Ensures (fun r => Took SlashesClosed p r.2) p.takeName := by
  unfold takeName
  split
  · next s rest hp => exact Ensures.ok (Took.token hp (by simp))
  · exact Ensures.error _

end Point

/-! ### The levels -/

/-- What the levels take, with some fuel. -/
structure Wellformed (m : Machine) (fuel : Nat) : Prop where
  choice : ∀ live p, Ensures (fun r => Took OperandShape p r.2) (choice m fuel live p)
  disjunction : ∀ live p, Ensures (fun r => Took OperandShape p r.2) (disjunction m fuel live p)
  disjunctionRest : ∀ live v p,
    Ensures (fun r => Took SlashesClosed p r.2) (disjunctionRest m fuel live v p)
  conjunction : ∀ live p, Ensures (fun r => Took OperandShape p r.2) (conjunction m fuel live p)
  conjunctionRest : ∀ live v p,
    Ensures (fun r => Took SlashesClosed p r.2) (conjunctionRest m fuel live v p)
  chain : ∀ level live p, Ensures (fun r => Took OperandShape p r.2) (chain m fuel level live p)
  operand : ∀ level live p, Ensures (fun r => Took OperandShape p r.2) (operand m fuel level live p)
  chainRest : ∀ level live v p,
    Ensures (fun r => Took SlashesClosed p r.2) (chainRest m fuel level live v p)
  unary : ∀ live p, Ensures (fun r => Took OperandShape p r.2) (unary m fuel live p)
  methodCalls : ∀ live v p,
    Ensures (fun r => Took SlashesClosed p r.2) (methodCalls m fuel live v p)
  arguments : ∀ live p, Ensures (fun r => Took SlashesClosed p r.2) (arguments m fuel live p)
  argumentsRest : ∀ live p,
    Ensures (fun r => Took SlashesClosed p r.2) (argumentsRest m fuel live p)
  primary : ∀ live p, Ensures (fun r => Took OperandShape p r.2) (primary m fuel live p)

namespace Wellformed

/-- The truth of an operand, where it counts. -/
theorem truth_bind {α : Type} {P : α → Prop} {live : Bool} {x : Except Fault Bool}
    {f : Bool → Except Fault α} (hf : ∀ t, Ensures P (f t)) :
    Ensures P (if live then x >>= f else pure false >>= f) := by
  split
  · exact Ensures.bind_any hf
  · exact hf false

section Levels

variable {m : Machine} {fuel : Nat} (ih : Wellformed m fuel)

include ih

theorem choice_succ (live : Bool) (p : Point) :
    Ensures (fun r => Took OperandShape p r.2) (Program.choice m (fuel + 1) live p) := by
  simp only [Program.choice]
  refine (ih.disjunction live p).bind ?_
  rintro ⟨condition, q⟩ htook
  dsimp only at htook ⊢
  cases haccept : q.accept? "?" with
  | none => exact Ensures.ok htook
  | some q' =>
    refine truth_bind fun take => (ih.choice take q').bind ?_
    rintro ⟨first, r⟩ hfirst
    refine (Point.ensures_expect r (by decide)).bind fun r' hcolon => ?_
    refine (ih.choice _ r').bind ?_
    rintro ⟨second, s⟩ hsecond
    refine Ensures.ok (htook.operand_trans ?_)
    exact (Point.took_of_accept? haccept (by decide)).trans
      (hfirst.of_operand.trans (hcolon.trans hsecond.of_operand))

theorem disjunction_succ (live : Bool) (p : Point) :
    Ensures (fun r => Took OperandShape p r.2) (Program.disjunction m (fuel + 1) live p) := by
  simp only [Program.disjunction]
  refine (ih.conjunction live p).bind ?_
  rintro ⟨left, q⟩ hleft
  exact fun r hr => hleft.operand_trans (ih.disjunctionRest live left q r hr)

theorem disjunctionRest_succ (live : Bool) (left : Value) (p : Point) :
    Ensures (fun r => Took SlashesClosed p r.2)
      (Program.disjunctionRest m (fuel + 1) live left p) := by
  simp only [Program.disjunctionRest]
  cases haccept : p.accept? "||" with
  | none => exact Ensures.ok (Took.refl p)
  | some q =>
    have hor := Point.took_of_accept? haccept (by decide)
    refine truth_bind fun done => (ih.conjunction _ q).bind ?_
    rintro ⟨right, q'⟩ hright
    have hrest : ∀ v, Ensures (fun r => Took SlashesClosed p r.2)
        (Program.disjunctionRest m fuel live v q') := fun v r hr =>
      hor.trans (hright.of_operand.trans (ih.disjunctionRest live v q' r hr))
    dsimp only
    split
    · exact hrest left
    · split
      · exact hrest (.bool true)
      · exact Ensures.bind_any hrest

theorem conjunction_succ (live : Bool) (p : Point) :
    Ensures (fun r => Took OperandShape p r.2) (Program.conjunction m (fuel + 1) live p) := by
  simp only [Program.conjunction]
  refine (ih.chain .equality live p).bind ?_
  rintro ⟨left, q⟩ hleft
  exact fun r hr => hleft.operand_trans (ih.conjunctionRest live left q r hr)

theorem conjunctionRest_succ (live : Bool) (left : Value) (p : Point) :
    Ensures (fun r => Took SlashesClosed p r.2)
      (Program.conjunctionRest m (fuel + 1) live left p) := by
  simp only [Program.conjunctionRest]
  cases haccept : p.accept? "&&" with
  | none => exact Ensures.ok (Took.refl p)
  | some q =>
    have hand := Point.took_of_accept? haccept (by decide)
    refine truth_bind fun done => (ih.chain .equality _ q).bind ?_
    rintro ⟨right, q'⟩ hright
    have hrest : ∀ v, Ensures (fun r => Took SlashesClosed p r.2)
        (Program.conjunctionRest m fuel live v q') := fun v r hr =>
      hand.trans (hright.of_operand.trans (ih.conjunctionRest live v q' r hr))
    dsimp only
    split
    · exact hrest left
    · split
      · exact hrest (.bool false)
      · exact Ensures.bind_any hrest

theorem chain_succ (level : Level) (live : Bool) (p : Point) :
    Ensures (fun r => Took OperandShape p r.2) (Program.chain m (fuel + 1) level live p) := by
  simp only [Program.chain]
  refine (ih.operand level live p).bind ?_
  rintro ⟨left, q⟩ hleft
  exact fun r hr => hleft.operand_trans (ih.chainRest level live left q r hr)

theorem operand_succ (level : Level) (live : Bool) (p : Point) :
    Ensures (fun r => Took OperandShape p r.2) (Program.operand m (fuel + 1) level live p) := by
  simp only [Program.operand]
  split
  · exact ih.chain _ live p
  · exact ih.unary live p

/-- Here the slashes are: an operator of a level, with its operand behind it. -/
theorem chainRest_succ (level : Level) (live : Bool) (left : Value) (p : Point) :
    Ensures (fun r => Took SlashesClosed p r.2)
      (Program.chainRest m (fuel + 1) level live left p) := by
  simp only [Program.chainRest]
  cases hnext : level.next? p with
  | none => exact Ensures.ok (Took.refl p)
  | some next =>
    obtain ⟨op, q⟩ := next
    have hoperator : ∀ r, Took OperandShape q r → Took SlashesClosed p r := by
      intro r hoperand
      unfold Level.next? at hnext
      split at hnext
      · next s rest hp =>
        obtain ⟨_, -, heq⟩ := Option.map_eq_some_iff.mp hnext
        obtain ⟨-, rfl⟩ := Prod.mk.inj heq
        exact Took.operator hp hoperand
      · cases hnext
    dsimp only
    refine (ih.operand level live q).bind ?_
    rintro ⟨right, q'⟩ hright
    have hrest : ∀ v, Ensures (fun r => Took SlashesClosed p r.2)
        (Program.chainRest m fuel level live v q') := fun v r hr =>
      (hoperator q' hright).trans (ih.chainRest level live v q' r hr)
    dsimp only
    split
    · exact Ensures.bind_any hrest
    · exact hrest left

theorem unary_succ (live : Bool) (p : Point) :
    Ensures (fun r => Took OperandShape p r.2) (Program.unary m (fuel + 1) live p) := by
  -- a sign in front of its operand
  have hsign : ∀ {t rest} (f : Value → Except Fault Value), p.tokens = t :: rest → OpensOperand t →
      Ensures (fun r => Took OperandShape p r.2)
        (Program.unary m fuel live { p with tokens := rest } >>= fun x =>
          whenLive live (f x.1) >>= fun v => pure (v, x.2)) := by
    intro t rest f hp hopens
    refine (ih.unary live _).bind ?_
    rintro ⟨v, q⟩ hoperand
    exact Ensures.bind_any fun v => Ensures.ok (Took.opening hp hopens hoperand.of_operand)
  simp only [Program.unary]
  split
  · next rest hp => exact hsign (fun v => v.negate) hp (by decide)
  · next rest hp => exact hsign (fun v => v.plus) hp (by decide)
  · next rest hp => exact hsign (fun v => v.truth.map fun b => .bool !b) hp (by decide)
  · exact Ensures.error _
  · exact Ensures.error _
  · cases hcast : takeCast? p with
    | none =>
      refine (ih.primary live p).bind ?_
      rintro ⟨v, q⟩ hprimary
      exact fun r hr => hprimary.operand_trans (ih.methodCalls live v q r hr)
    | some cast =>
      obtain ⟨kind, q⟩ := cast
      unfold takeCast? at hcast
      split at hcast
      · next s rest hp =>
        obtain ⟨_, -, heq⟩ := Option.map_eq_some_iff.mp hcast
        obtain ⟨-, rfl⟩ := Prod.mk.inj heq
        refine (ih.unary live _).bind ?_
        rintro ⟨v, q⟩ hoperand
        refine Ensures.bind_any fun v => Ensures.ok (Took.opening hp (by decide) ?_)
        have hname : Took SlashesClosed { p with tokens := .name s :: .op ")" :: rest }
            { p with tokens := .op ")" :: rest } := Took.token rfl (by simp)
        have hclosing : Took SlashesClosed { p with tokens := .op ")" :: rest }
            { p with tokens := rest } := Took.token rfl (by decide)
        exact hname.trans (hclosing.trans hoperand.of_operand)
      · cases hcast

theorem methodCalls_succ (live : Bool) (v : Value) (p : Point) :
    Ensures (fun r => Took SlashesClosed p r.2) (Program.methodCalls m (fuel + 1) live v p) := by
  simp only [Program.methodCalls]
  split
  · next rest hp =>
    have hdot := Took.token hp (by decide)
    refine (Point.ensures_takeName _).bind ?_
    rintro ⟨name, q⟩ hname
    refine (Point.ensures_expect q (by decide)).bind fun q hopening => ?_
    refine (ih.arguments live q).bind ?_
    rintro ⟨args, q'⟩ hargs
    have htook := hdot.trans (hname.trans (hopening.trans hargs))
    dsimp only
    split
    · refine Ensures.bind_any ?_
      rintro ⟨v, i⟩ r hr
      have hrest : Took SlashesClosed q' r.2 := ih.methodCalls live v { q' with input := i } r hr
      exact htook.trans hrest
    · exact fun r hr => htook.trans (ih.methodCalls live v q' r hr)
  · exact Ensures.error _
  · exact Ensures.error _
  · exact Ensures.error _
  · exact Ensures.ok (Took.refl p)

theorem arguments_succ (live : Bool) (p : Point) :
    Ensures (fun r => Took SlashesClosed p r.2) (Program.arguments m (fuel + 1) live p) := by
  simp only [Program.arguments]
  cases haccept : p.accept? ")" with
  | some q => exact Ensures.ok (Point.took_of_accept? haccept (by decide))
  | none =>
    refine (ih.choice live p).bind ?_
    rintro ⟨v, q⟩ hfirst
    refine (ih.argumentsRest live q).bind ?_
    rintro ⟨rest, q'⟩ hrest
    exact Ensures.ok (hfirst.of_operand.trans hrest)

theorem argumentsRest_succ (live : Bool) (p : Point) :
    Ensures (fun r => Took SlashesClosed p r.2) (Program.argumentsRest m (fuel + 1) live p) := by
  simp only [Program.argumentsRest]
  cases haccept : p.accept? "," with
  | none =>
    exact (Point.ensures_expect p (by decide)).bind fun q hclosing => Ensures.ok hclosing
  | some q =>
    have hcomma := Point.took_of_accept? haccept (by decide)
    refine (ih.choice live q).bind ?_
    rintro ⟨v, q'⟩ hnext
    refine (ih.argumentsRest live q').bind ?_
    rintro ⟨rest, q''⟩ hrest
    exact Ensures.ok (hcomma.trans (hnext.of_operand.trans hrest))

theorem primary_succ (live : Bool) (p : Point) :
    Ensures (fun r => Took OperandShape p r.2) (Program.primary m (fuel + 1) live p) := by
  -- a single token
  have hone : ∀ {t rest}, p.tokens = t :: rest → OpensOperand t →
      Took OperandShape p { p with tokens := rest } :=
    fun hp hopens => Took.opening hp hopens (Took.refl _)
  simp only [Program.primary]
  split
  · exact Ensures.error _
  · next hp => exact Ensures.bind_any fun v => Ensures.ok (hone hp (by simp [OpensOperand]))
  · next hp => exact Ensures.ok (hone hp (by simp [OpensOperand]))
  · next hp =>
    split
    · exact Ensures.ok (hone hp (by simp [OpensOperand]))
    · exact Ensures.error _
  · next rest hp =>
    refine (ih.choice live _).bind ?_
    rintro ⟨v, q⟩ hinside
    refine (Point.ensures_expect q (by decide)).bind fun q hclosing => Ensures.ok ?_
    exact Took.opening hp (by decide) (hinside.of_operand.trans hclosing)
  · exact Ensures.error _
  · next hp => exact Ensures.ok (hone hp (by simp [OpensOperand]))
  · next hp => exact Ensures.ok (hone hp (by simp [OpensOperand]))
  · next hp => exact Ensures.ok (hone hp (by simp [OpensOperand]))
  · next s rest _ _ _ hp =>
    have hopens : OpensOperand (.name s) := by simp [OpensOperand]
    have hread : Ensures (fun r => Took OperandShape p r.2)
        (whenLive live (m.read s) >>= fun v => pure (v, { p with tokens := rest })) :=
      Ensures.bind_any fun v => Ensures.ok (hone hp hopens)
    cases haccept : ({ p with tokens := rest } : Point).accept? "." with
    | none =>
      dsimp only
      split
      · exact Ensures.error _
      · exact hread
    | some q =>
      have hdot := Point.took_of_accept? haccept (by decide)
      dsimp only
      split
      · refine (Point.ensures_takeName q).bind ?_
        rintro ⟨member, q'⟩ hmember
        have hpath := hdot.trans hmember
        dsimp only
        cases hcall : q'.accept? "(" with
        | none =>
          dsimp only
          split
          · exact Ensures.ok (Took.opening hp hopens hpath)
          · exact Ensures.error _
        | some q'' =>
          have hopening := Point.took_of_accept? hcall (by decide)
          refine (ih.arguments live q'').bind ?_
          rintro ⟨args, r⟩ hargs
          refine Ensures.bind_any fun v => Ensures.ok (Took.opening hp hopens ?_)
          exact hpath.trans (hopening.trans hargs)
      · exact hread

end Levels

/-- Every level takes what it should, by induction on the fuel. -/
theorem all (m : Machine) (fuel : Nat) : Wellformed m fuel := by
  induction fuel with
  | zero =>
    constructor <;> intros <;> exact Ensures.error _
  | succ fuel ih =>
    exact
      { choice := ih.choice_succ
        disjunction := ih.disjunction_succ
        disjunctionRest := ih.disjunctionRest_succ
        conjunction := ih.conjunction_succ
        conjunctionRest := ih.conjunctionRest_succ
        chain := ih.chain_succ
        operand := ih.operand_succ
        chainRest := ih.chainRest_succ
        unary := ih.unary_succ
        methodCalls := ih.methodCalls_succ
        arguments := ih.arguments_succ
        argumentsRest := ih.argumentsRest_succ
        primary := ih.primary_succ }

end Wellformed

/-- The tokens of an expression that has a value begin as an operand, and an operand follows every
slash among them. -/
theorem tokens_of_evaluate {m : Machine} {text : List Char} {r : Value × Input}
    (h : evaluate m text = .ok r) : ∃ ts, tokens text = .ok ts ∧ OperandShape ts := by
  unfold evaluate at h
  cases hts : tokens text with
  | error why =>
    rw [hts] at h
    cases h
  | ok ts =>
    refine ⟨ts, rfl, ?_⟩
    rw [hts] at h
    simp only [bind, Except.bind] at h
    cases hchoice : choice m (fuelFor ts) true { tokens := ts, input := m.input } with
    | error why =>
      rw [hchoice] at h
      cases h
    | ok reached =>
      rw [hchoice] at h
      obtain ⟨v, p⟩ := reached
      obtain ⟨used, hused, hshape⟩ := (Wellformed.all m _).choice true _ _ hchoice
      dsimp only at h hused
      split at h
      · next hend =>
        rw [List.isEmpty_iff.mp hend, List.append_nil] at hused
        exact hused ▸ hshape
      · cases h

end Coach.Program
