import Coach.Proofs.Program.Spelling

/-!
# Trees read back

An expression is evaluated while it is read.  Here the tokens of a tree are read level by level, and what
comes of them is the value of the tree.

## Main definitions

* `Expression.valueWhen`: what reading a tree comes to, whether the tree counts or not
* `Reads`: a level reads some tokens as a value, up to what may follow them
* `Opens`: operands between connectives of a level are read, and the level goes on behind them
* `Readable`: tokens are read at every level, with parentheses where they are needed

## Main statements

* `Expression.readable`: every level reads a tree that is printed for it
* `Expression.evaluate_text`: the text of a tree comes to the value of the tree

## Design notes

A chain of operands groups to the left, so its tokens are those of a shorter chain with an operand
behind, and a level that has read the shorter chain is in the middle of its work.  That is why `Opens`
goes before `Reads`.

Whether a tree counts is known when it is read, so a value is a function of that.  What is read of a tree
that does not count is nobody's concern, but it is a value and not a fault.

Calls are counted by a multiple of the tokens, as the fuel is.
-/

namespace Coach.Program

variable {m : Machine}

/-! ### Operands that may not count -/

namespace Expression

/-- What is left of an expression that is read and does not count. -/
def idle : Expression → Value
  | .integer n => .int n.number
  | .boolean b => .bool b
  | .string s => .str (unescape s.body)
  | .char c => .char [c.code]
  | .name _ | .sign .. | .cast .. | .choose .. => .null
  | .group e => e.idle
  | .join _ left _ => left.idle

/-- What reading an expression comes to, whether it counts or not. -/
def valueWhen (m : Machine) (e : Expression) (live : Bool) : Except Fault Value :=
  if live then e.value m else .ok e.idle

end Expression

namespace Connective

/-- Whether the right operand of a connective counts, behind a left one. -/
def counts : Connective → Bool → Value → Except Fault Bool
  | .or, live, left => do
    let done ← if live then left.truth else pure false
    return live && !done
  | .and, live, left => do
    let done ← if live then left.truth.map (!·) else pure false
    return live && !done
  | .op _, live, _ => return live

/-- What a connective makes of its operands, the right one of which may not count. -/
def combine : Connective → Bool → Bool → Value → Value → Except Fault Value
  | .or, live, counts, left, right =>
    if !live then pure left else if counts then right.truth.map .bool else pure (.bool true)
  | .and, live, counts, left, right =>
    if !live then pure left else if counts then right.truth.map .bool else pure (.bool false)
  | .op o, live, _, left, right => if live then Value.binary o left right else pure left

end Connective

namespace Expression

theorem valueWhen_join (c : Connective) (left right : Expression) (live : Bool) :
    (join c left right).valueWhen m live = (do
      let x ← left.valueWhen m live
      let counts ← c.counts live x
      let y ← right.valueWhen m counts
      c.combine live counts x y) := by
  cases live with
  | false => cases c <;> rfl
  | true =>
    simp only [valueWhen, if_true]
    cases c with
    | op o => rfl
    | or =>
      simp only [value, Connective.counts, Connective.combine]
      refine bind_congr fun x => ?_
      cases x.truth with
      | error why => rfl
      | ok b => cases b <;> rfl
    | and =>
      simp only [value, Connective.counts, Connective.combine]
      refine bind_congr fun x => ?_
      cases x.truth with
      | error why => rfl
      | ok b => cases b <;> rfl

theorem valueWhen_choose (condition first second : Expression) (live : Bool) :
    (choose condition first second).valueWhen m live = (do
      let x ← condition.valueWhen m live
      let take ← if live then x.truth else pure false
      let y ← first.valueWhen m take
      let z ← second.valueWhen m (live && !take)
      return if !live then .null else if take then y else z) := by
  cases live with
  | false => rfl
  | true =>
    simp only [valueWhen, if_true, value]
    refine bind_congr fun x => ?_
    cases x.truth with
    | error why => rfl
    | ok b => cases b with
      | false =>
        show second.value m = (second.value m >>= fun z => pure z)
        rw [bind_pure]
      | true =>
        show first.value m = (first.value m >>= fun y => pure y)
        rw [bind_pure]

theorem valueWhen_sign (s : Sign) (e : Expression) (live : Bool) :
    (sign s e).valueWhen m live = (do
      let x ← e.valueWhen m live
      whenLive live (s.apply x)) := by
  cases live <;> rfl

theorem valueWhen_cast (type : CastType) (e : Expression) (live : Bool) :
    (cast type e).valueWhen m live = (do
      let x ← e.valueWhen m live
      whenLive live (Program.cast type.kind x)) := by
  cases live <;> rfl

end Expression

/-! ### Levels -/

/-- What reads an expression of a level. -/
def Rank.read (m : Machine) : Rank → Nat → Bool → Point → Reached
  | .choice => Program.choice m
  | .disjunction => Program.disjunction m
  | .conjunction => Program.conjunction m
  | .chain level => fun fuel => Program.chain m fuel level
  | .unary => Program.unary m
  | .primary => Program.primary m

/-- A bound for the calls before a level has come to a primary expression. -/
def Rank.calls : Rank → Nat
  | .choice => 14
  | .disjunction => 13
  | .conjunction => 12
  | .chain .equality => 11
  | .chain .relation => 9
  | .chain .sum => 7
  | .chain .product => 5
  | .unary => 3
  | .primary => 2

theorem Rank.two_le_calls (r : Rank) : 2 ≤ r.calls := by
  cases r with
  | chain level => cases level <;> decide
  | _ => decide

/-- Fuel for the calls of a level is fuel for a call. -/
theorem Rank.exists_succ {r : Rank} {tokens fuel : Nat} (h : tokens + r.calls ≤ fuel) :
    ∃ more, fuel = more + 1 :=
  Nat.exists_eq_add_one.mpr (Nat.lt_of_lt_of_le (Nat.lt_of_lt_of_le Nat.two_pos r.two_le_calls)
    (Nat.le_of_add_left_le h))

namespace Connective

/-- What reads the operands between connectives of a level. -/
def operand (m : Machine) : Connective → Nat → Bool → Point → Reached
  | .or => conjunction m
  | .and => fun fuel => chain m fuel .equality
  | .op o => fun fuel => Program.operand m fuel o.level

/-- What goes on behind operands that have been read. -/
def goOn (m : Machine) : Connective → Nat → Bool → Value → Point → Reached
  | .or => disjunctionRest m
  | .and => conjunctionRest m
  | .op o => fun fuel => chainRest m fuel o.level

theorem read_succ (c : Connective) (fuel : Nat) (live : Bool) (p : Point) :
    c.rank.read m (fuel + 1) live p = (do
      let (left, p) ← c.operand m fuel live p
      c.goOn m fuel live left p) := by
  cases c with
  | or => simp only [rank, Rank.read, disjunction]; rfl
  | and => simp only [rank, Rank.read, conjunction]; rfl
  | op o => simp only [rank, Rank.read, chain]; rfl

end Connective

theorem Value.Operator.operator?_symbol (o : Value.Operator) : o.level.operator? o.symbol = some o := by
  cases o <;> rfl

/-- A level goes on at one of its connectives. -/
theorem Connective.goOn_connective {c c' : Connective} (h : c'.rank = c.rank) (fuel : Nat) (live : Bool)
    (left : Value) (ts : List Token) (input : Input) :
    c.goOn m (fuel + 1) live left { tokens := .op c'.symbol :: ts, input } = (do
      let counts ← c'.counts live left
      let (right, p) ← c.operand m fuel counts { tokens := ts, input }
      let left ← c'.combine live counts left right
      c.goOn m fuel live left p) := by
  cases c with
  | or =>
    obtain rfl : c' = .or := by cases c' <;> first | rfl | cases h
    have hnext : ({ tokens := .op "||" :: ts, input } : Point).accept? "||" = some { tokens := ts, input } :=
      rfl
    simp only [goOn, symbol, disjunctionRest, hnext]
    cases live with
    | false => rfl
    | true =>
      simp only [counts, combine]
      cases left.truth with
      | error why => rfl
      | ok b => cases b <;> rfl
  | and =>
    obtain rfl : c' = .and := by cases c' <;> first | rfl | cases h
    have hnext : ({ tokens := .op "&&" :: ts, input } : Point).accept? "&&" = some { tokens := ts, input } :=
      rfl
    simp only [goOn, symbol, conjunctionRest, hnext]
    cases live with
    | false => rfl
    | true =>
      simp only [counts, combine]
      cases left.truth with
      | error why => rfl
      | ok b => cases b <;> rfl
  | op o =>
    cases c' with
    | or => cases h
    | and => cases h
    | op o' =>
      have hlevel : o'.level = o.level := Rank.chain.inj h
      have hnext : o.level.next? { tokens := .op o'.symbol :: ts, input } =
          some (o', { tokens := ts, input }) := by
        simp only [Level.next?, ← hlevel, o'.operator?_symbol]
        rfl
      simp only [goOn, symbol, chainRest, hnext]
      cases live <;> rfl

/-! ### What may follow -/

/-- The place of the level that goes on at a mark, and zero for the marks that close an expression. -/
def placeOf? (symbol : String) : Option Nat :=
  match symbol with
  | ")" | ":" => some 0
  | "?" => some Rank.choice.place
  | "||" => some Rank.disjunction.place
  | "&&" => some Rank.conjunction.place
  | "==" | "!=" => some (Rank.chain .equality).place
  | "<" | ">" | "<=" | ">=" => some (Rank.chain .relation).place
  | "+" | "-" => some (Rank.chain .sum).place
  | "*" | "/" | "%" => some (Rank.chain .product).place
  | _ => none

theorem Connective.placeOf?_symbol (c : Connective) : placeOf? c.symbol = some c.rank.place := by
  cases c with
  | op o => cases o <;> rfl
  | _ => rfl

theorem placeOf?_of_operator? {level : Level} {symbol : String} {o : Value.Operator}
    (h : level.operator? symbol = some o) : placeOf? symbol = some (Rank.chain level).place := by
  unfold Level.operator? at h
  split at h <;> first | rfl | cases h

/-- Behind an expression there is nothing, or a mark at which only levels looser than a place go on. -/
def Behind (place : Nat) (rest : List Token) : Prop :=
  ∀ t ∈ rest.head?, ∃ symbol found, t = .op symbol ∧ placeOf? symbol = some found ∧ found < place

namespace Behind

variable {place place' : Nat} {rest ts : List Token} {input : Input} {symbol : String}

theorem nil (place : Nat) : Behind place [] := fun _ h => nomatch h

theorem cons {found : Nat} (h : placeOf? symbol = some found) (hplace : found < place)
    (ts : List Token) : Behind place (.op symbol :: ts) := by
  intro t ht
  obtain rfl := Option.some.inj ht
  exact ⟨symbol, found, rfl, h, hplace⟩

theorem mono (h : Behind place rest) (hplace : place ≤ place') : Behind place' rest := by
  intro t ht
  obtain ⟨symbol, found, hsymbol, hfound, hlt⟩ := h t ht
  exact ⟨symbol, found, hsymbol, hfound, Nat.lt_of_lt_of_le hlt hplace⟩

theorem connective (c : Connective) (ts : List Token) :
    Behind (c.rank.place + 1) (.op c.symbol :: ts) :=
  cons c.placeOf?_symbol (Nat.lt_succ_self _) ts

/-- What a mark behind an expression is not. -/
theorem ne_op (h : Behind place (.op symbol :: ts)) {other : String}
    (hother : ∀ found ∈ placeOf? other, place ≤ found) : symbol ≠ other := by
  rintro rfl
  obtain ⟨symbol', found, heq, hfound, hlt⟩ := h _ rfl
  obtain rfl := Token.op.inj heq
  exact absurd hlt (Nat.not_lt.mpr (hother found hfound))

/-- Behind an expression stands a mark, if anything. -/
theorem eq_nil_or_op (h : Behind place rest) : rest = [] ∨ ∃ symbol ts, rest = .op symbol :: ts := by
  cases rest with
  | nil => exact Or.inl rfl
  | cons t ts =>
    obtain ⟨symbol, -, rfl, -⟩ := h t rfl
    exact Or.inr ⟨symbol, ts, rfl⟩

theorem accept?_eq_none (h : Behind place rest) (symbol : String)
    (hsymbol : ∀ found ∈ placeOf? symbol, place ≤ found) (input : Input) :
    ({ tokens := rest, input } : Point).accept? symbol = none := by
  obtain rfl | ⟨other, ts, rfl⟩ := h.eq_nil_or_op
  · rfl
  · simp only [Point.accept?, if_neg (h.ne_op hsymbol)]

theorem sees_eq_false (h : Behind place rest) (symbol : String)
    (hsymbol : ∀ found ∈ placeOf? symbol, place ≤ found) (input : Input) :
    ({ tokens := rest, input } : Point).sees symbol = false := by
  obtain rfl | ⟨other, ts, rfl⟩ := h.eq_nil_or_op
  · rfl
  · exact beq_false_of_ne (h.ne_op hsymbol)

theorem next?_eq_none {level : Level} (h : Behind (Rank.chain level).place rest) :
    level.next? { tokens := rest, input } = none := by
  obtain rfl | ⟨symbol, ts, rfl⟩ := h.eq_nil_or_op
  · rfl
  · cases ho : level.operator? symbol with
    | none => simp only [Level.next?, ho, Option.map_none]
    | some o =>
      have hfound : ∀ found ∈ placeOf? symbol, (Rank.chain level).place ≤ found := by
        rw [placeOf?_of_operator? ho]
        rintro found ⟨⟩
        exact Nat.le_refl _
      exact absurd rfl (h.ne_op hfound)

/-- A level stops before what goes on at a looser one. -/
theorem goOn_stops {c : Connective} (h : Behind c.rank.place rest) (fuel : Nat) (live : Bool)
    (left : Value) :
    c.goOn m (fuel + 1) live left { tokens := rest, input } = .ok (left, { tokens := rest, input }) := by
  cases c with
  | or => simp only [Connective.goOn, disjunctionRest, h.accept?_eq_none "||" (by decide)]
  | and => simp only [Connective.goOn, conjunctionRest, h.accept?_eq_none "&&" (by decide)]
  | op o => simp only [Connective.goOn, chainRest, h.next?_eq_none]

/-- Nothing of a call or of an access goes on behind an expression. -/
theorem methodCalls_stops (h : Behind place rest) (fuel : Nat) (live : Bool) (v : Value) :
    methodCalls m (fuel + 1) live v { tokens := rest, input } = .ok (v, { tokens := rest, input }) := by
  obtain rfl | ⟨symbol, ts, rfl⟩ := h.eq_nil_or_op
  · rfl
  · have hdot : symbol ≠ "." := h.ne_op nofun
    have hup : symbol ≠ "++" := h.ne_op nofun
    have hdown : symbol ≠ "--" := h.ne_op nofun
    have hopen : symbol ≠ "[" := h.ne_op nofun
    rw [methodCalls]
    split
    · next heq => exact absurd (Token.op.inj (List.cons.inj heq).1) hdot
    · next heq => exact absurd (Token.op.inj (List.cons.inj heq).1) hup
    · next heq => exact absurd (Token.op.inj (List.cons.inj heq).1) hdown
    · next heq => exact absurd (Token.op.inj (List.cons.inj heq).1) hopen
    · rfl

end Behind

/-! ### Reading -/

/-- A value, with the tokens that are left behind it. -/
def leaving (value : Except Fault Value) (rest : List Token) (input : Input) : Reached := do
  return (← value, { tokens := rest, input })

@[simp] theorem leaving_bind {α : Type} (value : Except Fault Value) (rest : List Token) (input : Input)
    (f : Value × Point → Except Fault α) :
    leaving value rest input >>= f = value >>= fun v => f (v, { tokens := rest, input }) := by
  simp only [leaving, bind_assoc, pure_bind]

/-- A level reads some tokens as a value, up to what may follow them. -/
def Reads (m : Machine) (r : Rank) (ts : List Token) (value : Bool → Except Fault Value) : Prop :=
  ∀ fuel live rest input, 16 * ts.length + r.calls ≤ fuel → Behind r.place rest →
    r.read m fuel live { tokens := ts ++ rest, input } = leaving (value live) rest input

/-- The level of a connective reads some tokens as operands, and goes on behind them. -/
def Opens (m : Machine) (c : Connective) (ts : List Token) (value : Bool → Except Fault Value) : Prop :=
  ∀ fuel live rest input, 16 * ts.length + c.rank.calls ≤ fuel → Behind (c.rank.place + 1) rest →
    ∃ left, fuel ≤ left + ts.length + 1 ∧
      c.rank.read m fuel live { tokens := ts ++ rest, input } =
        value live >>= fun v => c.goOn m left live v { tokens := rest, input }

section Reading

variable {c c' : Connective} {ts ts' : List Token} {value value' : Bool → Except Fault Value}

/-- An operand is what the next level reads. -/
theorem Reads.operand (h : Reads m c.rank.tighter ts value) {fuel : Nat} (live : Bool)
    {rest : List Token} (input : Input) (hfuel : 16 * ts.length + c.rank.calls ≤ fuel + 1)
    (hrest : Behind (c.rank.place + 1) rest) :
    c.operand m fuel live { tokens := ts ++ rest, input } = leaving (value live) rest input := by
  cases c with
  | or => exact h fuel live rest input (Nat.le_of_succ_le_succ hfuel) hrest
  | and => exact h fuel live rest input (Nat.le_of_succ_le_succ hfuel) hrest
  | op o =>
    simp only [Connective.rank, Connective.operand] at h hfuel hrest ⊢
    generalize o.level = level at h hfuel hrest ⊢
    cases fuel with
    | zero => cases level <;> simp only [Rank.calls] at hfuel <;> omega
    | succ fuel =>
      have hless : 16 * ts.length + (Rank.chain level).tighter.calls ≤ fuel := by
        cases level <;> exact Nat.le_of_succ_le_succ (Nat.le_of_succ_le_succ hfuel)
      have hread := h fuel live rest input hless (by cases level <;> exact hrest)
      cases level <;> exact hread

/-- One operand is a chain of operands. -/
theorem Reads.opens (h : Reads m c.rank.tighter ts value) : Opens m c ts value := by
  intro fuel live rest input hfuel hrest
  obtain ⟨fuel, rfl⟩ := Rank.exists_succ hfuel
  refine ⟨fuel, by omega, ?_⟩
  rw [c.read_succ, h.operand live input hfuel hrest, leaving_bind]

/-- A chain with an operand behind is a chain. -/
theorem Opens.join (h : Opens m c ts value) (hrank : c'.rank = c.rank)
    (h' : Reads m c.rank.tighter ts' value') :
    Opens m c (ts ++ .op c'.symbol :: ts') (fun live => do
      let x ← value live
      let counts ← c'.counts live x
      let y ← value' counts
      c'.combine live counts x y) := by
  intro fuel live rest input hfuel hrest
  simp only [List.length_append, List.length_cons] at hfuel
  have hbehind : Behind (c.rank.place + 1) (.op c'.symbol :: (ts' ++ rest)) :=
    hrank ▸ Behind.connective c' (ts' ++ rest)
  obtain ⟨left, hleft, hread⟩ := h fuel live _ input (by omega) hbehind
  obtain ⟨left, rfl⟩ : ∃ more, left = more + 1 := Nat.exists_eq_add_one.mpr (by omega)
  refine ⟨left, ?_, ?_⟩
  · simp only [List.length_append, List.length_cons]
    omega
  · have hfuel' : 16 * ts'.length + c.rank.calls ≤ left + 1 := by omega
    have hoperand := fun counts => h'.operand counts input hfuel' hrest
    simp only [List.append_assoc, List.cons_append]
    simp only [hread, Connective.goOn_connective hrank, hoperand, leaving_bind, bind_assoc]

/-- A chain of operands ends before what goes on at a looser level. -/
theorem Opens.reads (h : Opens m c ts value) : Reads m c.rank ts value := by
  intro fuel live rest input hfuel hrest
  obtain ⟨left, hleft, hread⟩ := h fuel live rest input hfuel (hrest.mono (Nat.le_succ _))
  have hcalls := c.rank.two_le_calls
  obtain ⟨left, rfl⟩ : ∃ more, left = more + 1 := Nat.exists_eq_add_one.mpr (by omega)
  rw [hread]
  simp only [hrest.goOn_stops]
  rfl

/-- What an operand of a level is, is an operand of the levels above it. -/
theorem Reads.loosen {r : Rank} (hr : r.place < Rank.unary.place) (h : Reads m r.tighter ts value) :
    Reads m r ts value := by
  cases r with
  | choice =>
    intro fuel live rest input hfuel hrest
    obtain ⟨fuel, rfl⟩ := Rank.exists_succ hfuel
    -- the condition is all there is: no question mark comes next
    have hread := h fuel live rest input (Nat.le_of_succ_le_succ hfuel) (hrest.mono (by decide))
    simp only [Rank.read, Rank.tighter] at hread ⊢
    rw [Program.choice, hread, leaving_bind]
    simp only [hrest.accept?_eq_none "?" (by decide)]
    rfl
  | disjunction => exact (Reads.opens (c := .or) h).reads
  | conjunction => exact (Reads.opens (c := .and) h).reads
  | chain level => cases level with
    | equality => exact (Reads.opens (c := .op .equal) h).reads
    | relation => exact (Reads.opens (c := .op .less) h).reads
    | sum => exact (Reads.opens (c := .op .add) h).reads
    | product => exact (Reads.opens (c := .op .mul) h).reads
  | unary => exact absurd hr (by decide)
  | primary => exact absurd hr (by decide)

/-- What a level down to that of signs reads, all the levels above it read. -/
theorem Reads.upTo {r r' : Rank} (h : Reads m r ts value) (hr : r.place ≤ Rank.unary.place)
    (hle : r'.place ≤ r.place) : Reads m r' ts value := by
  -- on the number of levels between the two
  obtain ⟨k, hk⟩ := Nat.exists_eq_add_of_le hle
  induction k generalizing r' with
  | zero => exact Rank.eq_of_place hk ▸ h
  | succ k ih =>
    have hne : r' ≠ .primary := by
      rintro rfl
      simp only [Rank.place] at hk hr
      omega
    have hplace := Rank.place_tighter hne
    exact (ih (by omega) (by omega)).loosen (by omega)

/-- The conditional operator takes any expressions between and behind its marks. -/
theorem Reads.choose {ts₁ ts₂ : List Token} {value₁ value₂ : Bool → Except Fault Value}
    (h : Reads m .disjunction ts value) (h₁ : Reads m .choice ts₁ value₁)
    (h₂ : Reads m .choice ts₂ value₂) :
    Reads m .choice (ts ++ .op "?" :: ts₁ ++ .op ":" :: ts₂) (fun live => do
      let x ← value live
      let take ← if live then x.truth else pure false
      let y ← value₁ take
      let z ← value₂ (live && !take)
      return if !live then .null else if take then y else z) := by
  intro fuel live rest input hfuel hrest
  obtain ⟨fuel, rfl⟩ := Rank.exists_succ hfuel
  simp only [List.length_append, List.length_cons, Rank.calls] at hfuel
  have hquestion : Behind Rank.disjunction.place (.op "?" :: (ts₁ ++ .op ":" :: (ts₂ ++ rest))) :=
    .cons rfl (by decide) _
  have hcolon : Behind Rank.choice.place (.op ":" :: (ts₂ ++ rest)) := .cons rfl (by decide) _
  have hcondition := h fuel live _ input (by simp only [Rank.calls]; omega) hquestion
  have hfirst := fun take => h₁ fuel take _ input (by simp only [Rank.calls]; omega) hcolon
  have hsecond := fun take => h₂ fuel take rest input (by simp only [Rank.calls]; omega) hrest
  simp only [Rank.read] at hcondition hfirst hsecond ⊢
  have hask : ({ tokens := .op "?" :: (ts₁ ++ .op ":" :: (ts₂ ++ rest)), input } : Point).accept? "?" =
      some { tokens := ts₁ ++ .op ":" :: (ts₂ ++ rest), input } := rfl
  have hpart : ({ tokens := .op ":" :: (ts₂ ++ rest), input } : Point).expect ":" =
      pure { tokens := ts₂ ++ rest, input } := rfl
  simp only [List.append_assoc, List.cons_append, Program.choice, hcondition, hask, hfirst,
    hpart, hsecond, pure_bind, leaving, bind_assoc]
  cases live <;> simp only [bind_assoc, pure_bind, if_true, if_false, Bool.false_eq_true]

/-- An expression in parentheses is an operand of every kind. -/
theorem Reads.parenthesized (h : Reads m .choice ts value) :
    Reads m .primary (.op "(" :: ts ++ [.op ")"]) value := by
  intro fuel live rest input hfuel hrest
  obtain ⟨fuel, rfl⟩ := Rank.exists_succ hfuel
  simp only [List.length_append, List.length_cons, List.length_nil, Rank.calls] at hfuel
  have hclosing : Behind Rank.choice.place (.op ")" :: rest) := .cons rfl (by decide) _
  have hread := fun live => h fuel live _ input (by simp only [Rank.calls]; omega) hclosing
  have hend : ({ tokens := .op ")" :: rest, input } : Point).expect ")" = pure { tokens := rest, input } :=
    rfl
  simp only [Rank.read] at hread ⊢
  simp only [List.append_assoc, List.cons_append, List.nil_append, Program.primary, hread, leaving_bind,
    hend]
  rfl

/-- Tokens that begin with no sign, no step and no cast. -/
structure Unsigned (ts : List Token) : Prop where
  head : ∃ t rest, ts = t :: rest ∧ ∀ symbol, t = .op symbol → symbol = "("
  takeCast : ∀ rest input, takeCast? { tokens := ts ++ rest, input } = none

/-- Where no sign and no step comes next, there is a cast or a primary expression. -/
theorem unary_of_head {t : Token} (ht : ∀ symbol, t = .op symbol → symbol = "(") (fuel : Nat)
    (live : Bool) (rest : List Token) (input : Input) :
    unary m (fuel + 1) live { tokens := t :: rest, input } =
      (match takeCast? { tokens := t :: rest, input } with
      | some (kind, p) => do
        let (v, p) ← unary m fuel live p
        return (← whenLive live (cast kind v), p)
      | none => do
        let (v, p) ← primary m fuel live { tokens := t :: rest, input }
        methodCalls m fuel live v p) := by
  have hne : ∀ symbol, symbol ≠ "(" → t ≠ .op symbol := fun symbol h heq => h (ht symbol heq)
  rw [unary]
  split
  · next heq => exact absurd (List.cons.inj heq).1 (hne "-" (by decide))
  · next heq => exact absurd (List.cons.inj heq).1 (hne "+" (by decide))
  · next heq => exact absurd (List.cons.inj heq).1 (hne "!" (by decide))
  · next heq => exact absurd (List.cons.inj heq).1 (hne "++" (by decide))
  · next heq => exact absurd (List.cons.inj heq).1 (hne "--" (by decide))
  · rfl

/-- A primary expression is an operand of a sign. -/
theorem Reads.unary (h : Reads m .primary ts value) (hts : Unsigned ts) : Reads m .unary ts value := by
  intro fuel live rest input hfuel hrest
  simp only [Rank.calls] at hfuel
  obtain ⟨fuel, rfl⟩ : ∃ more, fuel = more + 2 := Nat.exists_eq_add_of_le' (by omega)
  have hread := h (fuel + 1) live rest input (by simp only [Rank.calls]; omega) (hrest.mono (by decide))
  have hcast := hts.takeCast rest input
  obtain ⟨t, more, rfl, ht⟩ := hts.head
  simp only [Rank.read, List.cons_append] at hread hcast ⊢
  simp only [unary_of_head ht, hcast, hread, leaving_bind, hrest.methodCalls_stops]
  rfl

/-- A sign goes before what it is the sign of. -/
theorem Reads.sign (s : Sign) (h : Reads m .unary ts value) :
    Reads m .unary (.op s.symbol :: ts) (fun live => do
      let x ← value live
      whenLive live (s.apply x)) := by
  intro fuel live rest input hfuel hrest
  obtain ⟨fuel, rfl⟩ := Rank.exists_succ hfuel
  simp only [List.length_cons] at hfuel
  have hread := h fuel live rest input (by omega) hrest
  simp only [Rank.read] at hread ⊢
  cases s <;>
    simp only [List.cons_append, Sign.symbol, Sign.apply, Program.unary, hread, leaving_bind] <;>
    simp only [leaving, bind_assoc]

/-- A cast goes before what is cast. -/
theorem Reads.cast (type : CastType) (h : Reads m .unary ts value) :
    Reads m .unary (.op "(" :: .name type.name :: .op ")" :: ts) (fun live => do
      let x ← value live
      whenLive live (Program.cast type.kind x)) := by
  intro fuel live rest input hfuel hrest
  obtain ⟨fuel, rfl⟩ := Rank.exists_succ hfuel
  simp only [List.length_cons] at hfuel
  have hread := h fuel live rest input (by omega) hrest
  have htype : takeCast? { tokens := .op "(" :: .name type.name :: .op ")" :: (ts ++ rest), input } =
      some (type.kind, { tokens := ts ++ rest, input }) := by
    simp only [takeCast?, type.isType, Option.map_some]
  have hopen : ∀ symbol, Token.op "(" = .op symbol → symbol = "(" := fun _ h => (Token.op.inj h).symm
  simp only [Rank.read] at hread ⊢
  simp only [List.cons_append, unary_of_head hopen, htype, hread, leaving_bind]
  simp only [leaving, bind_assoc]

end Reading

/-! ### Leaves -/

section Leaves

variable {t : Token} {value : Bool → Except Fault Value}

/-- A token is read by itself. -/
theorem reads_token (h : ∀ fuel live rest input, Behind Rank.primary.place rest →
    primary m (fuel + 1) live { tokens := t :: rest, input } = leaving (value live) rest input) :
    Reads m .primary [t] value := by
  intro fuel live rest input hfuel hrest
  obtain ⟨fuel, rfl⟩ := Rank.exists_succ hfuel
  exact h fuel live rest input hrest

/-- A number is read by itself, whether it counts or not. -/
theorem reads_number {text : List Char} {v : Value} (h : numberValue text = .ok v) :
    Reads m .primary [.number text] (fun _ => .ok v) := by
  refine reads_token fun fuel live rest input _ => ?_
  simp only [primary, h]
  rfl

theorem reads_integer (n : Numeral) : Reads m .primary [n.token] ((Expression.integer n).valueWhen m) := by
  have hvalue : (Expression.integer n).valueWhen m = fun _ => .ok (.int n.number) :=
    funext fun live => by cases live <;> rfl
  exact hvalue ▸ reads_number n.numberValue_text

theorem reads_boolean (b : Bool) :
    Reads m .primary [.name (if b then "true" else "false")] ((Expression.boolean b).valueWhen m) := by
  refine reads_token fun fuel live rest input _ => ?_
  cases b <;> cases live <;> rfl

theorem reads_string (s : StringLiteral) :
    Reads m .primary [.string s.body] ((Expression.string s).valueWhen m) := by
  refine reads_token fun fuel live rest input _ => ?_
  cases live <;> rfl

theorem reads_char (c : CharLiteral) :
    Reads m .primary [.char c.body] ((Expression.char c).valueWhen m) := by
  refine reads_token fun fuel live rest input _ => ?_
  simp only [primary, c.isSingle]
  cases live <;> rfl

/-- A name that is no literal, and that nothing is called on, is a variable. -/
theorem reads_variable {x : String} (hx : x ∉ ["true", "false", "null"]) :
    Reads m .primary [.name x] (fun live => whenLive live (m.read x)) := by
  refine reads_token fun fuel live rest input hrest => ?_
  have hdot := hrest.accept?_eq_none "." nofun input
  have hopen := hrest.sees_eq_false "(" nofun input
  have hne : ∀ literal ∈ ["true", "false", "null"], Token.name x ≠ .name literal :=
    fun literal hmem heq => hx (Token.name.inj heq ▸ hmem)
  -- of the ways a primary expression begins, four are open to a name, and a literal takes three of them
  rw [primary]
  split
  case h_7 heq => exact absurd (List.cons.inj heq).1 (hne "true" (by decide))
  case h_8 heq => exact absurd (List.cons.inj heq).1 (hne "false" (by decide))
  case h_9 heq => exact absurd (List.cons.inj heq).1 (hne "null" (by decide))
  case h_10 heq =>
    cases heq
    simp only [hdot, hopen]
    rfl
  all_goals next heq => cases heq

theorem reads_name (x : VariableName) :
    Reads m .primary [.name x.name] ((Expression.name x).valueWhen m) := reads_variable x.notLiteral

end Leaves

/-! ### Trees -/

/-- Tokens do not begin with the name of a type, so that a parenthesis before them opens no cast. -/
def BeginsUntyped (ts : List Token) : Prop :=
  ∃ t rest, ts = t :: rest ∧ ∀ s, t = .name s → Kind.ofName? s = none

namespace BeginsUntyped

variable {ts : List Token}

theorem mark (symbol : String) (ts : List Token) : BeginsUntyped (.op symbol :: ts) := ⟨_, _, rfl, nofun⟩

theorem append (h : BeginsUntyped ts) (ts' : List Token) : BeginsUntyped (ts ++ ts') := by
  obtain ⟨t, rest, rfl, ht⟩ := h
  exact ⟨t, rest ++ ts', rfl, ht⟩

theorem parenthesized (h : BeginsUntyped ts) (bare : Bool) : BeginsUntyped (parenthesized bare ts) := by
  cases bare with
  | true => exact h
  | false => exact mark "(" _

/-- What stands in parentheses is no cast. -/
theorem unsigned (h : BeginsUntyped ts) : Unsigned (.op "(" :: ts ++ [.op ")"]) where
  head := ⟨_, _, rfl, fun _ heq => (Token.op.inj heq).symm⟩
  takeCast rest input := by
    obtain ⟨t, more, rfl, ht⟩ := h
    simp only [List.cons_append, takeCast?]
    split
    · next heq =>
      rw [ht _ (List.cons.inj (List.cons.inj heq).2).1, Option.map_none]
    · rfl

end BeginsUntyped

theorem unsigned_token {t : Token} (ht : ∀ symbol, t ≠ .op symbol) : Unsigned [t] where
  head := ⟨t, [], rfl, fun symbol heq => absurd heq (ht symbol)⟩
  takeCast rest input := by
    simp only [List.cons_append, takeCast?]
    split
    · next heq => exact absurd (List.cons.inj heq).1 (ht "(")
    · rfl

/-- What a primary expression is read as, it is read as at every level. -/
theorem Reads.everywhere {ts : List Token} {value : Bool → Except Fault Value}
    (h : Reads m .primary ts value) (hts : Unsigned ts) (r : Rank) : Reads m r ts value := by
  by_cases hr : r = .primary
  · exact hr ▸ h
  · exact (h.unary hts).upTo (Nat.le_refl _) (Rank.place_le_unary hr)

/-- Tokens of a level of their own: every level reads them, in parentheses where they are needed, and the
chains of a level go on behind them. -/
structure Readable (m : Machine) (own : Rank) (ts : List Token) (value : Bool → Except Fault Value) :
    Prop where
  reads : ∀ r : Rank, Reads m r (parenthesized (r.place ≤ own.place) ts) value
  opens : ∀ c : Connective, Opens m c (parenthesized (c.rank.place ≤ own.place) ts) value

/-- In parentheses, tokens are no cast. -/
def ClosesNoCast (ts : List Token) : Prop := Unsigned (.op "(" :: ts ++ [.op ")"])

namespace Readable

variable {own own' : Rank} {ts ts' : List Token} {value value' : Bool → Except Fault Value}

/-- Tokens that their own level reads are read by every level, in parentheses where they are needed. -/
theorem reads_of_own (h : Reads m own ts value) (hprimary : own = .primary → Unsigned ts)
    (hclosed : own ≠ .primary → ClosesNoCast ts) (r : Rank) :
    Reads m r (parenthesized (r.place ≤ own.place) ts) value := by
  have hlooser : ∀ r : Rank, r.place ≤ own.place → Reads m r ts value := by
    intro r hle
    by_cases hown : own = .primary
    · exact Reads.everywhere (hown ▸ h) (hprimary hown) r
    · exact h.upTo (Rank.place_le_unary hown) hle
  by_cases hfits : r.place ≤ own.place
  · rw [decide_eq_true hfits]
    exact hlooser r hfits
  · have hown : own ≠ .primary := by
      rintro rfl
      exact hfits r.place_le_primary
    rw [decide_eq_false hfits]
    exact (hlooser .choice own.one_le_place).parenthesized.everywhere (hclosed hown) r

/-- What is no chain of a level is one operand there. -/
theorem opens_of_tighter {c : Connective}
    (h : Reads m c.rank.tighter (parenthesized (c.rank.tighter.place ≤ own.place) ts) value)
    (hne : own ≠ c.rank) : Opens m c (parenthesized (c.rank.place ≤ own.place) ts) value := by
  have hplace : own.place ≠ c.rank.place := mt Rank.eq_of_place hne
  have hnext : c.rank.tighter.place = c.rank.place + 1 := Rank.place_tighter c.rank_ne_primary
  have hfits : decide (c.rank.place ≤ own.place) = decide (c.rank.tighter.place ≤ own.place) :=
    decide_eq_decide.mpr (by omega)
  rw [hfits]
  exact h.opens

/-- What is no chain is read by every level when its own one reads it. -/
theorem of_reads (h : Reads m own ts value) (hprimary : own = .primary → Unsigned ts)
    (hclosed : own ≠ .primary → ClosesNoCast ts) (hchain : ∀ c : Connective, own ≠ c.rank) :
    Readable m own ts value where
  reads := reads_of_own h hprimary hclosed
  opens c := opens_of_tighter (reads_of_own h hprimary hclosed _) (hchain c)

theorem of_token {t : Token} (ht : ∀ symbol, t ≠ .op symbol) (h : Reads m .primary [t] value) :
    Readable m .primary [t] value :=
  of_reads h (fun _ => unsigned_token ht) (absurd rfl) fun c => c.rank_ne_primary.symm

theorem print (h : Readable m own ts value) : Reads m .choice ts value := by
  have hfits : decide (Rank.choice.place ≤ own.place) = true := decide_eq_true own.one_le_place
  have hread := h.reads .choice
  rwa [hfits] at hread

theorem group (h : Readable m own ts value) (hclosed : ClosesNoCast ts) :
    Readable m .primary (.op "(" :: ts ++ [.op ")"]) value :=
  of_reads h.print.parenthesized (fun _ => hclosed) (absurd rfl) fun c => c.rank_ne_primary.symm

theorem sign (s : Sign) (h : Readable m own ts value) :
    Readable m .unary (.op s.symbol :: parenthesized (Rank.unary.place ≤ own.place) ts) (fun live => do
      let x ← value live
      whenLive live (s.apply x)) := by
  refine of_reads ((h.reads .unary).sign s) nofun (fun _ => (BeginsUntyped.mark _ _).unsigned) fun c => ?_
  cases c <;> nofun

/-- A chain of operands groups to the left. -/
theorem join (c : Connective) (hl : Readable m own ts value) (hr : Readable m own' ts' value')
    (hclosed : ClosesNoCast (parenthesized (c.rank.place ≤ own.place) ts ++
      .op c.symbol :: parenthesized (c.rank.tighter.place ≤ own'.place) ts')) :
    Readable m c.rank (parenthesized (c.rank.place ≤ own.place) ts ++
      .op c.symbol :: parenthesized (c.rank.tighter.place ≤ own'.place) ts') (fun live => do
        let x ← value live
        let counts ← c.counts live x
        let y ← value' counts
        c.combine live counts x y) := by
  have hopens : ∀ c' : Connective, c.rank = c'.rank →
      Opens m c' (parenthesized (c.rank.place ≤ own.place) ts ++
        .op c.symbol :: parenthesized (c.rank.tighter.place ≤ own'.place) ts') (fun live => do
          let x ← value live
          let counts ← c.counts live x
          let y ← value' counts
          c.combine live counts x y) := by
    intro c' hrank
    -- the left operand may be a chain of the same level, the right one is an operand of it
    have hchain := (hl.opens c').join hrank (hr.reads c'.rank.tighter)
    rwa [← hrank] at hchain
  have hreads := reads_of_own (hopens c rfl).reads (absurd · c.rank_ne_primary) fun _ => hclosed
  refine ⟨hreads, fun c' => ?_⟩
  by_cases hrank : c.rank = c'.rank
  · rw [decide_eq_true (Nat.le_of_eq (congrArg Rank.place hrank.symm))]
    exact hopens c' hrank
  · exact opens_of_tighter (hreads _) hrank

end Readable

namespace Expression

theorem beginsUntyped (e : Expression) : BeginsUntyped e.print := by
  induction e with
  | integer n => exact ⟨_, _, rfl, nofun⟩
  | boolean b => exact ⟨_, _, rfl, fun s h => Token.name.inj h ▸ by cases b <;> rfl⟩
  | string s => exact ⟨_, _, rfl, nofun⟩
  | char c => exact ⟨_, _, rfl, nofun⟩
  | name x => exact ⟨_, _, rfl, fun s h => Token.name.inj h ▸ x.notType⟩
  | group e ih => exact .mark "(" _
  | sign s e ih => exact .mark s.symbol _
  | cast type e ih => exact .mark "(" _
  | join c left right ihl ihr => exact (ihl.parenthesized _).append _
  | choose condition first second ihc ihf ihs => exact ((ihc.parenthesized _).append _).append _

theorem closesNoCast (e : Expression) : ClosesNoCast e.print := e.beginsUntyped.unsigned

variable {e condition first second : Expression}

/-- Behind a cast there may be more parentheses than the level asks for. -/
theorem readable_cast (type : CastType) (h : Readable m e.rank e.print (e.valueWhen m)) :
    Readable m .unary (cast type e).print ((cast type e).valueWhen m) := by
  have hoperand : Reads m .unary (parenthesized (e.followsCast type) e.print) (e.valueWhen m) := by
    cases hbare : e.followsCast type with
    | false => exact h.print.parenthesized.everywhere e.closesNoCast .unary
    | true =>
      have hfits : decide (Rank.unary.place ≤ e.rank.place) = true := (Bool.and_eq_true_iff.mp hbare).1
      have hread := h.reads .unary
      rwa [hfits] at hread
  rw [funext (valueWhen_cast type e)]
  refine Readable.of_reads (hoperand.cast type) nofun (fun _ => (cast type e).closesNoCast) fun c => ?_
  cases c <;> nofun

theorem readable_choose (hc : Readable m condition.rank condition.print (condition.valueWhen m))
    (hf : Readable m first.rank first.print (first.valueWhen m))
    (hs : Readable m second.rank second.print (second.valueWhen m)) :
    Readable m .choice (choose condition first second).print
      ((choose condition first second).valueWhen m) := by
  rw [funext (valueWhen_choose condition first second)]
  refine Readable.of_reads ((hc.reads .disjunction).choose hf.print hs.print) nofun
    (fun _ => (choose condition first second).closesNoCast) fun c => ?_
  cases c <;> nofun

/-- Every level reads a tree that is printed for it. -/
theorem readable (m : Machine) (e : Expression) : Readable m e.rank e.print (e.valueWhen m) := by
  induction e with
  | integer n => exact .of_token nofun (reads_integer n)
  | boolean b => exact .of_token nofun (reads_boolean b)
  | string s => exact .of_token nofun (reads_string s)
  | char c => exact .of_token nofun (reads_char c)
  | name x => exact .of_token nofun (reads_name x)
  | group e ih => exact ih.group e.closesNoCast
  | sign s e ih =>
    rw [funext (valueWhen_sign s e)]
    exact ih.sign s
  | cast type e ih => exact readable_cast type ih
  | join c left right ihl ihr =>
    rw [funext (valueWhen_join c left right)]
    exact ihl.join c ihr (join c left right).closesNoCast
  | choose condition first second ihc ihf ihs => exact readable_choose ihc ihf ihs

/-- An expression that is written with as few parentheses as may be comes to the value of its tree, and
fails as the tree does. -/
theorem evaluate_text (m : Machine) (e : Expression) :
    evaluate m e.text = (e.value m).map fun v => (v, m.input) := by
  have hread := (readable m e).print (fuelFor e.print) true [] m.input
    (by simp only [fuelFor, Rank.calls]; omega) (.nil _)
  rw [List.append_nil] at hread
  have hcut : evaluate m e.text = (do
      let (v, p) ← choice m (fuelFor e.print) true { tokens := e.print, input := m.input }
      if p.tokens.isEmpty then return (v, p.input) else unsupported .unexpectedToken) := by
    rw [evaluate, e.tokens_text]
    rfl
  rw [Rank.read] at hread
  rw [hcut, hread, leaving_bind]
  cases hvalue : e.value m with
  | error why => rw [valueWhen, if_pos rfl, hvalue]; rfl
  | ok v => rw [valueWhen, if_pos rfl, hvalue]; rfl

end Expression

end Coach.Program
