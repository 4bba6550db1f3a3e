import Coach.Proofs.Program.Parsing
import Coach.Proofs.Program.Typing

/-!
# Wrapping on store

Integers are unbounded while an expression is evaluated, and wrap when they are stored.  For sums,
differences, products and negatives that is as good as wrapping after every operation, in a word of any
width from the one of the variable on.

## Main definitions

* `Integral`: the trees of `+`, `-`, `*` and the sign over integer literals and variables
* `Integral.value`: the value of a tree, with something done to the result of every operation
* `Integral.Spells`: a text is an expression that is such a tree
* `Machine.Stores`: a statement stores the value of a tree

## Main statements

* `Integral.Spells.evaluate`: an expression comes to the value of its tree, of any size
* `Integral.wrap_value`: wrapping on the way does not change what is wrapped at the end
* `Machine.wrapping_on_store_suffices`: so it is with what is stored

## Design notes

The arithmetic is that of integers up to multiples of a power of two, which `wrap` respects.  It needs an
induction on trees; the ways to store a value need none, since each comes to one conversion.

A name in parentheses that is the name of a type is a cast, and no such tree.
-/

namespace Coach.Program

open Coach.Text

/-! ### Operators -/

/-- The operators that wrapping goes along with. -/
inductive RingOperator where
  | add
  | sub
  | mul
  deriving DecidableEq, Repr

namespace RingOperator

/-- As an operator of expressions. -/
def operator : RingOperator → Value.Operator
  | .add => .add
  | .sub => .sub
  | .mul => .mul

/-- What an operator makes of two integers. -/
def apply : RingOperator → Int → Int → Int
  | .add, a, b => a + b
  | .sub, a, b => a - b
  | .mul, a, b => a * b

theorem binary_operator (o : RingOperator) (a b : Int) :
    Value.binary o.operator (.int a) (.int b) = .ok (.int (o.apply a b)) := by
  cases o <;> rfl

theorem apply_modEq (o : RingOperator) {n a a' b b' : Int} (ha : a ≡ a' [ZMOD n]) (hb : b ≡ b' [ZMOD n]) :
    o.apply a b ≡ o.apply a' b' [ZMOD n] := by
  cases o with
  | add => exact ha.add hb
  | sub => exact ha.sub hb
  | mul => exact ha.mul hb

/-- The operator of a step. -/
def ofStep (up : Bool) : RingOperator := if up then .add else .sub

theorem operator_ofStep (up : Bool) : (ofStep up).operator = if up then .add else .sub := by
  cases up <;> rfl

end RingOperator

/-! ### Trees -/

/-- An expression of integers. -/
inductive Integral where
  | literal (n : IntegerLiteral)
  | name (x : String)
  | group (e : Integral)
  | negative (e : Integral)
  | join (o : RingOperator) (left right : Integral)

namespace Integral

/-- The value of a tree, with `f` done to the result of every operation. -/
def value (f : Int → Int) (σ : String → Int) : Integral → Int
  | .literal n => n.number
  | .name x => σ x
  | .group e => e.value f σ
  | .negative e => f (-e.value f σ)
  | .join o left right => f (o.apply (left.value f σ) (right.value f σ))

/-- The names of the variables of a tree. -/
def names : Integral → List String
  | .literal _ => []
  | .name x => [x]
  | .group e => e.names
  | .negative e => e.names
  | .join _ left right => left.names ++ right.names

/-- The level of a tree. -/
def rank : Integral → Rank
  | .join o _ _ => (Connective.op o.operator).rank
  | .negative _ => .unary
  | .literal _ | .name _ | .group _ => .primary

/-- The tokens of a tree, with the parentheses that its operators need besides those that it has. -/
def print : Integral → List Token
  | .literal n => [.number n.text]
  | .name x => [.name x]
  | .group e => .op "(" :: e.print ++ [.op ")"]
  | .negative e => .op Sign.minus.symbol :: parenthesized (Rank.unary.place ≤ e.rank.place) e.print
  | .join o left right =>
    let c := Connective.op o.operator
    parenthesized (c.rank.place ≤ left.rank.place) left.print ++
      .op c.symbol :: parenthesized (c.rank.tighter.place ≤ right.rank.place) right.print

/-- The name of a type, alone. -/
def IsTypeName : Integral → Prop
  | .name x => (Kind.ofName? x).isSome = true
  | _ => False

/-- Variables are no literals, and no parentheses are a cast. -/
def Plain : Integral → Prop
  | .literal _ => True
  | .name x => x ∉ ["true", "false", "null"]
  | .group e => e.Plain ∧ ¬ e.IsTypeName
  | .negative e => e.Plain
  | .join _ left right => left.Plain ∧ right.Plain

/-- A text is an expression that is a tree. -/
structure Spells (e : Integral) (text : List Char) : Prop where
  plain : e.Plain
  tokens : tokens text = .ok e.print

/-! ### Reading -/

/-- In front of an operator there is no name that a parenthesis closes behind. -/
theorem print_append_op_ne (e : Integral) {symbol s : String} (hsymbol : symbol ≠ ")")
    (ts rest : List Token) : e.print ++ .op symbol :: ts ≠ .name s :: .op ")" :: rest := by
  induction e generalizing symbol ts with
  | literal n => nofun
  | name x =>
    intro heq
    exact hsymbol (Token.op.inj (List.cons.inj (List.cons.inj heq).2).1)
  | group e ih => nofun
  | negative e ih => nofun
  | join o left right ihl ihr =>
    simp only [print, List.append_assoc, List.cons_append]
    cases decide ((Connective.op o.operator).rank.place ≤ left.rank.place) with
    | true => exact ihl (by cases o <;> decide) _
    | false => nofun

/-- In parentheses, a tree is no cast, unless it is the name of a type. -/
theorem closesNoCast {e : Integral} (h : ¬ e.IsTypeName) : ClosesNoCast e.print where
  head := ⟨_, _, rfl, fun _ heq => (Token.op.inj heq).symm⟩
  takeCast rest input := by
    simp only [List.cons_append, List.append_assoc, List.nil_append, takeCast?]
    split
    · next s more heq =>
      have htokens := (List.cons.inj heq).2
      suffices hnone : Kind.ofName? s = none by rw [hnone, Option.map_none]
      cases e with
      | literal n => cases htokens
      | name x =>
        obtain rfl := Token.name.inj (List.cons.inj htokens).1
        exact Option.not_isSome_iff_eq_none.mp h
      | group e => cases htokens
      | negative e => cases htokens
      | join o left right =>
        simp only [print, List.append_assoc, List.cons_append] at htokens
        cases hbare : decide ((Connective.op o.operator).rank.place ≤ left.rank.place) with
        | true =>
          rw [hbare] at htokens
          exact absurd htokens (left.print_append_op_ne (by cases o <;> decide) _ _)
        | false =>
          rw [hbare] at htokens
          cases htokens
    · rfl

section Reading

variable {m : Machine} {σ : String → Int}

/-- A plain tree is read by every level, and comes to its value when it counts. -/
theorem readable {e : Integral} (hplain : e.Plain)
    (hread : ∀ x ∈ e.names, m.read x = .ok (.int (σ x))) :
    ∃ answer, Readable m e.rank e.print answer ∧ answer true = .ok (.int (e.value id σ)) := by
  induction e with
  | literal n => exact ⟨_, .of_token nofun (reads_number n.numberValue_text), rfl⟩
  | name x => exact ⟨_, .of_token nofun (reads_variable hplain), hread x List.mem_cons_self⟩
  | group e ih =>
    obtain ⟨answer, hanswer, hvalue⟩ := ih hplain.1 hread
    exact ⟨answer, hanswer.group (closesNoCast hplain.2), hvalue⟩
  | negative e ih =>
    obtain ⟨answer, hanswer, hvalue⟩ := ih hplain hread
    refine ⟨_, hanswer.sign .minus, ?_⟩
    simp only [hvalue]
    rfl
  | join o left right ihl ihr =>
    obtain ⟨answer, hanswer, hvalue⟩ := ihl hplain.1 fun x hx => hread x (List.mem_append_left _ hx)
    obtain ⟨answer', hanswer', hvalue'⟩ := ihr hplain.2 fun x hx => hread x (List.mem_append_right _ hx)
    refine ⟨_, hanswer.join (.op o.operator) hanswer' (closesNoCast (e := .join o left right) id), ?_⟩
    have hbinary : answer' true >>= Value.binary o.operator (.int (left.value id σ)) =
        .ok (.int ((join o left right).value id σ)) := by
      rw [hvalue']
      exact o.binary_operator _ _
    simp only [hvalue, Connective.counts, Connective.combine, if_true]
    exact hbinary

/-- An expression comes to the value of its tree. -/
theorem Spells.evaluate {e : Integral} {text : List Char} (h : e.Spells text)
    (hread : ∀ x ∈ e.names, m.read x = .ok (.int (σ x))) :
    Program.evaluate m text = .ok (.int (e.value id σ), m.input) := by
  obtain ⟨answer, hanswer, hvalue⟩ := readable h.plain hread
  have hchoice := hanswer.print (fuelFor e.print) true [] m.input
    (by simp only [fuelFor, Rank.calls]; omega) (.nil _)
  rw [Rank.read, List.append_nil, hvalue] at hchoice
  simp only [Program.evaluate, h.tokens, bind, Except.bind, hchoice]
  rfl

end Reading

/-! ### Wrapping -/

/-- What is the same up to multiples of a number stays so whatever such multiples are added on the way. -/
theorem value_modEq {f : Int → Int} {n : Int} (hf : ∀ a, f a ≡ a [ZMOD n]) (e : Integral)
    (σ : String → Int) : e.value f σ ≡ e.value id σ [ZMOD n] := by
  induction e with
  | literal n => exact Int.ModEq.refl _
  | name x => exact Int.ModEq.refl _
  | group e ih => exact ih
  | negative e ih => exact (hf _).trans ih.neg
  | join o left right ihl ihr => exact (hf _).trans (o.apply_modEq ihl ihr)

/-- Wrapping on the way, in a word that is wide enough, does not change what is wrapped at the end. -/
theorem wrap_value {bits wider : Nat} (h : bits ≤ wider) (e : Integral) (σ : String → Int) :
    wrap bits (e.value (wrap wider) σ) = wrap bits (e.value id σ) :=
  wrap_eq_wrap_iff.mpr (e.value_modEq (fun a => modEq_of_wider h (wrap_modEq wider a)) σ)

end Integral

/-! ### Storing -/

theorem coerce_int {kind : Kind} {bits : Nat} (h : kind.bits? = some bits) (n : Int) :
    coerce kind (.int n) = .ok (.int (wrap bits n)) := by
  cases kind <;> first | cases h; rfl | cases h

theorem Kind.bits_pos {kind : Kind} {bits : Nat} (h : kind.bits? = some bits) : 0 < bits := by
  cases kind <;> first | cases h; decide | cases h

namespace Machine

/-- The integer that a variable holds, and zero where there is none. -/
def integer (m : Machine) (x : String) : Int :=
  match m.lookup? x with
  | some { value := .int n, .. } => n
  | _ => 0

/-- A variable of an integer type whose value is known. -/
def KnowsInteger (m : Machine) (x : String) : Prop :=
  m.isUnknown x = false ∧ ∃ v, m.lookup? x = some v ∧ v.kind.bits?.isSome = true

variable {m here : Machine} {kind : Kind} {x : String}

theorem WellTyped.read_integer (h : m.WellTyped) (hx : m.KnowsInteger x) :
    m.read x = .ok (.int (m.integer x)) := by
  obtain ⟨hknown, ⟨kind, value⟩, hv, hkind⟩ := hx
  have hinteger : ∃ n, value = .int n := by
    have hvalue := h x _ hv
    cases kind with
    | int | long | short | byte => exact hvalue.imp fun n hn => hn.1
    | _ => cases hkind
  obtain ⟨n, rfl⟩ := hinteger
  simp only [Machine.read, integer, hv, hknown, Bool.false_eq_true, if_false]

/-- A statement stores the value of a tree in a variable of a type.  The tree is evaluated on the machine
that the statement has come to by then, and the statement goes on with the one that has stored it. -/
inductive Stores (m : Machine) (kind : Kind) (x : String) :
    Statement → Machine → Integral → (Machine → Machine × Ending) → Prop
  | declaration {here : Machine} {before rest : List (List Char)} {part text : List Char} {e : Integral} :
    declareAll kind m before = (here, .normal) → Declarator.ofText? part = some ⟨x, some text⟩ →
    e.Spells text →
    Stores m kind x (.declaration kind (before ++ part :: rest)) here e (declareAll kind · rest)
  | assignment {v : Variable} {text : List Char} {e : Integral} :
    m.lookup? x = some v → v.kind = kind → e.Spells text →
    Stores m kind x (.assignment x none text) m e (·, .normal)
  | compound {v : Variable} (o : RingOperator) {text : List Char} {e : Integral} :
    m.lookup? x = some v → v.kind = kind → e.Spells text →
    Stores m kind x (.assignment x (some o.operator) text) m (.join o (.name x) e) (·, .normal)
  | step {v : Variable} (up : Bool) :
    m.lookup? x = some v → v.kind = kind →
    Stores m kind x (.step x up) m (.join (.ofStep up) (.name x) (.literal .one)) (·, .normal)

theorem exists_of_andThen {α : Type} {attempt : Except Fault α} {next : α → Machine × Ending}
    (h : m.andThen attempt next = (here, .normal)) : ∃ a, attempt = .ok a ∧ next a = (here, .normal) := by
  cases attempt with
  | error why => cases (Prod.mk.inj h).2
  | ok a => exact ⟨a, rfl, h⟩

/-- Declarators go on where those before them have come to. -/
theorem declareAll_append {before : List (List Char)} (h : declareAll kind m before = (here, .normal))
    (parts : List (List Char)) : declareAll kind m (before ++ parts) = declareAll kind here parts := by
  induction before generalizing m with
  | nil =>
    obtain ⟨rfl, -⟩ := Prod.mk.inj h
    rfl
  | cons part before ih =>
    simp only [declareAll, List.cons_append] at h ⊢
    split at h
    · cases (Prod.mk.inj h).2
    · obtain ⟨r, hinitial, h⟩ := exists_of_andThen h
      obtain ⟨stored, hstored, h⟩ := exists_of_andThen h
      simp only [hinitial, andThen, hstored]
      exact ih h

/-- A value that is stored is converted, and known from there on. -/
theorem assign_int {bits : Nat} (hkind : kind.bits? = some bits) {v : Variable}
    (hv : m.lookup? x = some v) (hvkind : v.kind = kind) (n : Int) :
    m.assign x (.int n) = .ok ((m.declare x kind (.int (wrap bits n))).know x) := by
  subst hvkind
  have hscanner : v.kind ≠ .scanner := by
    intro hscanner
    rw [hscanner] at hkind
    cases hkind
  simp only [assign, hv, if_neg hscanner, coerce_int hkind]
  rfl

/-- What a statement stores is the value of the tree, wrapped once. -/
theorem Stores.execute_eq {statement : Statement} {e : Integral} {next : Machine → Machine × Ending}
    (h : Stores m kind x statement here e next) {bits : Nat} (hkind : kind.bits? = some bits)
    (hread : ∀ y ∈ e.names, here.read y = .ok (.int (here.integer y))) :
    m.execute statement =
      next ((here.declare x kind (.int (wrap bits (e.value id here.integer)))).know x) := by
  cases h with
  | declaration hbefore hpart he =>
    simp only [execute, declareAll_append hbefore, declareAll, hpart, he.evaluate hread, andThen,
      coerce_int hkind]
  | assignment hv hvkind he =>
    simp only [execute, he.evaluate hread, andThen, assign_int hkind hv hvkind]
  | compound o hv hvkind he =>
    have hx := hread x List.mem_cons_self
    have hvalue := he.evaluate fun y hy => hread y (List.mem_cons_of_mem x hy)
    simp only [execute, hvalue, hx, bind, Except.bind, o.binary_operator, andThen,
      assign_int hkind hv hvkind]
    rfl
  | step up hv hvkind =>
    have hx := hread x List.mem_cons_self
    simp only [execute, hx, ← RingOperator.operator_ofStep, RingOperator.binary_operator, andThen,
      assign_int hkind hv hvkind, Integral.value, IntegerLiteral.number_one, Nat.cast_one, id]

theorem Stores.wellTyped {statement : Statement} {e : Integral} {next : Machine → Machine × Ending}
    (h : Stores m kind x statement here e next) (hm : m.WellTyped) : here.WellTyped := by
  cases h with
  | @declaration _ before _ _ _ _ hbefore _ _ =>
    have hreached : (declareAll kind m before).1 = here := congrArg Prod.fst hbefore
    exact hreached ▸ hm.declareAll kind before
  | assignment | compound | step => exact hm

/-- **Wrapping only on store is enough for `+`, `-` and `*`.**  A declaration, an assignment, a compound
assignment and a step store the value of an expression over known variables of integer types as if the
result of every operation were wrapped, in a word of any width from the one of the variable on.  What is
stored is in the range of the variable.  The machine is one whose variables hold values of their types, as
every machine that a run comes to is. -/
theorem wrapping_on_store_suffices {statement : Statement} {e : Integral}
    {next : Machine → Machine × Ending} {bits wider : Nat} (hm : m.WellTyped)
    (h : Stores m kind x statement here e next) (hknown : ∀ y ∈ e.names, here.KnowsInteger y)
    (hkind : kind.bits? = some bits) (hwider : bits ≤ wider) :
    let stored := wrap bits (e.value (wrap wider) here.integer)
    InWord bits stored ∧
      m.execute statement = next ((here.declare x kind (.int stored)).know x) := by
  intro stored
  refine ⟨inWord_wrap (Kind.bits_pos hkind) _, ?_⟩
  have hread := fun y hy => (h.wellTyped hm).read_integer (hknown y hy)
  rw [h.execute_eq hkind hread, ← e.wrap_value hwider]

set_option maxRecDepth 10000 in
theorem ofText_wrapped_short : Statement.ofText "short t = a, s = ( a + 2 ) * - a".toList =
    .declaration .short ["t = a".toList, "s = ( a + 2 ) * - a".toList] := by cbv

theorem tokens_product : tokens "( a + 2 ) * - a".toList =
    .ok [.op "(", .name "a", .op "+", .number ['2'], .op ")", .op "*", .op "-", .name "a"] := by
  have hmark : ∀ symbol ∈ ["(", "+", ")", "*", "-"], Spellable (.op symbol) := fun symbol hsymbol =>
    spellable_mark ((by decide : ["(", "+", ")", "*", "-"] ⊆ marks) hsymbol)
  have ha : Spellable (.name "a") := IsName.spellable ⟨'a', [], rfl, by decide, nofun⟩
  let two : Numeral := { number := 2, isShort := by decide }
  have hnumber : two.token = .number ['2'] := by decide
  have htwo : Spellable (.number ['2']) := hnumber ▸ two.spellable
  have hspellable : ∀ t ∈ [.op "(", .name "a", .op "+", .number ['2'], .op ")", .op "*", .op "-",
      Token.name "a"], Spellable t := by
    simp [hmark, ha, htwo]
  exact tokens_spelled hspellable

/-- The largest integer `a`, and `(a + 2) * -a` in a variable of sixteen bits. -/
theorem wrapping_on_store_suffices_short :
    let m : Machine :=
      ({ dialect := .java, input := Input.ofValues [] } : Machine).declare "a" .int (.int 2147483647)
    let here := (m.declare "t" .short (.int (-1))).know "t"
    let two : IntegerLiteral :=
      .decimal ['2'] [] (List.cons_ne_nil _ _) (by decide) (by decide) List.mem_cons_self
    let e : Integral := .join .mul (.group (.join .add (.name "a") (.literal two))) (.negative (.name "a"))
    wrap 16 (e.value (wrap 32) here.integer) = 1 ∧
      m.execute (Statement.ofText "short t = a, s = ( a + 2 ) * - a".toList) =
        ((here.declare "s" .short (.int 1)).know "s", .normal) := by
  intro m here two e
  have hm : m.WellTyped :=
    (WellTyped.empty .java (Input.ofValues [])).declare "a" ⟨2147483647, rfl, by decide⟩
  have hbefore : declareAll .short m ["t = a".toList] = (here, .normal) := by
    have hpart : Declarator.ofText? "t = a".toList = some ⟨"t", some "a".toList⟩ := by cbv
    have hvalue : evaluate m "a".toList = .ok (.int 2147483647, m.input) := by cbv
    simp only [declareAll, hpart, hvalue]
    rfl
  have hpart : Declarator.ofText? "s = ( a + 2 ) * - a".toList =
      some ⟨"s", some "( a + 2 ) * - a".toList⟩ := by cbv
  have ha : "a" ∉ ["true", "false", "null"] := by decide
  have hspells : e.Spells "( a + 2 ) * - a".toList :=
    ⟨⟨⟨⟨ha, trivial⟩, id⟩, ha⟩, tokens_product⟩
  have hknown : ∀ y ∈ e.names, here.KnowsInteger y := by
    intro y hy
    have hname : y = "a" := by simpa [e, Integral.names] using hy
    exact hname ▸ ⟨rfl, ⟨.int, .int 2147483647⟩, rfl, rfl⟩
  have hvalue : wrap 16 (e.value (wrap 32) here.integer) = 1 := by decide
  have hstores : m.Stores .short "s" (.declaration .short ["t = a".toList, "s = ( a + 2 ) * - a".toList])
      here e (declareAll .short · []) := .declaration hbefore hpart hspells
  obtain ⟨-, hrun⟩ := wrapping_on_store_suffices hm hstores hknown rfl (by decide : 16 ≤ 32)
  rw [hvalue] at hrun
  exact ⟨hvalue, ofText_wrapped_short ▸ hrun⟩

end Machine

end Coach.Program
