import Coach.Proofs.Program.Conversion

/-!
# Characters that expressions come to

A character that an expression comes to is one character.  It was written as a literal, taken out of a
string by its place, converted from a number, or read from a variable that held one.

## Main definitions

* `Singles`: what every level comes to, with some fuel

## Main statements

* `evaluate_isSingle`: what an expression comes to, where the variables hold such values

## Design notes

The arguments of a call may be anything: no function hands one of them back.  So nothing is said of
`arguments`, and the operands that do not count are left out in the same way.
-/

namespace Coach.Program

open Coach.Text

/-! ### Operators and calls -/

namespace Value

theorem ensures_binary (op : Operator) (left right : Value) :
    Ensures IsSingle (binary op left right) := by
  have hnumbers : ∀ f : Number → Number → Except Fault Value, (∀ a b, Ensures IsSingle (f a b)) →
      Ensures IsSingle (binary.numbers left right f) := fun f hf =>
    Ensures.bind_any fun a => Ensures.bind_any fun b => hf a b
  cases op with
  | equal | unequal => exact Ensures.map_any fun b => isSingle_bool _
  | add =>
    simp only [binary]
    split
    · exact Ensures.bind_any fun a => Ensures.bind_any fun b => Ensures.ok (isSingle_str _)
    · exact hnumbers _ fun a b => Ensures.map_any isSingle_ofNumber
  | sub | mul | div | mod => exact hnumbers _ fun a b => Ensures.map_any isSingle_ofNumber
  | less | greater | atMost | atLeast => exact hnumbers _ fun a b => Ensures.ok (isSingle_bool _)

theorem ensures_negate (v : Value) : Ensures IsSingle v.negate := by
  refine Ensures.bind_any fun a => ?_
  cases a <;> exact Ensures.ok (by simp)

theorem ensures_plus (v : Value) : Ensures IsSingle v.plus :=
  Ensures.bind_any fun a => Ensures.ok (isSingle_ofNumber a)

end Value

theorem ensures_cast (kind : Kind) {v : Value} (hv : v.IsSingle) : Ensures Value.IsSingle (cast kind v) := by
  unfold cast
  split
  · refine Ensures.bind_any fun n a ha => ?_
    exact Value.HasKind.isSingle (hasKind_of_coerce .char (Value.isSingle_int n) a ha)
  · exact fun a ha => Value.HasKind.isSingle (hasKind_of_coerce kind hv a ha)

theorem ensures_whenLive {live : Bool} {f : Except Fault Value} (h : Ensures Value.IsSingle f) :
    Ensures Value.IsSingle (whenLive live f) := by
  unfold whenLive
  split
  · exact h
  · exact Ensures.ok Value.isSingle_null

theorem ensures_callMath (name : String) (nums : List Number) :
    Ensures Value.IsSingle (callMath name nums) := by
  have hwhole : ∀ round x, Ensures Value.IsSingle (wholeFloat round x) := by
    intro round x
    cases x with
    | int n => exact Ensures.map_any fun x => Value.isSingle_float x
    | float x => exact Ensures.bind_any fun n => Ensures.bind_any fun y => Ensures.ok (by simp)
  unfold callMath
  split
  case h_5 => split <;> exact Ensures.ok (by simp)
  case h_6 =>
    split
    · exact Ensures.bind_any fun x => Ensures.ok (by simp)
    · exact Ensures.ok (by simp)
  case h_9 => exact Ensures.bind_any fun x => Ensures.bind_any fun n => Ensures.ok (by simp)
  all_goals first
    | exact Ensures.ok (by simp)
    | exact Ensures.map_any Value.isSingle_ofNumber
    | exact hwhole _ _
    | exact Ensures.error _

theorem ensures_callStatic (owner name : String) (args : List Value) :
    Ensures Value.IsSingle (callStatic owner name args) := by
  have hparse : ∀ v, Ensures Value.IsSingle (callStatic.parseInteger v) := by
    intro v
    refine Ensures.bind_any fun text => ?_
    split
    · exact Ensures.bind_any fun n => Ensures.ok (by simp)
    · exact Ensures.error _
  have hshow : ∀ v : Value, Ensures Value.IsSingle (do return .str (← v.show)) := fun v =>
    Ensures.bind_any fun s => Ensures.ok (by simp)
  unfold callStatic
  split
  · exact Ensures.bind_any fun nums => ensures_callMath name nums
  · split
    case h_3 =>
      refine Ensures.bind_any fun text => ?_
      split
      · exact Ensures.ok (by simp)
      · exact Ensures.bind_any fun s => Ensures.error _
    case h_8 => exact Ensures.bind_any fun s => Ensures.bind_any fun t => Ensures.ok (by simp)
    all_goals first
      | exact hparse _
      | exact hshow _
      | exact Ensures.error _

/-- The only characters that come of a method are taken out of a string one by one. -/
theorem ensures_callString (s : Str) (name : String) (args : List Value) :
    Ensures Value.IsSingle (callString s name args) := by
  have hslice : ∀ first last, Ensures Value.IsSingle (callString.slice s first last) := by
    intro first last
    unfold callString.slice
    split
    · exact Ensures.ok (by simp)
    · exact Ensures.bind_any fun _ => Ensures.bind_any fun _ => Ensures.error _
  unfold callString
  split
  case h_2 =>
    refine Ensures.bind_any fun index => ?_
    split
    · exact Ensures.ok (Value.isSingle_char _)
    · exact Ensures.bind_any fun _ => Ensures.error _
  case h_14 => exact Ensures.bind_any fun first => hslice first _
  case h_15 => exact Ensures.bind_any fun first => Ensures.bind_any fun last => hslice first last
  all_goals first
    | exact Ensures.ok (by simp)
    | exact Ensures.bind_any fun part => Ensures.ok (by simp)
    | exact Ensures.error _

theorem ensures_readToken (name : String) (token : List Char) :
    Ensures Value.IsSingle (readToken name token) := by
  simp only [readToken]
  repeat' split
  all_goals first
    | exact Ensures.ok (by simp)
    | exact Ensures.map_any Value.isSingle_int
    | exact Ensures.error _

theorem ensures_numberValue (text : List Char) : Ensures Value.IsSingle (numberValue text) := by
  simp only [numberValue]
  repeat' split
  all_goals first
    | exact Ensures.ok (by simp)
    | exact Ensures.map_any Value.isSingle_int

theorem isSingle_of_staticField? {owner name : String} {v : Value} (h : staticField? owner name = some v) :
    v.IsSingle := by
  unfold staticField? at h
  split at h <;> first | exact Option.some.inj h ▸ by simp | cases h

theorem ensures_callMethod (m : Machine) (input : Input) (target : Value) (name : String)
    (args : List Value) :
    Ensures (fun r => r.1.IsSingle) (callMethod m input target name args) := by
  cases target with
  | scanner =>
    simp only [callMethod, callScanner]
    split
    · exact Ensures.error _
    · split
      · exact Ensures.error _
      · split
        · exact Ensures.ok (by simp)
        · split
          · split
            · exact Ensures.ok (by simp)
            · exact Ensures.error _
          · split
            · exact Ensures.error _
            · exact (ensures_readToken name _).map fun v hv => hv
  | null => exact Ensures.error _
  | str s => exact (ensures_callString s name args).map fun v hv => hv
  | _ => exact Ensures.error _

/-! ### The levels -/

/-- What the levels come to, with some fuel. -/
structure Singles (m : Machine) (fuel : Nat) : Prop where
  choice : ∀ live p, Ensures (fun r => r.1.IsSingle) (choice m fuel live p)
  disjunction : ∀ live p, Ensures (fun r => r.1.IsSingle) (disjunction m fuel live p)
  disjunctionRest : ∀ live {v : Value} p, v.IsSingle →
    Ensures (fun r => r.1.IsSingle) (disjunctionRest m fuel live v p)
  conjunction : ∀ live p, Ensures (fun r => r.1.IsSingle) (conjunction m fuel live p)
  conjunctionRest : ∀ live {v : Value} p, v.IsSingle →
    Ensures (fun r => r.1.IsSingle) (conjunctionRest m fuel live v p)
  chain : ∀ level live p, Ensures (fun r => r.1.IsSingle) (chain m fuel level live p)
  operand : ∀ level live p, Ensures (fun r => r.1.IsSingle) (operand m fuel level live p)
  chainRest : ∀ level live {v : Value} p, v.IsSingle →
    Ensures (fun r => r.1.IsSingle) (chainRest m fuel level live v p)
  unary : ∀ live p, Ensures (fun r => r.1.IsSingle) (unary m fuel live p)
  methodCalls : ∀ live {v : Value} p, v.IsSingle →
    Ensures (fun r => r.1.IsSingle) (methodCalls m fuel live v p)
  primary : ∀ live p, Ensures (fun r => r.1.IsSingle) (primary m fuel live p)

namespace Singles

section Levels

variable {m : Machine} {fuel : Nat} (ih : Singles m fuel)

include ih

theorem choice_succ (live : Bool) (p : Point) :
    Ensures (fun r => r.1.IsSingle) (Program.choice m (fuel + 1) live p) := by
  simp only [Program.choice]
  refine (ih.disjunction live p).bind ?_
  rintro ⟨condition, q⟩ hcondition
  dsimp only at hcondition ⊢
  split
  · exact Ensures.ok hcondition
  · refine Wellformed.truth_bind fun take => (ih.choice take _).bind ?_
    rintro ⟨first, r⟩ hfirst
    refine Ensures.bind_any fun r' => (ih.choice _ r').bind ?_
    rintro ⟨second, s⟩ hsecond
    refine Ensures.ok ?_
    dsimp only at hfirst hsecond ⊢
    split
    · exact Value.isSingle_null
    · split
      · exact hfirst
      · exact hsecond

theorem disjunction_succ (live : Bool) (p : Point) :
    Ensures (fun r => r.1.IsSingle) (Program.disjunction m (fuel + 1) live p) := by
  simp only [Program.disjunction]
  refine (ih.conjunction live p).bind ?_
  rintro ⟨left, q⟩ hleft
  exact ih.disjunctionRest live q hleft

theorem disjunctionRest_succ (live : Bool) {left : Value} (p : Point) (hleft : left.IsSingle) :
    Ensures (fun r => r.1.IsSingle) (Program.disjunctionRest m (fuel + 1) live left p) := by
  simp only [Program.disjunctionRest]
  split
  · exact Ensures.ok hleft
  · refine Wellformed.truth_bind fun done => Ensures.bind_any ?_
    rintro ⟨right, q⟩
    dsimp only
    split
    · exact ih.disjunctionRest live q hleft
    · split
      · exact ih.disjunctionRest live q (Value.isSingle_bool true)
      · refine Ensures.bind (P := Value.IsSingle) (Ensures.map_any Value.isSingle_bool) fun v hv => ?_
        exact ih.disjunctionRest live q hv

theorem conjunction_succ (live : Bool) (p : Point) :
    Ensures (fun r => r.1.IsSingle) (Program.conjunction m (fuel + 1) live p) := by
  simp only [Program.conjunction]
  refine (ih.chain .equality live p).bind ?_
  rintro ⟨left, q⟩ hleft
  exact ih.conjunctionRest live q hleft

theorem conjunctionRest_succ (live : Bool) {left : Value} (p : Point) (hleft : left.IsSingle) :
    Ensures (fun r => r.1.IsSingle) (Program.conjunctionRest m (fuel + 1) live left p) := by
  simp only [Program.conjunctionRest]
  split
  · exact Ensures.ok hleft
  · refine Wellformed.truth_bind fun done => Ensures.bind_any ?_
    rintro ⟨right, q⟩
    dsimp only
    split
    · exact ih.conjunctionRest live q hleft
    · split
      · exact ih.conjunctionRest live q (Value.isSingle_bool false)
      · refine Ensures.bind (P := Value.IsSingle) (Ensures.map_any Value.isSingle_bool) fun v hv => ?_
        exact ih.conjunctionRest live q hv

theorem chain_succ (level : Level) (live : Bool) (p : Point) :
    Ensures (fun r => r.1.IsSingle) (Program.chain m (fuel + 1) level live p) := by
  simp only [Program.chain]
  refine (ih.operand level live p).bind ?_
  rintro ⟨left, q⟩ hleft
  exact ih.chainRest level live q hleft

theorem operand_succ (level : Level) (live : Bool) (p : Point) :
    Ensures (fun r => r.1.IsSingle) (Program.operand m (fuel + 1) level live p) := by
  simp only [Program.operand]
  split
  · exact ih.chain _ live p
  · exact ih.unary live p

theorem chainRest_succ (level : Level) (live : Bool) {left : Value} (p : Point) (hleft : left.IsSingle) :
    Ensures (fun r => r.1.IsSingle) (Program.chainRest m (fuel + 1) level live left p) := by
  simp only [Program.chainRest]
  split
  · exact Ensures.ok hleft
  · next op q _ =>
    refine Ensures.bind_any ?_
    rintro ⟨right, r⟩
    dsimp only
    split
    · exact (Value.ensures_binary op left right).bind fun v hv => ih.chainRest level live r hv
    · exact ih.chainRest level live r hleft

theorem unary_succ (live : Bool) (p : Point) :
    Ensures (fun r => r.1.IsSingle) (Program.unary m (fuel + 1) live p) := by
  -- an operator in front of its operand
  have hsign : ∀ (q : Point) (f : Value → Except Fault Value),
      (∀ v : Value, v.IsSingle → Ensures Value.IsSingle (f v)) →
      Ensures (fun r => r.1.IsSingle)
        (Program.unary m fuel live q >>= fun x => whenLive live (f x.1) >>= fun v => pure (v, x.2)) := by
    intro q f hf
    refine (ih.unary live q).bind ?_
    rintro ⟨v, r⟩ hv
    exact (ensures_whenLive (hf v hv)).bind fun w hw => Ensures.ok hw
  simp only [Program.unary]
  split
  · exact hsign _ _ fun v _ => v.ensures_negate
  · exact hsign _ _ fun v _ => v.ensures_plus
  · exact hsign _ (fun v => v.truth.map fun b => .bool !b) fun v _ =>
      Ensures.map_any fun b => Value.isSingle_bool _
  · exact Ensures.error _
  · exact Ensures.error _
  · split
    · next kind q _ => exact hsign q (cast kind) fun v hv => ensures_cast kind hv
    · refine (ih.primary live p).bind ?_
      rintro ⟨v, q⟩ hv
      exact ih.methodCalls live q hv

theorem methodCalls_succ (live : Bool) {v : Value} (p : Point) (hv : v.IsSingle) :
    Ensures (fun r => r.1.IsSingle) (Program.methodCalls m (fuel + 1) live v p) := by
  simp only [Program.methodCalls]
  split
  · refine Ensures.bind_any ?_
    rintro ⟨name, q⟩
    refine Ensures.bind_any fun q => Ensures.bind_any ?_
    rintro ⟨args, r⟩
    dsimp only
    split
    · refine (ensures_callMethod m r.input v name args).bind ?_
      rintro ⟨w, input⟩ hw
      exact ih.methodCalls live _ hw
    · exact ih.methodCalls live r hv
  · exact Ensures.error _
  · exact Ensures.error _
  · exact Ensures.error _
  · exact Ensures.ok hv

theorem primary_succ (hread : ∀ name, Ensures Value.IsSingle (m.read name)) (live : Bool) (p : Point) :
    Ensures (fun r => r.1.IsSingle) (Program.primary m (fuel + 1) live p) := by
  have hvariable : ∀ (s : String) (q : Point), Ensures (fun r : Value × Point => r.1.IsSingle)
      (whenLive live (m.read s) >>= fun v => pure (v, q)) := fun s q =>
    (ensures_whenLive (hread s)).bind fun v hv => Ensures.ok hv
  simp only [Program.primary]
  split
  · exact Ensures.error _
  · exact (ensures_numberValue _).bind fun v hv => Ensures.ok hv
  · exact Ensures.ok (Value.isSingle_str _)
  · split
    · exact Ensures.ok (Value.isSingle_char _)
    · exact Ensures.error _
  · refine (ih.choice live _).bind ?_
    rintro ⟨v, q⟩ hv
    exact Ensures.bind_any fun q => Ensures.ok hv
  · exact Ensures.error _
  · exact Ensures.ok (Value.isSingle_bool true)
  · exact Ensures.ok (Value.isSingle_bool false)
  · exact Ensures.ok Value.isSingle_null
  · split
    · split
      · refine Ensures.bind_any ?_
        rintro ⟨member, q⟩
        dsimp only
        split
        · refine Ensures.bind_any ?_
          rintro ⟨args, r⟩
          exact (ensures_whenLive (ensures_callStatic _ member args)).bind fun v hv => Ensures.ok hv
        · split
          · next v hv => exact Ensures.ok (isSingle_of_staticField? hv)
          · exact Ensures.error _
      · exact hvariable _ _
    · split
      · exact Ensures.error _
      · exact hvariable _ _

end Levels

/-- Every level comes to such values where the variables hold them, by induction on the fuel. -/
theorem of_read {m : Machine} (hread : ∀ name, Ensures Value.IsSingle (m.read name)) (fuel : Nat) :
    Singles m fuel := by
  induction fuel with
  | zero => constructor <;> intros <;> exact Ensures.error _
  | succ fuel ih =>
    exact
      { choice := ih.choice_succ
        disjunction := ih.disjunction_succ
        disjunctionRest := ih.disjunctionRest_succ
        conjunction := ih.conjunction_succ
        conjunctionRest := ih.conjunctionRest_succ
        chain := ih.chain_succ
        operand := ih.operand_succ
        chainRest := ih.chainRest_succ
        unary := ih.unary_succ
        methodCalls := ih.methodCalls_succ
        primary := ih.primary_succ hread }

end Singles

/-- What an expression comes to. -/
theorem evaluate_isSingle {m : Machine} (hread : ∀ name, Ensures Value.IsSingle (m.read name))
    (text : List Char) : Ensures (fun r => r.1.IsSingle) (evaluate m text) := by
  refine Ensures.bind_any fun ts => ((Singles.of_read hread _).choice true _).bind ?_
  rintro ⟨v, p⟩ hv
  dsimp only
  split
  · exact Ensures.ok hv
  · exact Ensures.error _

end Coach.Program
