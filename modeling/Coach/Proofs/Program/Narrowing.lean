import Coach.Proofs.Number.Exact
import Coach.Proofs.Program.Words

/-!
# Doubles that become integers

A double that is stored as an integer loses its places.  What is past the range of the type then wraps, as
an integer would, while an infinity goes to the end of the range.  Clamping would send both to the end of
the range: to that of `int` or `long`, and for a smaller type its low bits would be kept.

So the two ways agree in the range of the type, and past it only where wrapping comes to the end of the
range by chance.  A smaller type keeps the low bits of the `int`, except of an infinity.

## Main definitions

* `clamp`: an integer or, where it is out of range, the end of the range
* `narrowed`: a double as an integer of some bits, clamped
* `WrapsAsClamped`: a double for which wrapping comes to the same

## Main statements

* `narrowed_mono`: clamping keeps the order of doubles
* `double_to_integer`: what a finite double becomes, and when that is what clamping gives
* `double_past_range`: a double for which the two differ, and order is lost
-/

namespace Coach.Program

open Binary64

/-! ### Clamping -/

/-- An integer or, where it is out of the range of some bits, the end of the range. -/
def clamp (bits : Nat) (n : Int) : Int := max (-(twoTo (bits - 1) : Int)) (min n (twoTo (bits - 1) - 1))

variable {bits : Nat}

theorem inWord_clamp (bits : Nat) (n : Int) : InWord bits (clamp bits n) := by
  have hpos := twoTo_pos (bits - 1)
  unfold InWord clamp
  omega

theorem clamp_mono (bits : Nat) {m n : Int} (h : m ≤ n) : clamp bits m ≤ clamp bits n := by
  unfold clamp
  omega

/-- Wrapping comes to the same as clamping when the two differ by a multiple of the size of the range. -/
theorem wrap_eq_clamp_iff (h : 0 < bits) {n : Int} :
    wrap bits n = clamp bits n ↔ n ≡ clamp bits n [ZMOD twoTo bits] := by
  rw [← wrap_eq_wrap_iff, wrap_eq_self h (inWord_clamp bits n)]

/-- A double as an integer of some bits: rounded toward zero and clamped, and zero if it is not a number. -/
def narrowed (bits : Nat) (x : Float) : Int :=
  match ofFloat x with
  | .nan => 0
  | .infinite negative => if negative then -(twoTo (bits - 1) : Int) else twoTo (bits - 1) - 1
  | .finite negative mantissa exponent => clamp bits (towardZero (value negative mantissa exponent))

/-- The end of the range, where a double is past it, differs from its integer part by a multiple of the size
of the range. -/
def WrapsAsClamped (bits : Nat) (x : Float) : Prop :=
  match ofFloat x with
  | .finite negative mantissa exponent =>
    let n := towardZero (value negative mantissa exponent)
    n ≡ clamp bits n [ZMOD twoTo bits]
  | _ => True

/-- A double in the range is stored as it is. -/
theorem wrapsAsClamped_of_inWord {x : Float} {negative : Bool} {mantissa : Nat} {exponent : Int}
    (hx : ofFloat x = .finite negative mantissa exponent)
    (h : InWord bits (towardZero (value negative mantissa exponent))) : WrapsAsClamped bits x := by
  have hclamp : ∀ {n : Int}, InWord bits n → clamp bits n = n := by
    rintro n ⟨hlow, hhigh⟩
    unfold clamp
    omega
  simp only [WrapsAsClamped, hx, hclamp h]
  rfl

/-- Clamping keeps the order of doubles. -/
theorem narrowed_mono (bits : Nat) {x y : Float} (h : (Number.float x).atMost (.float y) = true) :
    narrowed bits x ≤ narrowed bits y := by
  have hclamp : ∀ n, -(twoTo (bits - 1) : Int) ≤ clamp bits n ∧ clamp bits n ≤ twoTo (bits - 1) - 1 :=
    fun n => ⟨(inWord_clamp bits n).1, Int.le_sub_one_of_lt (inWord_clamp bits n).2⟩
  have hends : -(twoTo (bits - 1) : Int) ≤ twoTo (bits - 1) - 1 := (hclamp 0).1.trans (hclamp 0).2
  have horder : (ofFloat x).AtMost (ofFloat y) := Number.atMost_iff.mp h
  unfold narrowed
  generalize ofFloat x = v at horder
  generalize ofFloat y = w at horder
  match v, w, horder with
  | .infinite true, .infinite true, _ | .infinite false, .infinite false, _ => exact Int.le_refl _
  | .infinite true, .infinite false, _ => exact hends
  | .infinite true, .finite t n f, _ => exact (hclamp _).1
  | .finite s m e, .infinite false, _ => exact (hclamp _).2
  | .finite s m e, .finite t n f, horder => exact clamp_mono bits (towardZero_mono horder)

/-! ### Storing -/

theorem coerceInt_finite {x : Float} {negative : Bool} {mantissa : Nat} {exponent : Int}
    (hx : ofFloat x = .finite negative mantissa exponent) (bits : Nat) :
    coerceInt bits (.float x) = .ok (wrap bits (truncateDyadic negative mantissa exponent)) := by
  simp only [coerceInt, hx]

/-- A double is stored as an integer of some bits, and as it is clamped exactly when the wrapping does not
matter. -/
theorem coerceInt_double (h : 0 < bits) (x : Float) :
    ∃ n, coerceInt bits (.float x) = .ok n ∧ (n = narrowed bits x ↔ WrapsAsClamped bits x) := by
  unfold narrowed WrapsAsClamped
  cases hx : ofFloat x with
  | nan => exact ⟨0, by simp only [coerceInt, hx], iff_of_true rfl trivial⟩
  | infinite negative => exact ⟨_, by simp only [coerceInt, hx], iff_of_true rfl trivial⟩
  | finite negative mantissa exponent =>
    rw [coerceInt_finite hx, truncateDyadic_eq]
    exact ⟨_, rfl, wrap_eq_clamp_iff h⟩

/-- The low bits of the least integer of more bits are all zero, those of the greatest are all one. -/
theorem wrap_ends {wider : Nat} (h : 0 < bits) (hlt : bits < wider) :
    wrap bits (-(twoTo (wider - 1) : Int)) = 0 ∧ wrap bits ((twoTo (wider - 1) : Int) - 1) = -1 := by
  have hpos := twoTo_pos (bits - 1)
  have hend : (twoTo (wider - 1) : Int) ≡ 0 [ZMOD twoTo bits] :=
    Int.modEq_zero_iff_dvd.mpr (mod_cast Nat.pow_dvd_pow 2 (Nat.le_sub_one_of_lt hlt))
  constructor
  · rw [← wrap_eq_self h (show InWord bits 0 from ⟨by omega, by omega⟩), wrap_eq_wrap_iff]
    exact hend.neg
  · rw [← wrap_eq_self h (show InWord bits (-1) from ⟨by omega, by omega⟩), wrap_eq_wrap_iff]
    exact hend.sub_right 1

/-- Fewer bits keep the low bits, except of an infinity. -/
theorem coerceInt_narrower {wider : Nat} (h : 0 < bits) (hlt : bits < wider) {x : Float} {n : Int}
    (hn : coerceInt wider (.float x) = .ok n) :
    coerceInt bits (.float x) = .ok (wrap bits n) ↔ ∀ negative, ofFloat x ≠ .infinite negative := by
  have hpos := twoTo_pos (bits - 1)
  obtain ⟨hleast, hgreatest⟩ := wrap_ends h hlt
  unfold coerceInt at *
  dsimp only at *
  cases hx : ofFloat x with
  | nan =>
    rw [hx] at hn
    obtain rfl := Except.ok.inj hn
    have hzero : wrap bits 0 = 0 := wrap_eq_self h ⟨by omega, by omega⟩
    exact iff_of_true (congrArg Except.ok hzero.symm) nofun
  | infinite negative =>
    rw [hx] at hn
    obtain rfl := Except.ok.inj hn
    -- the least integer of fewer bits is not zero, and the greatest is not minus one
    refine iff_of_false ?_ fun hnot => hnot negative rfl
    cases negative with
    | true =>
      simp only [if_true, hleast, Except.ok.injEq]
      omega
    | false =>
      simp only [Bool.false_eq_true, if_false, hgreatest, Except.ok.injEq]
      omega
  | finite negative mantissa exponent =>
    rw [hx] at hn
    obtain rfl := Except.ok.inj hn
    exact iff_of_true (congrArg Except.ok (wrap_wrap hlt.le _).symm) nofun

/-- **Doubles as integers.**  A double is always stored as an `int` or a `long`.  What is stored is the
double rounded toward zero and clamped, and zero if it is not a number, exactly when wrapping comes to the
same, and among such doubles order is kept.  A `short` and a `byte` hold the low bits of the `int` exactly
when the double is no infinity. -/
theorem double_to_integer (x : Float) :
    ∃ i l : Int, coerce .int (.float x) = .ok (.int i) ∧ coerce .long (.float x) = .ok (.int l) ∧
      (i = narrowed 32 x ↔ WrapsAsClamped 32 x) ∧ (l = narrowed 64 x ↔ WrapsAsClamped 64 x) ∧
      (coerce .short (.float x) = .ok (.int (wrap 16 i)) ↔ ∀ negative, ofFloat x ≠ .infinite negative) ∧
      (coerce .byte (.float x) = .ok (.int (wrap 8 i)) ↔ ∀ negative, ofFloat x ≠ .infinite negative) ∧
      ∀ (y : Float) (i' l' : Int), (Number.float x).atMost (.float y) = true →
        coerce .int (.float y) = .ok (.int i') → coerce .long (.float y) = .ok (.int l') →
        (WrapsAsClamped 32 x → WrapsAsClamped 32 y → i ≤ i') ∧
          (WrapsAsClamped 64 x → WrapsAsClamped 64 y → l ≤ l') := by
  obtain ⟨i, hi, hiff⟩ := coerceInt_double (show 0 < 32 by decide) x
  obtain ⟨l, hl, hliff⟩ := coerceInt_double (show 0 < 64 by decide) x
  have hmap : ∀ {bits : Nat} {v : Value} {n : Int},
      (coerceInt bits v).map Value.int = .ok (.int n) ↔ coerceInt bits v = .ok n := by
    intro bits v n
    cases coerceInt bits v with
    | error why => exact iff_of_false nofun nofun
    | ok k => simp [Except.map]
  refine ⟨i, l, hmap.mpr hi, hmap.mpr hl, hiff, hliff, ?_, ?_, ?_⟩
  · exact hmap.trans (coerceInt_narrower (by decide) (by decide) hi)
  · exact hmap.trans (coerceInt_narrower (by decide) (by decide) hi)
  · intro y i' l' hle hi' hl'
    obtain ⟨_, hy, hyiff⟩ := coerceInt_double (show 0 < 32 by decide) y
    obtain ⟨_, hy', hyiff'⟩ := coerceInt_double (show 0 < 64 by decide) y
    obtain rfl := Except.ok.inj (hy.symm.trans (hmap.mp hi'))
    obtain rfl := Except.ok.inj (hy'.symm.trans (hmap.mp hl'))
    refine ⟨fun hx hx' => ?_, fun hx hx' => ?_⟩
    · rw [hiff.mpr hx, hyiff.mpr hx']
      exact narrowed_mono 32 hle
    · rw [hliff.mpr hx, hyiff'.mpr hx']
      exact narrowed_mono 64 hle

/-- Two doubles in the range, in their order. -/
theorem double_to_integer_small :
    (Number.float 1.5).atMost (.float 2.5) = true ∧ WrapsAsClamped 32 1.5 ∧ WrapsAsClamped 32 2.5 ∧
      ∃ i i' : Int, coerce .int (.float 1.5) = .ok (.int i) ∧ coerce .int (.float 2.5) = .ok (.int i') ∧
        i ≤ i' := by
  have hle : (Number.float 1.5).atMost (.float 2.5) = true := by decide +kernel
  have hx : ofFloat 1.5 = .finite false 6755399441055744 (-52) := by decide +kernel
  have hy : ofFloat 2.5 = .finite false 5629499534213120 (-51) := by decide +kernel
  have hx' : WrapsAsClamped 32 1.5 := wrapsAsClamped_of_inWord hx (by rw [← truncateDyadic_eq]; decide)
  have hy' : WrapsAsClamped 32 2.5 := wrapsAsClamped_of_inWord hy (by rw [← truncateDyadic_eq]; decide)
  obtain ⟨i, l, hi, -, -, -, -, -, hmono⟩ := double_to_integer 1.5
  obtain ⟨i', l', hi', hl', -⟩ := double_to_integer 2.5
  exact ⟨hle, hx', hy', i, i', hi, hi', (hmono 2.5 i' l' hle hi' hl').1 hx' hy'⟩

/-- Past the range of `int` a double wraps, so that a larger one comes to less; and of an infinity a `byte`
does not hold the low bits of the `int`. -/
theorem double_past_range :
    (coerce .int (.float 3000000000) = .ok (.int (-1294967296)) ∧ narrowed 32 3000000000 = 2147483647) ∧
      ((Number.float 2147483647).atMost (.float 2147483648) = true ∧
        coerce .int (.float 2147483647) = .ok (.int 2147483647) ∧
        coerce .int (.float 2147483648) = .ok (.int (-2147483648))) ∧
      (coerce .int (.float infinity) = .ok (.int 2147483647) ∧
        coerce .byte (.float infinity) = .ok (.int 127) ∧ wrap 8 2147483647 = -1) := by
  have hbig : ofFloat 3000000000 = .finite false 6291456000000000 (-21) := by decide +kernel
  have hlast : ofFloat 2147483647 = .finite false 9007199250546688 (-22) := by decide +kernel
  have hnext : ofFloat 2147483648 = .finite false 4503599627370496 (-21) := by decide +kernel
  have hinfinity : ofFloat infinity = .infinite false := by decide +kernel
  have hint : ∀ {x : Float} {n : Int}, coerceInt 32 (.float x) = .ok n →
      coerce .int (.float x) = .ok (.int n) := fun h => congrArg (Except.map Value.int) h
  refine ⟨⟨hint (coerceInt_finite hbig 32), ?_⟩,
    ⟨by decide +kernel, hint (coerceInt_finite hlast 32), hint (coerceInt_finite hnext 32)⟩, ?_⟩
  · simp only [narrowed, hbig, ← truncateDyadic_eq]
    decide
  · simp only [coerce, coerceInt, hinfinity]
    exact ⟨rfl, rfl, by decide⟩

end Coach.Program
