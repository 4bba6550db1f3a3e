import Coach.Proofs.Program.Operands
import Coach.Proofs.Program.Words

/-!
# Values of a type

What a variable of a type can hold is what conversion for the type makes, and conversion leaves it as it
is.

## Main definitions

* `Value.HasKind`: the values of a type
* `Value.IsSingle`: a character is one character

## Main statements

* `hasKind_of_coerce`: what is converted for a type is a value of the type
* `coerce_of_hasKind`: a value of a type is converted as it is

## Design notes

A string of any length can be held as a character, and conversion for a character does not look at it.  So
`IsSingle` is what has to be known of a value that is stored.
-/

namespace Coach.Program

/-! ### Values of a type -/

namespace Value

/-- An integer that a word of some bits holds. -/
def IsInteger (bits : Nat) (v : Value) : Prop := ∃ n, v = .int n ∧ InWord bits n

/-- The values of a type. -/
def HasKind (v : Value) : Kind → Prop
  | .int => v.IsInteger 32
  | .long => v.IsInteger 64
  | .short => v.IsInteger 16
  | .byte => v.IsInteger 8
  | .double | .float => ∃ x, v = .float x
  | .char => ∃ code, v = .char [code]
  | .boolean => ∃ b, v = .bool b
  | .string => v = .null ∨ ∃ s, v = .str s
  | .scanner => v = .scanner

/-- A character, if the value is one, is one character. -/
def IsSingle : Value → Prop
  | .char s => ∃ code, s = [code]
  | _ => True

@[simp] theorem isSingle_null : IsSingle .null := trivial

@[simp] theorem isSingle_bool (b : Bool) : IsSingle (.bool b) := trivial

@[simp] theorem isSingle_int (n : Int) : IsSingle (.int n) := trivial

@[simp] theorem isSingle_float (x : Float) : IsSingle (.float x) := trivial

@[simp] theorem isSingle_char (code : Nat) : IsSingle (.char [code]) := ⟨code, rfl⟩

@[simp] theorem isSingle_str (s : Str) : IsSingle (.str s) := trivial

@[simp] theorem isSingle_scanner : IsSingle .scanner := trivial

@[simp] theorem isSingle_ofNumber (n : Number) : (ofNumber n).IsSingle := by cases n <;> trivial

theorem HasKind.isSingle {v : Value} {kind : Kind} (h : v.HasKind kind) : v.IsSingle := by
  cases kind with
  | int | long | short | byte => obtain ⟨n, rfl, -⟩ := h; trivial
  | double | float => obtain ⟨x, rfl⟩ := h; trivial
  | char => obtain ⟨code, rfl⟩ := h; exact isSingle_char code
  | boolean => obtain ⟨b, rfl⟩ := h; trivial
  | string => obtain rfl | ⟨s, rfl⟩ := h <;> trivial
  | scanner => exact h ▸ isSingle_scanner

end Value

/-! ### Conversion -/

theorem inWord_coerceInt {bits : Nat} (h : 0 < bits) (v : Value) :
    Ensures (InWord bits) (coerceInt bits v) := by
  have hwrap : ∀ n, Ensures (InWord bits) (.ok (wrap bits n)) := fun n => Ensures.ok (inWord_wrap h n)
  have hpos := twoTo_pos (bits - 1)
  unfold coerceInt
  split
  · split
    · exact Ensures.ok ⟨by omega, by omega⟩
    · refine Ensures.ok ?_
      split
      · exact ⟨Int.le_refl _, by omega⟩
      · exact ⟨by omega, by omega⟩
    · exact hwrap _
  · exact Ensures.bind_any fun a => Ensures.bind_any fun n => hwrap n

/-- What is converted for a type is a value of the type. -/
theorem hasKind_of_coerce (kind : Kind) {v : Value} (hv : v.IsSingle) :
    Ensures (Value.HasKind · kind) (coerce kind v) := by
  have hint : ∀ {bits : Nat}, 0 < bits →
      Ensures (Value.IsInteger bits) ((coerceInt bits v).map Value.int) := fun hbits =>
    (inWord_coerceInt hbits v).map fun n hn => ⟨n, rfl, hn⟩
  cases kind with
  | int => exact hint (by decide)
  | long => exact hint (by decide)
  | short => exact hint (by decide)
  | byte => exact hint (by decide)
  | double | float =>
    exact Ensures.bind_any fun a => Ensures.bind_any fun x => Ensures.ok ⟨x, rfl⟩
  | char => cases v with
    | char s =>
      obtain ⟨code, rfl⟩ := hv
      exact Ensures.ok ⟨code, rfl⟩
    | int n => exact Ensures.ok ⟨_, rfl⟩
    | _ => exact Ensures.error _
  | boolean => cases v with
    | bool b => exact Ensures.ok ⟨b, rfl⟩
    | int n => exact Ensures.ok ⟨_, rfl⟩
    | _ => exact Ensures.error _
  | string => cases v with
    | null => exact Ensures.ok (Or.inl rfl)
    | str s => exact Ensures.ok (Or.inr ⟨s, rfl⟩)
    | _ => exact Ensures.error _
  | scanner => exact Ensures.error _

/-- A value of a type is converted for the type as it is. -/
theorem coerce_of_hasKind {kind : Kind} (hkind : kind ≠ .scanner) {v : Value} (h : v.HasKind kind) :
    coerce kind v = .ok v := by
  have hint : ∀ {bits : Nat}, 0 < bits → v.IsInteger bits →
      (coerceInt bits v).map Value.int = .ok v := by
    rintro bits hbits ⟨n, rfl, hn⟩
    exact congrArg (fun k => Except.ok (Value.int k)) (wrap_eq_self hbits hn)
  cases kind with
  | int => exact hint (by decide) h
  | long => exact hint (by decide) h
  | short => exact hint (by decide) h
  | byte => exact hint (by decide) h
  | double | float => obtain ⟨x, rfl⟩ := h; rfl
  | char => obtain ⟨code, rfl⟩ := h; rfl
  | boolean => obtain ⟨b, rfl⟩ := h; rfl
  | string => obtain rfl | ⟨s, rfl⟩ := h <;> rfl
  | scanner => exact absurd rfl hkind

end Coach.Program
