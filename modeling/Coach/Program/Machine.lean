import Coach.Json.Basic
import Coach.Program.Input
import Coach.Program.Value

/-!
# The state of a simulated run

## Main definitions

* `Dialect`: the language of a program
* `Machine`: variables, output, input, counters, and what is no longer known
* `Machine.read`, `Machine.assign`, `Machine.declare`: the variables

## Design notes

Code that is skipped may have changed variables. Their names are collected in `unknown`, and reading
one of them fails until it is stored to again; `inputUnknown` says the same of the input position.

A name is bound once. The machine carries the proof, so that a variable is what `lookup?` finds and
what is said of all variables can be said by name.
-/

namespace Coach.Program

/-- The language of a program. -/
inductive Dialect where
  | java
  | c
  deriving DecidableEq, Repr

/-- A variable with its declared type. -/
structure Variable where
  kind : Kind
  value : Value

/-- The state of a run. -/
structure Machine where
  dialect : Dialect
  bound : List (String × Variable) := []
  output : List Str := []
  input : Input
  executed : Nat := 0
  skipped : Nat := 0
  unknown : List String := []
  inputUnknown : Bool := false
  names_nodup : (bound.map (·.1)).Nodup := by exact List.nodup_nil

namespace Machine

/-- The variable of a name. -/
def lookup? (m : Machine) (name : String) : Option Variable := lookupPair m.bound name

/-- Whether the value of a name is no longer known. -/
def isUnknown (m : Machine) (name : String) : Bool := m.unknown.contains name

/-- The value of a variable, when it is known. -/
def read (m : Machine) (name : String) : Except Fault Value :=
  match m.lookup? name with
  | none => unsupported (.unknownVariable name)
  | some v => if m.isUnknown name then unsupported (.unknownValue name) else .ok v.value

/-- Makes the value of a name known again. -/
def know (m : Machine) (name : String) : Machine := { m with unknown := m.unknown.filter (· ≠ name) }

/-- Makes a variable of a type and value, in place of one of that name. -/
def declare (m : Machine) (name : String) (kind : Kind) (value : Value) : Machine :=
  { m with
    bound := putPair m.bound name { kind, value }
    names_nodup := nodup_keys_putPair name _ m.names_nodup }

/-- Stores a value, converted to the type of the variable. A scanner cannot be stored to. -/
def assign (m : Machine) (name : String) (value : Value) : Except Fault Machine :=
  match m.lookup? name with
  | none => unsupported (.notAssignable name)
  | some v =>
    if v.kind = .scanner then unsupported (.notAssignable name)
    else do
      let value ← coerce v.kind value
      return (m.declare name v.kind value).know name

/-- Appends to the output. -/
def print (m : Machine) (text : Str) : Machine := { m with output := m.output ++ [text] }

/-! ### What the operations leave and change -/

theorem mem_bound_iff {m : Machine} {name : String} {v : Variable} :
    (name, v) ∈ m.bound ↔ m.lookup? name = some v :=
  mem_iff_lookupPair m.names_nodup

@[simp] theorem lookup?_declare_self (m : Machine) (name : String) (kind : Kind) (value : Value) :
    (m.declare name kind value).lookup? name = some { kind, value } :=
  lookupPair_putPair _ _ _

theorem lookup?_declare_of_ne (m : Machine) {name other : String} (kind : Kind) (value : Value)
    (h : other ≠ name) : (m.declare name kind value).lookup? other = m.lookup? other :=
  lookupPair_putPair_of_ne _ _ h

@[simp] theorem lookup?_know (m : Machine) (name other : String) :
    (m.know name).lookup? other = m.lookup? other := rfl

@[simp] theorem isUnknown_declare (m : Machine) (name other : String) (kind : Kind) (value : Value) :
    (m.declare name kind value).isUnknown other = m.isUnknown other := rfl

@[simp] theorem isUnknown_know_self (m : Machine) (name : String) :
    (m.know name).isUnknown name = false := by
  simp [isUnknown, know]

theorem isUnknown_know_of_ne (m : Machine) {name other : String} (h : other ≠ name) :
    (m.know name).isUnknown other = m.isUnknown other := by
  simp [isUnknown, know, h]

@[simp] theorem input_declare (m : Machine) (name : String) (kind : Kind) (value : Value) :
    (m.declare name kind value).input = m.input := rfl

@[simp] theorem input_know (m : Machine) (name : String) : (m.know name).input = m.input := rfl

/-- A store changes one variable, which is known afterwards, and keeps its type. -/
theorem assign_eq_ok {m m' : Machine} {name : String} {value : Value}
    (h : m.assign name value = .ok m') :
    ∃ v stored, m.lookup? name = some v ∧ v.kind ≠ .scanner ∧ coerce v.kind value = .ok stored ∧
      m' = (m.declare name v.kind stored).know name := by
  unfold assign at h
  cases hv : m.lookup? name with
  | none => simp [hv, unsupported] at h
  | some v =>
    simp only [hv] at h
    split at h
    · simp [unsupported] at h
    · next hkind =>
      cases hc : coerce v.kind value with
      | error why => simp [hc, bind, Except.bind] at h
      | ok stored =>
        simp only [hc, bind, Except.bind, pure, Except.pure, Except.ok.injEq] at h
        exact ⟨v, stored, rfl, hkind, hc, h.symm⟩

end Machine

end Coach.Program
