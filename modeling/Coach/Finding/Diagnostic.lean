import Coach.Text.Basic
import Coach.Text.Case
import Coach.Text.Quoted

/-!
# Findings

What a scan or a compiler reports about a line of a source, and the closed list of categories that
findings are sorted into.

## Main definitions

* `Severity`, `Category`, with their names
* `Category.parse`: a loosely spelled category
* `Diagnostic`, `Diagnostic.make`
-/

namespace Coach.Finding

open Coach.Text

/-- How serious a finding is. -/
inductive Severity where
  | warning
  | error
  deriving DecidableEq, Repr

/-- The kinds of error that are taught. -/
inductive Category where
  | integerOverflow
  | nullPointer
  | arrayIndexOutOfBounds
  | infiniteRecursion
  | offByOne
  | divisionByZero
  | stringEquality
  | otherLogical
  deriving DecidableEq, Repr

namespace Severity

/-- The name of a severity. -/
def name : Severity → String
  | .warning => "warning"
  | .error => "error"

/-- The severity of a name. -/
def ofName? : String → Option Severity
  | "warning" => some .warning
  | "error" => some .error
  | _ => none

@[simp] theorem ofName?_name (s : Severity) : ofName? s.name = some s := by cases s <;> rfl

end Severity

namespace Category

/-- All categories. -/
def all : List Category :=
  [.integerOverflow, .nullPointer, .arrayIndexOutOfBounds, .infiniteRecursion, .offByOne,
    .divisionByZero, .stringEquality, .otherLogical]

/-- The name of a category. -/
def name : Category → String
  | .integerOverflow => "INTEGER_OVERFLOW"
  | .nullPointer => "NULL_POINTER"
  | .arrayIndexOutOfBounds => "ARRAY_INDEX_OUT_OF_BOUNDS"
  | .infiniteRecursion => "INFINITE_RECURSION"
  | .offByOne => "OFF_BY_ONE"
  | .divisionByZero => "DIVISION_BY_ZERO"
  | .stringEquality => "STRING_EQUALITY"
  | .otherLogical => "OTHER_LOGICAL"

/-- The category of a name. -/
def ofName? (s : String) : Option Category := all.find? (·.name == s)

@[simp] theorem ofName?_name (c : Category) : ofName? c.name = some c := by cases c <;> rfl

/-- Other names under which a category is known. -/
def aliases : List (String × Category) :=
  [("POINTER_OUT_OF_BOUNDS", .arrayIndexOutOfBounds),
    ("OUT_OF_BOUNDS", .arrayIndexOutOfBounds),
    ("INDEX_OUT_OF_BOUNDS", .arrayIndexOutOfBounds),
    ("NULL_DEREFERENCE", .nullPointer),
    ("NULL_POINTER_EXCEPTION", .nullPointer),
    ("STACK_OVERFLOW", .infiniteRecursion),
    ("INFINITE_LOOP", .infiniteRecursion),
    ("UNBOUNDED_RECURSION", .infiniteRecursion),
    ("OVERFLOW", .integerOverflow),
    ("DIVIDE_BY_ZERO", .divisionByZero),
    ("STRING_IDENTITY_COMPARISON", .stringEquality),
    ("STRING_COMPARISON", .stringEquality)]

/-- A loosely spelled name as names are spelled here: in capitals, with underscores. -/
def normalise (s : String) : String :=
  String.ofList ((upper (strip s.toList)).map fun c => if c = '-' || c = ' ' then '_' else c)

/-- The category of a loosely spelled name; an unknown or missing one is of the last category. -/
def parse (s : Option String) : Category :=
  match s with
  | none => .otherLogical
  | some s =>
    let key := normalise s
    match ofName? key with
    | some c => c
    | none => match aliases.find? (·.1 == key) with
      | some (_, c) => c
      | none => .otherLogical

end Category

/-- A finding about a line; line zero stands for an unknown one. -/
structure Diagnostic where
  line : Nat
  message : String
  severity : Severity
  category : Category := .otherLogical
  deriving DecidableEq, Repr

/-- Why a record does not describe a finding. -/
inductive DiagnosticError where
  | unknownSeverity (name : String)
  | unknownCategory (name : String)
  | negativeLine (line : Int)
  deriving DecidableEq, Repr

/-- The wording of an error. -/
def DiagnosticError.message : DiagnosticError → String
  | .unknownSeverity name => String.ofList (quoted name.toList) ++ " is not a valid Severity"
  | .unknownCategory name => String.ofList (quoted name.toList) ++ " is not a valid ErrorCategory"
  | .negativeLine line => s!"Diagnostic line must be >= 0, got {line}"

namespace Diagnostic

/-- A finding about a line that is given as an integer. -/
def make (line : Int) (message : String) (severity : Severity) (category : Category) :
    Except DiagnosticError Diagnostic :=
  if line < 0 then .error (.negativeLine line)
  else .ok { line := line.toNat, message, severity, category }

/-- A finding from its written parts. -/
def ofNames (line : Int) (message severity category : String) : Except DiagnosticError Diagnostic :=
  match Severity.ofName? severity with
  | none => .error (.unknownSeverity severity)
  | some s => match Category.ofName? category with
    | none => .error (.unknownCategory category)
    | some c => make line message s c

end Diagnostic

end Coach.Finding
