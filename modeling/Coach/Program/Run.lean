import Coach.Program.Execution
import Coach.Program.Shape

/-!
# Running a program without a compiler

A source is checked for its shape; if that is sound, the top-level statements of its main function are
run as far as they are supported.

## Main definitions

* `Simulation`: what a run answers
* `simulate`: runs a source on some input values
-/

namespace Coach.Program

/-- What a run answers. -/
structure Simulation where
  output : String
  exitCode : Int
  executed : Nat := 0
  skipped : Nat := 0
  structural : Bool := false
  deriving DecidableEq, Repr

/-- The answer when nothing was printed and something was skipped. -/
def simulatedMessage : String := "(Output simulated: Program ran successfully)"

/-- The note behind what was printed when something was skipped. -/
def partialNote : String :=
  "(Output simulated: loops, conditionals and other unsupported statements were not run, " ++
    "so this output may be incomplete)"

/-- The answer when nothing was printed and nothing was skipped. -/
def silentMessage : String := "Program executed. (No output)"

/-- What stands before the message of an exception. -/
def faultOpening : Dialect → String
  | .java => "Exception in thread \"main\" "
  | .c => "Runtime Error: "

/-- The text that is shown for what was printed. -/
def shownOutput (printed : List Char) (skipped : Nat) : String :=
  if !printed.isEmpty && skipped ≠ 0 then String.ofList printed ++ "\n" ++ partialNote
  else if !printed.isEmpty then String.ofList printed
  else if skipped ≠ 0 then simulatedMessage
  else silentMessage

/-- Runs the main function of a source whose shape is sound. -/
def runMain (code : List Char) (dialect : Dialect) (stdin : List String) : Simulation :=
  let start : Machine := { dialect, input := Input.ofValues stdin }
  let (m, ending) := match mainBody? code dialect with
    | none => (start, Ending.normal)
    | some body => start.runBody body
  let (m, exitCode) := match ending with
    | .fault (.thrown why) => (m.print (Str.ofString (faultOpening dialect) ++ why.message), 1)
    | .exit code => (m, code)
    | _ => (m, 0)
  let printed := Text.dropRightWhile (· == '\n') (Str.toChars m.output.flatten)
  { output := shownOutput printed m.skipped
    exitCode
    executed := m.executed
    skipped := m.skipped }

/-- Checks and runs a source on some input values, one per line. -/
def simulate (source : String) (stdin : List String) : Simulation :=
  let code := source.toList
  let dialect := dialectOf code
  match checkShape code dialect with
  | some e => { output := e.message, exitCode := 1, structural := true }
  | none => runMain code dialect stdin

end Coach.Program
