import Coach.Command.Word
import Coach.Config.Settings

/-!
# Commands

What a user asks for on a command line: a command, and how all commands are to be carried out.

## Main definitions

* `Command`, `Invocation`
* `Invocation.ofWords`: the invocation that a command line stands for
* `usage`: what help shows

## Design notes

Options for all commands stand before the name of the command, and those of a command behind it.
-/

namespace Coach

open Coach.Config Coach.Command

/-- Which mistakes are to be forgotten. -/
inductive Forgetting where
  | nothing
  | symbol (symbol : String)
  | everything
  deriving DecidableEq, Repr

/-- What a user asks for. -/
inductive Command where
  | run (file : String) (stdin : List String) (explains fixes : Bool)
  | scan (file : String)
  | translate (file language : String)
  | mistakes (forgetting : Forgetting)
  | history (clears : Bool)
  deriving DecidableEq, Repr

/-- A command, and how it is to be carried out. -/
structure Invocation where
  command : Command
  config : Option String := none
  isDebug : Bool := false
  logForm : Option LogForm := none
  keepsNothing : Bool := false
  showsMetrics : Bool := false

namespace Command

/-! ### Options -/

/-- The option that asks for help. -/
def helpEntry : Entry := { switch := .help, short := 'h', long := "help" }

/-- The options for all commands. -/
def generalOptions : List Entry :=
  [helpEntry,
   { switch := .version, long := "version" },
   { switch := .config, short := 'c', long := "config", takesValue := true },
   { switch := .debug, short := 'd', long := "debug" },
   { switch := .logForm, long := "log-format", takesValue := true, choices := ["json", "console"] },
   { switch := .forgetful, long := "no-persist" },
   { switch := .metrics, long := "metrics" }]

/-- The options of a run. -/
def runOptions : List Entry :=
  [helpEntry,
   { switch := .stdin, short := 'i', long := "stdin", takesValue := true },
   { switch := .explain, long := "explain" },
   { switch := .fix, long := "fix" }]

/-- The options of a translation. -/
def translateOptions : List Entry :=
  [helpEntry, { switch := .language, long := "from", takesValue := true }]

/-- The options of the list of mistakes. -/
def mistakesOptions : List Entry :=
  [helpEntry,
   { switch := .symbol, long := "reset", takesValue := true },
   { switch := .everything, long := "reset-all" }]

/-- The options of the list of runs. -/
def historyOptions : List Entry := [helpEntry, { switch := .clear, long := "clear" }]

/-! ### Reading -/

/-- The only operand. -/
def onlyOperand (g : Gathered) : Except Stop String :=
  match g.operands with
  | [file] => .ok file
  | _ => .error .misuse

/-- Refuses words that have no place. -/
def knownOnly (g : Gathered) : Except Stop Gathered :=
  if g.hasStranger || g.isDivided then .error .misuse else .ok g

/-- What a command line says about a command with a file. -/
def fileCommand (table : List Entry) (words : List String) : Except Stop (String × Gathered) := do
  let g ← knownOnly (← gather {} (itemsIn table words))
  return (← onlyOperand g, g)

/-- What a command line says about a command without a file. -/
def bareCommand (table : List Entry) (words : List String) : Except Stop Gathered := do
  let g ← knownOnly (← gather {} (itemsIn table words))
  if g.operands.isEmpty then return g else throw .misuse

/-- Which mistakes options ask to forget; an empty symbol is none. -/
def forgettingOf (g : Gathered) : Forgetting :=
  if g.has .everything then .everything
  else match (g.value? .symbol).filter (!·.isEmpty) with
    | some symbol => .symbol symbol
    | none => .nothing

/-- The command of a name, with the words behind it. -/
def ofWords (name : String) (words : List String) : Except Stop Command :=
  match name with
  | "run" => do
    let (file, g) ← fileCommand runOptions words
    return .run file (g.values .stdin) (g.has .explain) (g.has .fix)
  | "scan" => do
    let (file, _) ← fileCommand [helpEntry] words
    return .scan file
  | "translate" => do
    let (file, g) ← fileCommand translateOptions words
    match g.value? .language with
    | some language => return .translate file language
    | none => throw .misuse
  | "mistakes" => return .mistakes (forgettingOf (← bareCommand mistakesOptions words))
  | "history" => return .history ((← bareCommand historyOptions words).has .clear)
  | _ => .error .misuse

/-- The file that a command is about. -/
def file? : Command → Option String
  | .run file _ _ _ => some file
  | .scan file => some file
  | .translate file _ => some file
  | .mistakes _ => none
  | .history _ => none

end Command

/-- The invocation that a command line stands for. -/
def Invocation.ofWords (words : List String) : Except Stop Invocation := do
  let (before, found) := untilOperand (itemsIn Command.generalOptions words)
  let g ← gather {} before
  match found with
  | none => throw .misuse
  | some (name, words) =>
    if g.isDivided then throw .misuse
    let command ← Command.ofWords name words
    let g ← Command.knownOnly g
    return { command
             config := g.value? .config
             isDebug := g.has .debug
             logForm := (g.value? .logForm).bind LogForm.ofName?
             keepsNothing := g.has .forgetful
             showsMetrics := g.has .metrics }

/-- What help shows. -/
def usage : String :=
  "usage: ai-code-tutor [-h] [--version] [-c CONFIG] [-d] [--log-format json|console]\n" ++
  "                     [--no-persist] [--metrics] COMMAND ...\n\n" ++
  "commands:\n" ++
  "  run FILE [-i VALUE]... [--explain] [--fix]    compile and run a program\n" ++
  "  scan FILE                                     look for mistakes in a program\n" ++
  "  translate FILE --from LANGUAGE                translate a program to Java\n" ++
  "  mistakes [--reset SYMBOL | --reset-all]       show or forget mistakes\n" ++
  "  history [--clear]                             show or forget runs\n"

end Coach
