import Coach.Command.Report
import Std.Time.DateTime.Timestamp

/-!
# The command line of the tutor

Reads the files that a command line may need, carries it out on them, and writes those that changed.
There is no way to the network from here: every service refuses to connect, and the tutor goes on with
what it can do on its own.
-/

namespace Coach.Command

open Coach.Config Coach.Files Coach.Service Coach.Session

/-- The variables of the process. -/
def processVariables : IO Environment := do
  let text ← try IO.FS.readFile "/proc/self/environ" catch _ => pure ""
  return (Text.splitOn (Char.ofNat 0) text.toList).filterMap fun entry =>
    (Text.breakOn? ['='] entry).map fun (name, value) => (String.ofList name, String.ofList value)

/-- Services that refuse to connect. -/
def refusing : Gateways Unit :=
  let refused : Fault := { kind := .connect, message := "There is no way to the network" }
  { sandbox := fun _ s => (.error refused, s)
    groq := fun _ s => (.error refused, s)
    anthropic := fun _ _ s => (.failed refused.message, s) }

/-- Adds those files to a tree that can be read. -/
def readFiles (t : Tree) (paths : List String) : IO Tree :=
  paths.foldlM (fun (t : Tree) (path : String) => do
    let text ← try some <$> IO.FS.readFile path catch _ => pure none
    return (text.bind (t.write? path)).getD t) t

/-- Writes the files of a tree that are not as they were. -/
def writeFiles (before after : Tree) : IO Unit := do
  for (path, text) in after.files do
    if lookupPair before.files path != some text then
      IO.FS.createDirAll (folderOf path)
      IO.FS.writeFile path text

/-- A number that is not likely to come twice. -/
def freshNumber : IO Nat := return (← IO.getRandomBytes 15).foldl (fun n b => n * 256 + b.toNat) 0

/-- The microseconds since the beginning of 1970. -/
def microsecondsNow : IO Int :=
  return (← Std.Time.Timestamp.now).toNanosecondsSinceUnixEpoch.val / 1000

/-- Shows a report, and gives the code to exit with. -/
def showReport (r : Report) : IO UInt32 := do
  IO.print r.printed
  r.complaint.forM IO.eprintln
  r.metrics.forM IO.eprintln
  return (r.exitCode % 256).toNat.toUInt32

/-- Shows a crash, and gives the code to exit with. -/
def showCrash : Crash → IO UInt32
  | .settings fault => do
    IO.eprintln (fault.message?.getD "The settings cannot be read")
    return 1
  | .fault fault => do
    IO.eprintln fault.message
    return 1

/-- Carries out a command line in the working directory. -/
def carryOutHere (words : List String) : IO UInt32 := do
  let environment ← processVariables
  let home := (lookupPair environment "HOME").getD "/"
  let empty : Tree := { home, here := toString (← IO.currentDir) }
  let tree ← readFiles empty (pathsOf environment home words)
  let tree ← match settingsFor environment tree words with
    | some settings => readFiles tree (statePaths home settings)
    | none => pure tree
  let clock : Time.Clock := { next := ← microsecondsNow, step := 0 }
  let station : Station Unit := { environment, gateways := refusing, clock }
  let (answer, w) := carryOut station words { tree, services := (), nextRecord := ← freshNumber }
  writeFiles tree w.tree
  match answer with
  | .ok report => showReport report
  | .error crash => showCrash crash

end Coach.Command

/-- Runs the tutor. -/
def main (words : List String) : IO UInt32 := Coach.Command.carryOutHere words
