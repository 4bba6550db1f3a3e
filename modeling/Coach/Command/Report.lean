import Coach.Command.Basic
import Coach.Config.Loading
import Coach.Log.Journal
import Coach.Metrics.Registry
import Coach.Session.Assembly
import Coach.Storage.File

/-!
# Carrying out commands

What a command prints, which code it exits with, and what it leaves in the files.

## Main definitions

* `Station`: where commands are carried out
* `World`: what one command leaves to the next one
* `Report`, `Crash`: what a command comes to
* `carryOut`: carries out a command line
* `pathsOf`, `statePaths`: the files that it may read

## Design notes

A fault of the tutor's own ends a command with a complaint, and what was printed before it stands. Any
other fault is a crash. Settings that do not fit are a complaint as well, but a YAML text that cannot be
read is a crash.
-/

namespace Coach.Command

open Coach.Config Coach.Execution Coach.Files Coach.Finding Coach.Learner Coach.Log Coach.Metrics
  Coach.Service Coach.Session Coach.Storage Coach.Text Coach.Time Coach.Tutor

/-- Where commands are carried out: the variables, the services, the store of a session that keeps
nothing, and the clock. -/
structure Station (σ : Type) where
  environment : Environment
  gateways : Gateways σ
  scratch : Store Entries := memory
  clock : Clock

/-- What one command leaves to the next one. The entries are those of a session that keeps nothing, and
last no longer than it. -/
structure World (σ : Type) where
  tree : Tree
  services : σ
  entries : Entries := []
  nextRecord : Nat := 0

/-- What a command comes to. -/
structure Report where
  exitCode : Int
  printed : String := ""
  complaint : Option String := none
  metrics : Option String := none

/-- What no command answers for. -/
inductive Crash where
  | settings (fault : LoadFault)
  | fault (fault : Fault)

variable {σ : Type}

/-! ### The parts of a session -/

/-- The services as part of a world. -/
def worldGateways (g : Gateways σ) : Gateways (World σ) :=
  let set := fun services (w : World σ) => { w with services }
  { sandbox := g.sandbox.within World.services set
    groq := g.groq.within World.services set
    anthropic := fun settings request w =>
      let (response, services) := g.anthropic settings request w.services
      (response, { w with services }) }

/-- The store of a session. -/
def storeFor (station : Station σ) (settings : Settings) (keepsNothing : Bool) : Store (World σ) :=
  if keepsNothing then station.scratch.within World.entries fun entries w => { w with entries }
  else (fileStore settings.storage.path).within World.tree fun tree w => { w with tree }

/-- The parts of a session. -/
def partsFor (station : Station σ) (settings : Settings) (keepsNothing : Bool) :
    Except Fault (Parts (Remembering (World σ))) :=
  (assemble settings (worldGateways station.gateways) (storeFor station settings keepsNothing)).map
    (·.1)

/-- The start of a session, whose records go on from those of the commands before. -/
def beginSession (station : Station σ) (settings : Settings)
    (parts : Parts (Remembering (World σ))) (w : World σ) :
    Except Fault (Progress (Remembering (World σ))) :=
  (Progress.begin? parts.tiers settings.storage.historyLimit station.clock { model := w }).map
    fun p => { p with history := { p.history with next := w.nextRecord } }

/-! ### Tasks -/

/-- What a task works on. -/
structure Bench (σ : Type) where
  progress : Progress (Remembering (World σ))
  printed : String := ""
  complaint : Option String := none

/-- A task, which may end with a fault and keeps what it did before. -/
abbrev Task (σ α : Type) := ExceptT Fault (StateM (Bench σ)) α

/-- Prints a line. -/
def say (line : String) : Task σ Unit :=
  modify fun b => { b with printed := b.printed ++ line ++ "\n" }

/-- Says on the side what is wrong. -/
def complain (text : String) : Task σ Unit := modify fun b => { b with complaint := some text }

/-- Asks a session. -/
def ask {α : Type} (request : Progress (Remembering (World σ)) →
    Except Fault α × Progress (Remembering (World σ))) : Task σ α := do
  let (answer, progress) := request (← get).progress
  modify fun b => { b with progress }
  MonadExcept.ofExcept answer

/-- The files as they are now. -/
def treeNow : Task σ Tree := return (← get).progress.world.model.tree

/-- Writes a file. -/
def writeFile (path text : String) : Task σ Unit :=
  modify fun b =>
    let w := b.progress.world
    let tree := (w.model.tree.write? path text).getD w.model.tree
    { b with progress := { b.progress with world := { w with model := { w.model with tree } } } }

/-! ### Lines -/

/-- The line of a finding. -/
def findingLine (file : String) (d : Diagnostic) : String :=
  s!"{lastPart file}:{d.line}: {d.severity.name}: [{d.category.name}] {d.message}"

/-- A text with blanks before it up to a width. -/
def rightAligned (width : Nat) (text : String) : String :=
  String.ofList (List.replicate (width - text.length) ' ') ++ text

/-- A text with blanks behind it up to a width. -/
def leftAligned (width : Nat) (text : String) : String :=
  text ++ String.ofList (List.replicate (width - text.length) ' ')

/-- The date and the minute. -/
def minuteText (s : Stamp) : String :=
  let two := Stamp.padded 2
  s!"{Stamp.padded 4 s.year}-{two s.month}-{two s.day} {two s.hour}:{two s.minute}"

/-- The line of a mistake. -/
def mistakeLine (r : MistakeRecord) : String :=
  let symbol := rightAligned 6 (String.ofList (quoted r.symbol.toList))
  let count := rightAligned 4 (toString r.count)
  s!"{symbol}  {count}  last seen {minuteText r.lastSeen}"

/-- The beginning of the first line of a program that is not blank. -/
def sourceHead (source : String) : String :=
  String.ofList (((strip source.toList).takeWhile (· != '\n')).take 60)

/-- The line of a run. -/
def recordLine (r : RunRecord) : String :=
  let status := leftAligned 5 r.status.name
  s!"{minuteText r.time}:{Stamp.padded 2 r.time.second}  {status}  {sourceHead r.source}"

/-! ### Commands -/

/-- Applies a proposed change to a file, and says which lines it changed. -/
def patchFile (file code : String) (e : Explanation) (result : RunResult) : Task σ Unit := do
  let patched ← ask fun p => p.patchProgram code e.patchSpec result
  writeFile file patched.document.text
  let lines := ", ".intercalate (patched.changedLines.map toString)
  say s!"Patched lines: {lines}"

/-- Explains a result, and mends the file if that is asked for and can be done. -/
def explainResult (parts : Parts (Remembering (World σ))) (file code : String) (mends : Bool)
    (result : RunResult) : Task σ Unit := do
  let e ← ask (parts.explain code result)
  say s!"\n{e.summary}\n\n{e.detail}"
  say s!"\nFix: {e.fixSummary}"
  if mends && e.hasFix then patchFile file code e result

/-- Runs a program, and shows its output with the findings by their lines. -/
def runFile (parts : Parts (Remembering (World σ))) (file code : String) (stdin : List String)
    (explains mends : Bool) : Task σ Int := do
  let result ← ask (parts.run { code, stdin })
  say result.output
  if result.classification = .foreignLanguage then
    say s!"\nDetected {namedLanguage result}. Try: translate --from ..."
    return if result.exitCode = 0 then 1 else result.exitCode
  let byLine := result.diagnostics.mergeSort fun a b => decide (a.line ≤ b.line)
  byLine.forM fun d => say (findingLine file d)
  if explains || mends then explainResult parts file code mends result
  return result.exitCode

/-- Shows the findings in a program. -/
def scanFile (file code : String) : Task σ Int := do
  let found ← ask fun p => let (found, p) := p.scanProgram code; (.ok found, p)
  found.forM fun d => say (findingLine file d)
  return if found.isEmpty then 0 else 1

/-- Shows the mistakes, after some were forgotten. -/
def showMistakes (parts : Parts (Remembering (World σ))) (forgetting : Forgetting) :
    Task σ Int := do
  match forgetting with
  | .nothing => pure ()
  | .symbol symbol => ask (parts.resetMistake symbol)
  | .everything => ask parts.resetMistakes
  (← ask parts.mistakes).forM fun r => say (mistakeLine r)
  return 0

/-- Shows the runs, after they were forgotten if that is asked for. -/
def showRuns (parts : Parts (Remembering (World σ))) (clears : Bool) : Task σ Int := do
  if clears then ask parts.clearRuns
  (← ask parts.runs).forM fun r => say (recordLine r)
  return 0

/-- What a command does with the text of its file. -/
def withFile (file : String) (task : String → Task σ Int) : Task σ Int := do
  match (← treeNow).read? file with
  | some code => task code
  | none =>
    complain s!"Cannot read {file}"
    return 1

/-- What a command does. -/
def task (parts : Parts (Remembering (World σ))) : Command → Task σ Int
  | .run file stdin explains mends => withFile file fun code => runFile parts file code stdin explains mends
  | .scan file => withFile file fun code => scanFile file code
  | .translate file language => withFile file fun code => do
    say (← ask (parts.translate code language))
    return 0
  | .mistakes forgetting => showMistakes parts forgetting
  | .history clears => showRuns parts clears

/-! ### Reports -/

/-- The metrics of a session. -/
def metricsOf {τ : Type} (p : Progress τ) : Registry :=
  let byTier := fun metric (counts : List (String × Nat)) =>
    counts.map fun (tier, n) => (metric, n, [("tier", tier)])
  let counts : List (Registry.Metric × Nat × Labels) :=
    [(.runs, p.tallies.runs, []), (.superseded, p.tallies.superseded, [])] ++
      byTier .attempts p.tallies.attempts ++ byTier .failures p.tallies.failures ++
      [(.diagnostics, p.tallies.diagnostics, []), (.patchesSkipped, p.patchesSkipped, []),
        (.mistakes, p.tracker.observed, [])]
  counts.foldl (fun r (metric, n, labels) =>
    if n = 0 then r else (r.record metric (.int n) labels).1) Registry.empty

/-- What an answer comes to, with what was done on the bench. -/
def reportOf (showsMetrics : Bool) (b : Bench σ) : Except Fault Int → Except Crash Report
  | .ok exitCode => .ok (report exitCode b.complaint)
  | .error fault =>
    if fault.isA .tutor then .ok (report 1 (some fault.message)) else .error (.fault fault)
where
  /-- The report of a bench. -/
  report (exitCode : Int) (complaint : Option String) : Report :=
    { exitCode, complaint, printed := b.printed
      metrics := if showsMetrics then some (metricsOf b.progress).text else none }

/-- Carries out an invocation with its settings. -/
def carryOutWith (station : Station σ) (i : Invocation) (settings : Settings) (w : World σ) :
    Except Crash Report × World σ :=
  let w := { w with tree := (Journal.ofSettings settings.logging i.isDebug i.logForm).start w.tree
                    entries := [] }
  match partsFor station settings i.keepsNothing with
  | .error fault => (.error (.fault fault), w)
  | .ok parts => match beginSession station settings parts w with
    | .error fault => (.error (.fault fault), w)
    | .ok progress =>
      let (answer, b) := (task parts i.command).run.run { progress }
      (reportOf i.showsMetrics b answer,
        { b.progress.world.model with nextRecord := b.progress.history.next })

/-- What settings come to that cannot be loaded. -/
def unloaded (fault : LoadFault) : Except Crash Report :=
  let report := { exitCode := 1, complaint := some (fault.message?.getD "The settings are not valid") }
  match fault with
  | .yaml (.number _) => .ok report
  | .yaml _ | .key => .error (.settings fault)
  | _ => .ok report

/-- What is printed for a command line that is not carried out. -/
def Stop.report : Stop → Report
  | .help => { exitCode := 0, printed := usage }
  | .version => { exitCode := 0, printed := s!"{serviceName} {Log.version}\n" }
  | .misuse => { exitCode := 2, complaint := some usage }

/-! ### Files -/

/-- The files that a command line may read before its settings are known. -/
def pathsOf (env : Environment) (home : String) (words : List String) : List String :=
  match Invocation.ofWords words with
  | .error _ => []
  | .ok i =>
    variableFile :: i.config.toList ++ (lookupPair env pathVariable).toList ++
      usualPaths.map (expandHome home) ++ i.command.file?.toList

/-- The files that settings name. -/
def statePaths (home : String) (s : Settings) : List String :=
  [s.storage.path, expandHome home s.logging.file.path]

/-! ### Command lines -/

/-- The settings of a command line. -/
def settingsFor (env : Environment) (t : Tree) (words : List String) : Option Settings :=
  match Invocation.ofWords words with
  | .ok i => (loadSettings env t i.config).toOption
  | .error _ => none

/-- Carries out a command line. -/
def carryOut (station : Station σ) (words : List String) (w : World σ) :
    Except Crash Report × World σ :=
  match Invocation.ofWords words with
  | .error stop => (.ok stop.report, w)
  | .ok i => match loadSettings station.environment w.tree i.config with
    | .ok settings => carryOutWith station i settings w
    | .error fault => (unloaded fault, w)

end Coach.Command
