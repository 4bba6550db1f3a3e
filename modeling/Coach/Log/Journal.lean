import Coach.Files.Tree
import Coach.Json.Reader
import Coach.Json.Writer
import Coach.Log.Entry
import Coach.Text.Case
import Coach.Text.Quoted
import Coach.Time.Stamp

/-!
# Logs in files

A log that keeps entries from some level on, and appends them to a file.

## Main definitions

* `Journal`: which entries are kept, in what form, and where
* `Journal.ofNames`: a journal by the names of a level and a form
* `Journal.ofSettings`: the journal that settings ask for
* `Journal.start`: makes the file
* `Journal.log`: writes an entry
* `Journal.entries?`: reads a file back

## Design notes

A file that cannot be made is no reason to stop: the journal goes on without it.
-/

namespace Coach.Log

open Coach.Config Coach.Files Coach.Text Coach.Time

/-- Which entries are kept, in what form, and in which file. -/
structure Journal where
  threshold : LogLevel := .info
  form : LogForm := .json
  path : Option String := none

/-- A name of a journal that is not known. -/
inductive NameFault where
  | level (name : String)
  | form (name : String)
  deriving DecidableEq, Repr

/-- The wording of a fault. -/
def NameFault.message : NameFault → String
  | .level name => String.ofList (quoted name.toList) ++ " is not a valid LogLevel"
  | .form name => String.ofList (quoted name.toList) ++ " is not a valid LogFormat"

namespace Journal

/-- A journal by the names of a level and a form, in any case. -/
def ofNames (level form : String) (path : Option String) : Except NameFault Journal :=
  let level := String.ofList (upper level.toList)
  let form := String.ofList (lower form.toList)
  match LogLevel.ofName? level, LogForm.ofName? form with
  | none, _ => .error (.level level)
  | some _, none => .error (.form form)
  | some threshold, some form => .ok { threshold, form, path }

/-- The journal that settings ask for. Someone who looks for faults sees everything, and a form that is
asked for counts more than the one in the settings. -/
def ofSettings (s : LoggingSettings) (isDebug : Bool := false) (form : Option LogForm := none) :
    Journal :=
  { threshold := if isDebug then .debug else s.level
    form := form.getD s.form
    path := if s.file.enabled then some s.file.path else none }

/-- The file of a journal. -/
def file? (j : Journal) (t : Tree) : Option String := j.path.map fun path => expandHome t.home (tidyPath path)

/-- Appends text to the file of a journal, if there is one that can be written. -/
def append (j : Journal) (text : String) (t : Tree) : Tree :=
  match j.file? t with
  | some path => (t.write? path ((t.raw? path).getD "" ++ text)).getD t
  | none => t

/-- Makes the file of a journal. -/
def start (j : Journal) (t : Tree) : Tree := j.append "" t

/-- The fields of an entry with its event, its origin and its time. -/
def entry (origin : String) (level : LogLevel) (event : String) (fields : Fields) (now : Stamp) :
    Fields :=
  let fields := withService (putPair fields "event" (.string event))
  let fields := putPair fields "logger" (.string origin)
  let fields := putPair fields "level" (.string (levelWord level))
  prepared (putPair fields "timestamp" (.string now.zuluText))

/-- A line for people: the event with its fields. -/
def plainLine (fields : Fields) : String :=
  " ".intercalate (fields.map fun (name, value) => name ++ "=" ++ value.line)

/-- The line of an entry. -/
def lineOf (form : LogForm) (fields : Fields) : String :=
  (match form with
    | .json => (Json.object fields).line
    | .console => plainLine fields) ++ "\n"

/-- Writes an entry unless its level is below the threshold. -/
def log (j : Journal) (origin : String) (level : LogLevel) (event : String) (fields : Fields)
    (now : Stamp) (t : Tree) : Tree :=
  if level.rank < j.threshold.rank then t
  else j.append (lineOf j.form (entry origin level event fields now)) t

/-- The entries in the text of a file, as far as its lines are objects. -/
def entriesIn (text : String) : List Fields :=
  (splitLines text.toList).filterMap fun line => (Json.read line).toOption.bind Json.members?

/-- The entries in the file of a journal, if there is one. -/
def entries? (path : String) (t : Tree) : Option (List Fields) :=
  (t.read? (expandHome t.home (tidyPath path))).map entriesIn

end Journal

end Coach.Log
