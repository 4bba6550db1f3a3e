import Coach.Execution.Result
import Coach.Json.Reader
import Coach.Json.Writer
import Coach.Storage.Basic
import Coach.Time.Stamp

/-!
# The runs of a learner

The last runs, the newest first, kept in a store up to a limit.

## Main definitions

* `RunRecord`: a run as it is remembered
* `History`: a limit, a clock and a supply of names for records
* `History.record`, `History.records`, `History.clear`

## Design notes

A stored history that cannot be read is removed and counts as empty.
-/

namespace Coach.Learner

open Coach.Execution Coach.Finding Coach.Schema Coach.Service Coach.Storage Coach.Time

/-- How a run ended: well, or with something to mend. -/
inductive RunStatus where
  | done
  | error
  deriving DecidableEq, Repr

namespace RunStatus

/-- The name of a status. -/
def name : RunStatus → String
  | .done => "done"
  | .error => "error"

/-- The status of a name. -/
def ofName? : String → Option RunStatus
  | "done" => some .done
  | "error" => some .error
  | _ => none

@[simp] theorem ofName?_name (s : RunStatus) : ofName? s.name = some s := by cases s <;> rfl

end RunStatus

/-- A run as it is remembered. -/
structure RunRecord where
  id : String
  time : Stamp
  status : RunStatus
  source : String
  stdout : Option String
  compilerError : Option String
  diagnostics : List Diagnostic := []
  deriving DecidableEq, Repr

namespace RunRecord

/-- The record of a result. The output of a run that failed is taken for the compiler's. -/
def ofResult (id : String) (time : Stamp) (source : String) (result : RunResult) : RunRecord :=
  let succeeded := result.exitCode = 0
  { id, time, source
    status := if succeeded && result.diagnostics.isEmpty then .done else .error
    stdout := if succeeded then some result.output else none
    compilerError := if succeeded then none else some result.output
    diagnostics := result.diagnostics }

/-! ### As JSON -/

/-- A finding as it is stored. -/
def diagnosticJson (d : Diagnostic) : Json :=
  .object [("line", .int d.line), ("message", .string d.message),
    ("severity", .string d.severity.name), ("category", .string d.category.name)]

/-- A record as it is stored. -/
def json (r : RunRecord) : Json :=
  .object [("id", .string r.id), ("timestamp", .string r.time.zuluText),
    ("status", .string r.status.name), ("source_text", .string r.source),
    ("stdout", .optional (r.stdout.map .string)), ("compiler_error", .optional (r.compilerError.map .string)),
    ("diagnostics", .array (r.diagnostics.map diagnosticJson))]

/-- Reads a finding. -/
def readDiagnostic : Reader Diagnostic := fields fun o =>
  (fun line message severity category => ({ line := line.toNat, message, severity, category } : Diagnostic))
    <$> required o "line" (integerFrom 0 integer)
    <*> required o "message" text
    <*> required o "severity" (oneOf Severity.ofName?)
    <*> withDefault o "category" .otherLogical (oneOf Category.ofName?)

/-- Reads a record. -/
def read : Reader RunRecord := fields fun o =>
  RunRecord.mk
    <$> required o "id" text
    <*> required o "timestamp" stamp
    <*> required o "status" (oneOf RunStatus.ofName?)
    <*> required o "source_text" text
    <*> required o "stdout" (optional text)
    <*> required o "compiler_error" (optional text)
    <*> withDefault o "diagnostics" [] (listOf none readDiagnostic)

end RunRecord

/-- The key of the history in a store. -/
def historyKey : String := "compile_history"

/-- The records in a text; an empty text holds none. -/
def recordsOf? (text : String) : Option (List RunRecord) :=
  if text.isEmpty then some []
  else match Json.read text.toList with
    | .ok j => (listOf none RunRecord.read j).toOption
    | .error _ => none

/-- The text of records. -/
def textOfRecords (records : List RunRecord) : String :=
  (Json.array (records.map RunRecord.json)).compact

/-- A name of 32 hexadecimal digits. -/
def recordId (n : Nat) : String :=
  let digits := Nat.toDigits 16 n
  String.ofList (List.replicate (32 - digits.length) '0' ++ digits)

/-- How a history is kept: how many runs, by which clock, and which number names the next record. -/
structure History where
  limit : Nat := 20
  clock : Clock
  next : Nat := 0
  deriving DecidableEq, Repr

namespace History

variable {σ : Type}

/-- A limit, which is at least one. -/
def limit? (limit : Int) : Except Fault Nat :=
  if limit < 1 then .error { kind := .value, message := "History limit must be at least 1" }
  else .ok limit.toNat

/-- The records in a store, the newest first. A history that cannot be read is removed. -/
def records (store : Store σ) (s : σ) : Except Fault (List RunRecord) × σ :=
  match store.get historyKey s with
  | .error fault => (.error fault, s)
  | .ok none => (.ok [], s)
  | .ok (some text) => match recordsOf? text with
    | some found => (.ok found, s)
    | none => match store.remove historyKey s with
      | (.ok (), s) => (.ok [], s)
      | (.error fault, s) => (.error fault, s)

/-- Puts a run in front of the others and drops those past the limit. -/
def record (h : History) (store : Store σ) (source : String) (result : RunResult) (s : σ) :
    Except Fault RunRecord × History × σ :=
  let (now, clock) := h.clock.read
  let entry := RunRecord.ofResult (recordId h.next) now source result
  let h := { h with clock, next := h.next + 1 }
  match records store s with
  | (.error fault, s) => (.error fault, h, s)
  | (.ok found, s) =>
    match store.set historyKey (textOfRecords ((entry :: found).take h.limit)) s with
    | (.ok (), s) => (.ok entry, h, s)
    | (.error fault, s) => (.error fault, h, s)

/-- Forgets all runs. -/
def clear (store : Store σ) (s : σ) : Except Fault Unit × σ := store.remove historyKey s

end History

end Coach.Learner
