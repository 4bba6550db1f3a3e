import Coach.Config.Settings
import Coach.Json.Shown
import Coach.Model.Reply
import Coach.Sandbox.Basic
import Coach.Service.Http
import Coach.Service.Retry

/-!
# Remote execution over the web

A sandbox behind a web service: one document with the program goes out, one with the result of each
stage comes back.

## Main definitions

* `jobDocument`: the document that is sent for a job
* `outcomeOf`: the outcome in a reply
* `remoteSandbox`: the sandbox
-/

namespace Coach.Sandbox

open Coach.Service Coach.Config

/-- The document that is sent for a job. -/
def jobDocument (job : Job) : Json :=
  .object [("language", .string job.language), ("version", .string job.version),
    ("files", .array [.object [("name", .string job.fileName), ("content", .string job.content)]]),
    ("stdin", .string job.stdin)]

/-- A fault of the sandbox. -/
def sandboxFault (message : String) : Fault := { kind := .sandbox, message }

/-- The exit code that a value stands for. -/
def exitCode? : Option Json → Option ExitCode
  | some (.number (.int n)) => some (.number n)
  | some (.bool b) => some (.flag b)
  | _ => none

/-- The text of a member, empty when it is absent. -/
def memberText (members : List (String × Json)) (key : String) : String :=
  ((lookupPair members key).getD .null).shownOr ""

/-- A stage in a reply: an object, whatever is in it. -/
def stage? : Option Json → Option Stage
  | some (.object members) =>
    some { output := memberText members "output", code := exitCode? (lookupPair members "code")
           stderr := memberText members "stderr" }
  | _ => none

/-- The outcome in the document that came back. -/
def outcomeOf (members : List (String × Json)) : Except Fault Outcome :=
  let run := stage? (lookupPair members "run")
  let compile := stage? (lookupPair members "compile")
  if run.isNone && compile.isNone then
    let message := ((lookupPair members "message").getD .null).shownOr "no run or compile stage"
    .error (sandboxFault s!"Sandbox returned no result: {message}")
  else .ok { run, compile }

/-- The fault of a body that cannot be read. -/
def bodyFault : BodyFault → Fault
  | .unread .tooDeep => { kind := .nesting, message := Json.Fault.tooDeep.message }
  | fault => sandboxFault s!"Sandbox returned invalid JSON: {fault.message}"

/-- The outcome in a reply. -/
def readOutcome (reply : WebReply) : Except Fault Outcome :=
  if !reply.isSuccess then .error (sandboxFault s!"Sandbox returned HTTP {reply.status}")
  else match reply.json with
    | .error fault => .error (bodyFault fault)
    | .ok (.object members) => outcomeOf members
    | .ok _ => .error (sandboxFault "Sandbox returned a non-object body")

/-- Does a job. A fault of the connection is a fault of the sandbox. -/
def executeRemotely {σ : Type} (settings : SandboxSettings) (web : WebService σ) :
    Collaborator σ Job Outcome := fun job s =>
  match web { address := settings.url, document := jobDocument job } s with
  | (.ok reply, s) => (readOutcome reply, s)
  | (.error fault, s) =>
    if fault.isA .transport then
      (.error (sandboxFault s!"Sandbox transport error: {fault.message}"), s)
    else (.error fault, s)

/-- The sandbox behind a web service. -/
def remoteSandbox {σ : Type} (settings : SandboxSettings) (web : WebService σ) : Sandbox σ :=
  { execute := executeRemotely settings web, timeout := .float settings.timeout }

end Coach.Sandbox
