import Coach.Execution.Chain

/-!
# Runs that overlap

A desk takes runs that are handed in. A run that is handed in takes the place of the one before it:
that one is told to stop, and its caller hears that a newer run took its place.

## Main definitions

* `Flight`: a run on the desk, up to what its caller was told
* `Event`, `Desk.step`, `Desk.run`: what can happen on a desk, one thing at a time
* `Desk.pursue`, `Desk.overlap`: the schedule on which the callers of several runs start one after
  another

## Design notes

Everything that happens between two places where a run waits is one event, so that every interleaving
is a list of events. What a tier answers is part of the event: a tier that is told to stop may answer
that it was cancelled, and it may as well answer something else.

A run that is told to stop before its first step takes no step at all, and so it is not counted.
-/

namespace Coach.Execution

open Coach.Service

/-- A run on the desk. -/
structure Flight (σ : Type) where
  request : RunRequest
  token : Token := {}
  /-- Whether the run was told to stop, by a newer run or by its caller. -/
  interrupted : Bool := false
  /-- Where the run stands once it took its first step. -/
  standing : Option (Standing σ) := none
  /-- What the caller was told. -/
  told : Option (Except Fault RunResult) := none

namespace Flight

variable {σ : Type}

/-- Whether the run is over. -/
def isOver (f : Flight σ) : Bool := f.standing.any Standing.isOver

/-- Whether a run goes on: it is not over, and no newer run took its place. -/
def isLive (f : Flight σ) : Bool := !f.isOver && !f.token.cancelled

/-- A newer run takes the place of one, unless it is over. -/
def supersede (f : Flight σ) : Flight σ :=
  if f.isOver then f else { f with token := f.token.cancel, interrupted := true }

/-- The run is told to stop, and nothing takes its place. -/
def interrupt (f : Flight σ) : Flight σ := { f with interrupted := true }

/-- The caller is told something. -/
def hear (f : Flight σ) (answer : Except Fault RunResult) : Flight σ := { f with told := some answer }

/-- The run comes to stand somewhere. -/
def moveTo (f : Flight σ) (standing : Standing σ) : Flight σ := { f with standing := some standing }

end Flight

/-- Runs in the order in which they were handed in, the number of the one that is current, and what
they leave behind. -/
structure Desk (σ : Type) where
  tiers : List (Tier σ)
  flights : List (Flight σ) := []
  current : Option Nat := none
  work : Work := {}

/-- What can happen on a desk. -/
inductive Event where
  /-- A run is handed in. -/
  | submit (request : RunRequest)
  /-- A run takes its first step. -/
  | start (run : Nat)
  /-- The tier that a run waits for answers. -/
  | answer (run : Nat) (outcome : Except Fault Verdict)
  /-- The caller of a run gives it up. -/
  | abandon (run : Nat)
  /-- The caller of a run that is over hears of it. -/
  | deliver (run : Nat)
  deriving Repr

namespace Desk

variable {σ : Type}

/-- Changes one run. -/
def modify (d : Desk σ) (run : Nat) (f : Flight σ → Flight σ) : Desk σ :=
  { d with flights := d.flights.modify run f }

/-- The run that is current is over for the desk once its caller was told. -/
def vacate (d : Desk σ) (run : Nat) : Desk σ :=
  if d.current = some run then { d with current := none } else d

/-- The run that is current makes room for a newer one. -/
def makeRoom (d : Desk σ) : Desk σ :=
  match d.current with
  | some run => d.modify run Flight.supersede
  | none => d

/-- A run is handed in, and takes the place of the one that is current. -/
def submit (d : Desk σ) (request : RunRequest) : Desk σ :=
  { d.makeRoom with
    flights := d.makeRoom.flights ++ [{ request }]
    current := some d.flights.length }

/-- The first step of a run that waits for it. A run that was told to stop is over without one. -/
def start (d : Desk σ) (run : Nat) : Desk σ :=
  match d.flights[run]? with
  | some f =>
    if f.standing.isSome then d
    else if f.interrupted then d.modify run (·.moveTo (.over (.error Fault.cancelled)))
    else
      let (standing, work) := beginRun f.token f.request d.tiers d.work
      { d.modify run (·.moveTo standing) with work }
  | none => d

/-- The tier that a run waits for answers. -/
def answer (d : Desk σ) (run : Nat) (outcome : Except Fault Verdict) : Desk σ :=
  match d.flights[run]? with
  | some f => match f.standing with
    | some (.waiting tier rest failures) =>
      let (standing, work) := takeAnswer f.token f.request tier rest failures outcome d.work
      { d.modify run (·.moveTo standing) with work }
    | _ => d
  | none => d

/-- Whether a run was cancelled because a newer one took its place. -/
def wasReplaced (token : Token) : Except Fault RunResult → Bool
  | .error fault => fault.kind = .cancelled && token.cancelled
  | .ok _ => false

/-- The caller of a run hears of its end. A run that was cancelled because of a newer one is reported
as such. -/
def tell (d : Desk σ) (run : Nat) (token : Token) (answer : Except Fault RunResult) : Desk σ :=
  let replaced := wasReplaced token answer
  let told := if replaced then .error Fault.superseded else answer
  let work := if replaced then d.work.superseded else d.work
  { (d.modify run (·.hear told)).vacate run with work }

/-- The caller of a run gives it up. The run is told to stop; when it is over, the caller leaves
without its answer. -/
def abandon (d : Desk σ) (run : Nat) : Desk σ :=
  match d.flights[run]? with
  | some f =>
    if f.told.isSome then d
    else if f.isOver then d.tell run f.token (.error Fault.cancelled)
    else d.modify run Flight.interrupt
  | none => d

/-- The caller of a run that is over hears of it. -/
def deliver (d : Desk σ) (run : Nat) : Desk σ :=
  match d.flights[run]? with
  | some f => match f.standing, f.told with
    | some (.over answer), none => d.tell run f.token answer
    | _, _ => d
  | none => d

/-- One thing happens. An event that does not fit changes nothing. -/
def step (d : Desk σ) : Event → Desk σ
  | .submit request => d.submit request
  | .start run => d.start run
  | .answer run outcome => d.answer run outcome
  | .abandon run => d.abandon run
  | .deliver run => d.deliver run

/-- Several things happen one after another. -/
def run (d : Desk σ) (events : List Event) : Desk σ := events.foldl step d

/-- The tier that a run waits for. -/
def awaited? (d : Desk σ) (run : Nat) : Option (Tier σ × RunRequest) := do
  let f ← d.flights[run]?
  match f.standing with
  | some (.waiting tier ..) => some (tier, f.request)
  | _ => none

/-- What the caller of each run was told. One that was told nothing is still cancelled at the end. -/
def answers (d : Desk σ) : List (Except Fault RunResult) :=
  d.flights.map fun f => f.told.getD (.error Fault.cancelled)

/-! ### Several callers -/

/-- Asks up to `rounds` tiers for a run, until it is over or has to wait for one that takes time. The
answer of that one is kept for later. -/
def pursue (takesTime : Bool) (run : Nat) :
    Nat → Desk σ → σ → Desk σ × Option (Except Fault Verdict) × σ
  | 0, d, s => (d, none, s)
  | rounds + 1, d, s =>
    match d.awaited? run with
    | none => (d, none, s)
    | some (tier, request) =>
      let (outcome, s) := tier.attempt request s
      if takesTime && tier.isSlow request then (d, some outcome, s)
      else pursue takesTime run rounds (d.answer run outcome) s

/-- How the tier answers that a run waits for when the run is told to stop. -/
def interruptedAnswer (d : Desk σ) (run : Nat) (kept : Except Fault Verdict) : Except Fault Verdict :=
  match d.awaited? run with
  | some (tier, _) => if tier.isStubborn then kept else .error Fault.cancelled
  | none => kept

/-- A run that was told to stop comes to its end. -/
def settle (d : Desk σ) (run : Nat) (kept : Option (Except Fault Verdict)) : Desk σ :=
  match kept with
  | some outcome => d.answer run (d.interruptedAnswer run outcome)
  | none => d

/-- Hands in runs one after another, each as soon as the one before it is over or waits for a tier
that takes time. What such a tier answers to the last one is kept. -/
def overlapFrom (kept : Option (Except Fault Verdict)) (d : Desk σ) (s : σ) :
    List RunRequest → Desk σ × Option (Except Fault Verdict) × σ
  | [] => (d, kept, s)
  | request :: rest =>
    let run := d.flights.length
    let d := (((d.submit request).settle (run - 1) kept).deliver (run - 1)).start run
    let (d, kept, s) := d.pursue true run d.tiers.length s
    overlapFrom kept d s rest

/-- Hands in runs that overlap. At the end the tiers take their time, or the caller of the last run
gives it up. -/
def overlap (d : Desk σ) (givenUp : Bool) (requests : List RunRequest) (s : σ) : Desk σ × σ :=
  let (d, kept, s) := overlapFrom none d s requests
  let last := d.flights.length - 1
  let d := match kept with
    | some outcome =>
      if givenUp then (d.abandon last).settle last kept else d.answer last outcome
    | none => d
  let (d, _, s) := d.pursue false last d.tiers.length s
  (d.deliver last, s)

end Desk

end Coach.Execution
