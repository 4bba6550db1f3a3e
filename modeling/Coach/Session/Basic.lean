import Coach.Execution.Desk
import Coach.Learner.History
import Coach.Learner.Tracker
import Coach.Source.Patch
import Coach.Tutor.Explainer
import Coach.Tutor.Translator

/-!
# Sessions

What an editor asks of the tutor: to run, to scan, to explain, to patch and to translate a program, and
to show what is remembered of the learner.

## Main definitions

* `Parts`: what a tutor is made of
* `Progress`: what a session has come to
* `Progress.begin?`: the start of a session
* `Parts.run`, `Parts.overlap`: a run, and runs that overlap
* `Parts.explain`, `Parts.translate`, `Progress.scanProgram`, `Progress.patchProgram`

## Design notes

A run is remembered after it is over. What goes wrong while it is remembered is nobody's concern: the
caller still has the result.
-/

namespace Coach.Session

open Coach.Execution Coach.Finding Coach.Learner Coach.Model Coach.Service Coach.Source Coach.Storage
  Coach.Tutor

/-- What a tutor is made of: tiers, a model or none, and a store. -/
structure Parts (σ : Type) where
  tiers : List (Tier σ)
  model : Option (Model σ) := none
  store : Store σ

/-- What a session has come to: the state of the parts, and what is kept beside them. -/
structure Progress (σ : Type) where
  world : σ
  tracker : Tracker
  history : History
  tallies : Tallies := {}
  patchesSkipped : Nat := 0

namespace Progress

variable {σ : Type}

/-- The start of a session, which takes a tier and a limit for the history. -/
def begin? (tiers : List (Tier σ)) (limit : Int) (clock : Time.Clock) (world : σ) :
    Except Fault (Progress σ) :=
  match History.limit? limit with
  | .error fault => .error fault
  | .ok limit =>
    if tiers.isEmpty then
      .error { kind := .value, message := "At least one execution tier is required" }
    else .ok { world, tracker := { clock }, history := { limit, clock } }

/-- The work of runs before the next one. -/
def work (p : Progress σ) : Work := { tallies := p.tallies }

/-- Remembers a result: its mistakes, and the run itself. -/
def remember (store : Store σ) (p : Progress σ) (done : RunRequest × RunResult) : Progress σ :=
  let seen := p.tracker.observe store done.2.output p.world
  let (_, history, world) := p.history.record store done.1.code done.2 seen.state
  { p with tracker := seen.tracker, history, world }

/-- Takes in what runs left behind. -/
def absorb (store : Store σ) (p : Progress σ) (w : Work) : Progress σ :=
  { w.results.foldl (remember store) p with tallies := w.tallies }

/-- The findings in a program. -/
def scanProgram (p : Progress σ) (code : String) : List Diagnostic × Progress σ :=
  let found := scan catalog (Document.ofText code)
  (found, { p with tallies := (p.work.found found.length).tallies })

/-- Applies a change to a program. A program in another language, as the run said for which the change
was proposed, is not changed. -/
def patchProgram (p : Progress σ) (code : String) (spec : PatchSpec) (result : Option RunResult) :
    Except Fault PatchResult × Progress σ :=
  match result.filter (·.classification = .foreignLanguage) with
  | some result => (.error (Fault.foreignLanguage (namedLanguage result)), p)
  | none =>
    let patched := (Document.ofText code).apply spec
    (.ok patched, { p with patchesSkipped := p.patchesSkipped + patched.skipped })

end Progress

namespace Parts

variable {σ : Type} (parts : Parts σ)

/-- Runs a program. -/
def run (request : RunRequest) (p : Progress σ) : Except Fault RunResult × Progress σ :=
  let (answer, work, world) := execute parts.tiers request p.work p.world
  (answer, { p with world }.absorb parts.store work)

/-- Runs programs that overlap. -/
def overlap (givenUp : Bool) (requests : List RunRequest) (p : Progress σ) :
    List (Except Fault RunResult) × Progress σ :=
  let desk : Desk σ := { tiers := parts.tiers, work := p.work }
  let (desk, world) := desk.overlap givenUp requests p.world
  (desk.answers, { p with world }.absorb parts.store desk.work)

/-- Explains the result of a run. -/
def explain (code : String) (result : RunResult) (p : Progress σ) :
    Except Fault Explanation × Progress σ :=
  let (answer, world) := Tutor.explain parts.model code result p.world
  (answer, { p with world })

/-- Translates a program in another language. -/
def translate (code language : String) (p : Progress σ) : Except Fault String × Progress σ :=
  let (answer, world) := Tutor.translate parts.model code language p.world
  (answer, { p with world })

/-- The mistakes of the learner. -/
def mistakes (p : Progress σ) : Except Fault (List MistakeRecord) × Progress σ :=
  let (answer, world) := Tracker.records parts.store p.world
  (answer, { p with world })

/-- Forgets a mistake. -/
def resetMistake (symbol : String) (p : Progress σ) : Except Fault Unit × Progress σ :=
  let r := p.tracker.reset parts.store symbol p.world
  (r.answer, { p with world := r.state, tracker := r.tracker })

/-- Forgets all mistakes. -/
def resetMistakes (p : Progress σ) : Except Fault Unit × Progress σ :=
  let r := p.tracker.resetAll parts.store p.world
  (r.answer, { p with world := r.state, tracker := r.tracker })

/-- The runs of the learner. -/
def runs (p : Progress σ) : Except Fault (List RunRecord) × Progress σ :=
  let (answer, world) := History.records parts.store p.world
  (answer, { p with world })

/-- Forgets the runs of the learner. -/
def clearRuns (p : Progress σ) : Except Fault Unit × Progress σ :=
  let (answer, world) := History.clear parts.store p.world
  (answer, { p with world })

end Parts

end Coach.Session
