import Coach.Proofs.Learner.Calls
import Coach.Proofs.Learner.Stored
import Coach.Proofs.Lists
import Coach.Proofs.Storage.FileStore
import Coach.Proofs.Time.Stamps
import Mathlib.Data.List.Forall2

/-!
# The records are those of the last runs

Over a store that at first holds no records, histories that keep to one limit remember the runs since
they were last cleared, the newest first, up to that limit.

## Main definitions

* `recorded`: the runs that were recorded since the last clearing
* `Tells`: a record tells of a run

## Main statements

* `foldr_onRecords`: the records after any calls
* `histories_keep_last_runs`: what histories answer after any calls
-/

namespace Coach.Learner

open Coach.Execution Coach.Service Coach.Storage Coach.Time

/-! ### What the calls say -/

/-- A run with the history that it was recorded by. -/
structure Recorded where
  history : History
  source : String
  result : RunResult

/-- The runs that were recorded since the last clearing, the newest first. -/
def recorded : List Call → List Recorded
  | [] => []
  | call :: earlier => match call with
    | .record history source result => { history, source, result } :: recorded earlier
    | .clear => []
    | _ => recorded earlier

/-- A record tells of a run: it has the program and the findings, says whether all went well, and takes
the output for the program's own where the run succeeded, and otherwise for the compiler's. -/
structure Tells (run : Recorded) (r : RunRecord) : Prop where
  source_eq : r.source = run.source
  diagnostics_eq : r.diagnostics = run.result.diagnostics
  status_eq_done_iff : r.status = .done ↔ run.result.exitCode = 0 ∧ run.result.diagnostics = []
  stdout_eq : r.stdout = if run.result.exitCode = 0 then some run.result.output else none
  compilerError_eq : r.compilerError = if run.result.exitCode = 0 then none else some run.result.output
  time_eq : r.time = run.history.clock.read.1
  id_eq : r.id = recordId run.history.next

/-- A history that is called keeps to the given limit. -/
def Call.KeepsTo (limit : Nat) : Call → Prop
  | .record history _ _ => history.limit = limit
  | _ => True

/-- The calls of trackers. -/
def Call.OfTracker : Call → Prop
  | .record .. | .clear | .runs => False
  | _ => True

/-! ### Records of runs -/

/-- The record of a run. -/
def Recorded.entry (run : Recorded) : RunRecord := run.history.entry run.source run.result

theorem tells_entry (run : Recorded) : Tells run run.entry where
  source_eq := rfl
  diagnostics_eq := rfl
  status_eq_done_iff := by
    simp only [Recorded.entry, History.entry, RunRecord.ofResult, Bool.and_eq_true, decide_eq_true_iff,
      List.isEmpty_iff]
    split <;> simp_all
  stdout_eq := by simp only [Recorded.entry, History.entry, RunRecord.ofResult]
  compilerError_eq := by simp only [Recorded.entry, History.entry, RunRecord.ofResult]
  time_eq := rfl
  id_eq := rfl

variable {calls earlier : List Call} {limit : Nat}

/-- Records that are read back are kept as they are. -/
theorem keptRecords_eq {records : List RunRecord} (h : ∀ r ∈ records, r.Storable) :
    keptRecords records = records := by
  rw [keptRecords, recordsOf?_textOfRecords h]
  rfl

/-- The records after any calls are those of the last runs. -/
theorem foldr_onRecords (hlimit : ∀ call ∈ calls, call.KeepsTo limit)
    (hread : ∀ run ∈ recorded calls, run.entry.Storable) :
    calls.foldr Call.onRecords [] = ((recorded calls).take limit).map Recorded.entry := by
  induction calls with
  | nil => rw [recorded, List.take_nil, List.map_nil, List.foldr_nil]
  | cons call earlier ih =>
    have ih := ih fun c hc => hlimit c (List.mem_cons_of_mem _ hc)
    rw [List.foldr_cons]
    cases call with
    | record history source result =>
      let run : Recorded := { history, source, result }
      obtain rfl : history.limit = limit := hlimit _ List.mem_cons_self
      have hrun : recorded (.record history source result :: earlier) = run :: recorded earlier := rfl
      rw [hrun] at hread ⊢
      have hnext : (run.entry :: ((recorded earlier).take history.limit).map Recorded.entry).take
          history.limit = ((run :: recorded earlier).take history.limit).map Recorded.entry := by
        rw [← List.map_cons (f := Recorded.entry), ← List.map_take, take_cons_take]
      rw [ih fun r hr => hread r (List.mem_cons_of_mem _ hr)]
      refine (congrArg keptRecords hnext).trans (keptRecords_eq fun r hr => ?_)
      obtain ⟨run', hrun', rfl⟩ := List.mem_map.mp hr
      exact hread run' (List.mem_of_mem_take hrun')
    | clear => rw [recorded, List.take_nil, List.map_nil, Call.onRecords]
    | observe | reset | resetAll | count | mistakes | runs => exact ih hread

/-- It is enough that the clock shows a time of the years 1 to 9999 and that the numbers of lines can be
written as integers. -/
theorem storable_entry {run : Recorded} (hclock : run.history.clock.InRange)
    (hlines : ∀ d ∈ run.result.diagnostics, (natDigits d.line).length ≤ digitLimit) :
    run.entry.Storable where
  time := Stamp.ofText?_zuluText hclock.isUniversal_read
  lines := hlines

/-! ### What histories answer -/

section

variable {σ : Type} {store : Store σ} {Holds : σ → Contents → Prop} {s : σ} {c : Contents}

theorem historyRecords_fst (hstore : store.Keeps Holds) (hs : Holds s c) :
    (History.records store s).1 = .ok (held historyKey recordsOf? c) := by
  have hhas : HasRecords Holds c (held historyKey recordsOf? c) s := has_held hs
  obtain ⟨s', hload, -⟩ := hhas.load hstore
  rw [historyRecords_eq, hload]

theorem Call.OfTracker.onRecords_eq {call : Call} (h : call.OfTracker) (found : List RunRecord) :
    call.onRecords found = found := by
  cases call with
  | record | clear | runs => exact h.elim
  | observe | reset | resetAll | count | mistakes => rfl

/-- Over a store that keeps what it is given and at first holds no records that can be read, histories
that keep to one limit answer with the records of the last runs since the last clearing, the newest
first, up to the limit; and no call of a tracker changes what they answer. -/
theorem histories_keep_last_runs (hstore : store.Keeps Holds) (hs : Holds s c)
    (hstart : held historyKey recordsOf? c = []) (hlimit : ∀ call ∈ calls, call.KeepsTo limit)
    (hread : ∀ run ∈ recorded calls, run.entry.Storable) :
    (∃ found, (History.records store (after store calls s)).1 = .ok found ∧
      List.Forall₂ Tells ((recorded calls).take limit) found) ∧
    ∀ call : Call, call.OfTracker →
      (History.records store (call.run store (after store calls s))).1 =
        (History.records store (after store calls s)).1 := by
  obtain ⟨c', hs', -, hheld⟩ := after_spec hstore hs calls
  rw [hstart, foldr_onRecords hlimit hread] at hheld
  rw [historyRecords_fst hstore hs']
  refine ⟨⟨_, rfl, ?_⟩, fun call hcall => ?_⟩
  · rw [hheld, List.forall₂_map_right_iff, List.forall₂_same]
    exact fun run _ => tells_entry run
  · obtain ⟨c'', hs'', -, hrecords⟩ := call.run_spec hstore hs'
    rw [historyRecords_fst hstore hs'', hrecords, hcall.onRecords_eq]

/-- Two histories that keep two runs each, over a store in a file that holds something else at first:
the first of three runs is gone, and a tracker takes nothing away. -/
theorem histories_keep_last_runs_two_histories :
    let first : History := { limit := 2, clock := { next := 0 } }
    let second : History := { limit := 2, clock := { next := 5000000 }, next := 7 }
    let good : RunResult := { output := "Done.", exitCode := 0, classification := .success }
    let bad : RunResult :=
      { output := "Main.java:3: ';' expected", exitCode := 1, classification := .error
        diagnostics := [{ line := 3, message := "';' expected", severity := .error
                          category := .otherLogical }] }
    let calls : List Call :=
      [.record second "c" good, .observe { clock := { next := 0 } } "Main.java:3: ';' expected",
        .record first "b" bad, .record first "a" good]
    let t : Files.Tree := { home := "/h", files := [("s.json", "spoilt")] }
    ∃ found, (History.records (fileStore "s.json") (after (fileStore "s.json") calls t)).1 = .ok found ∧
      List.Forall₂ Tells
        [{ history := second, source := "c", result := good }, { history := first, source := "b", result := bad }]
        found := by
  intro first second good bad calls t
  have htext : ∀ text, t.read? "s.json" = some text → IsDecided text := by
    intro text htext
    have hfile : t.read? "s.json" = some "spoilt" := by decide
    obtain rfl : "spoilt" = text := Option.some.inj (hfile.symm.trans htext)
    exact .inr ⟨.expectedValue, 1, 1, 0, by rfl⟩
  have hread : ∀ run ∈ recorded calls, run.entry.Storable := by
    intro run hrun
    obtain rfl | rfl | rfl : run = _ ∨ run = _ ∨ run = _ := by simpa [calls, recorded] using hrun
    all_goals exact storable_entry ⟨by decide, by decide⟩ (by decide)
  have hlimit : ∀ call ∈ calls, call.KeepsTo 2 := by
    simp [calls, Call.KeepsTo, first, second]
  have hstart : held historyKey recordsOf? (lookupPair (entriesIn (t.read? "s.json"))) = [] := by
    decide
  exact (histories_keep_last_runs (keeps_fileStore "s.json")
    ⟨by decide, _, loads_entriesIn htext, rfl⟩ hstart hlimit hread).1

end

end Coach.Learner
