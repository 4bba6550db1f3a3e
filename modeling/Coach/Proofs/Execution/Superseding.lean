import Coach.Execution.Desk
import Coach.Proofs.Execution.ErrorLines
import Mathlib.Data.List.Basic

/-!
# Newer runs take the place of older ones

Whatever happens on a desk, and in whatever order, the last run handed in is the one that counts.  It is
the only one that may still go on, no older run can take its place away, and an older run that was told
to stop neither answers its caller with a result nor leaves one to be remembered.

## Main definitions

* `Standing.remembered`, `Flight.remembered`: the result that a run leaves to be remembered
* `Faithful`: a step of a run hands on just the result that it ends with, and none once it was replaced
* `Desk.Advances`: what an event does that hands in no run
* `Desk.Orderly`: what holds of a desk at every moment

## Main statements

* `Desk.orderly_run`: a desk is orderly after any events
* `Desk.superseding_is_safe`: what that means for older and newer runs

## Design notes

The answers of tiers are part of the events, so a tier that was told to stop and answers all the same is
among them, at any later moment.  What is said of a desk after any events holds at every moment of a run
of the desk, since the events up to that moment are events as well.
-/

namespace Coach.Execution

open Coach.Finding Coach.Service Coach.Source

/-! ### One run -/

section Run

variable {σ : Type} {token : Token} {request : RunRequest}

/-- What a run that stands there has left to be remembered: its result, unless the program was in
another language. -/
def Standing.remembered (request : RunRequest) : Standing σ → List (RunRequest × RunResult)
  | .over (.ok result) =>
    if result.classification = .foreignLanguage then [] else [(request, result)]
  | _ => []

/-- A step of a run leaves the result with which the run ends, and nothing else, to be remembered.  The
run does not end with a result when a newer one took its place. -/
structure Faithful (token : Token) (request : RunRequest) (w : Work) (next : Standing σ × Work) :
    Prop where
  results_eq : next.2.results = w.results ++ next.1.remembered request
  no_result : token.cancelled = true → ∀ result, next.1 ≠ .over (.ok result)

theorem check_of_cancelled (h : token.cancelled = true) : token.check = .error Fault.cancelled := by
  simp [Token.check, h]

/-- A step that ends a run without a result. -/
theorem faithful_error (fault : Fault) {w w' : Work} (h : w'.results = w.results) :
    Faithful (σ := σ) token request w (.over (.error fault), w') :=
  ⟨by rw [h]; exact (List.append_nil _).symm, fun _ _ => nofun⟩

theorem RunResult.classification_of_merge {r merged : RunResult} {found : List Diagnostic}
    (h : r.merge found = .ok merged) : merged.classification = r.classification := by
  rw [(merge_eq_ok h).1]
  rfl

theorem conclude_faithful (result : RunResult) (w : Work) :
    Faithful (σ := σ) token request w (conclude token request result w) := by
  unfold conclude
  cases hcheck : token.check with
  | error fault => exact faithful_error fault rfl
  | ok u =>
    have hlive : token.cancelled ≠ true := fun h => by
      rw [check_of_cancelled h] at hcheck
      cases hcheck
    dsimp only
    split
    · next hforeign =>
      refine ⟨?_, fun h => absurd h hlive⟩
      simp [Standing.remembered, hforeign, Work.ended]
    · next hforeign =>
      split
      · next fault _ => exact faithful_error _ rfl
      · next merged hmerge =>
        refine ⟨?_, fun h => absurd h hlive⟩
        rw [← RunResult.classification_of_merge hmerge] at hforeign
        simp only [Standing.remembered, hforeign, if_false]
        rfl

theorem nextTier_faithful (tiers : List (Tier σ)) (failures : List TierFailure) (w : Work) :
    Faithful token request w (nextTier token request tiers failures w) := by
  cases tiers with
  | nil => exact conclude_faithful (noTierResult failures) w
  | cons tier rest =>
    simp only [nextTier]
    split
    · next fault _ => exact faithful_error fault rfl
    · refine ⟨(List.append_nil _).symm, ?_⟩
      rintro _ _ ⟨⟩

/-- A step that starts from work with the same results. -/
theorem Faithful.of_results_eq {w w' : Work} {next : Standing σ × Work}
    (h : Faithful token request w next) (hw : w.results = w'.results) :
    Faithful token request w' next :=
  ⟨hw ▸ h.results_eq, h.no_result⟩

theorem takeAnswer_faithful (tier : Tier σ) (rest : List (Tier σ)) (failures : List TierFailure)
    (outcome : Except Fault Verdict) (w : Work) :
    Faithful token request w (takeAnswer token request tier rest failures outcome w) := by
  unfold takeAnswer
  split
  · next fault _ => exact faithful_error fault rfl
  · exact conclude_faithful _ w
  · dsimp only
    split
    · exact faithful_error clash rfl
    · exact (nextTier_faithful rest _ _).of_results_eq rfl

theorem beginRun_faithful (tiers : List (Tier σ)) (w : Work) :
    Faithful token request w (beginRun token request tiers w) :=
  (nextTier_faithful tiers [] w.began).of_results_eq rfl

end Run

/-! ### One flight -/

namespace Flight

variable {σ : Type}

/-- What a run has left to be remembered. -/
def remembered (f : Flight σ) : List (RunRequest × RunResult) :=
  f.standing.elim [] (Standing.remembered f.request)

/-- A caller hears only of a run that is over, and of no other result than its own; and a run that a
newer one took the place of has none. -/
structure Settled (f : Flight σ) : Prop where
  over_of_told : f.told.isSome = true → f.isOver = true
  told_ok : ∀ result, f.told = some (.ok result) → f.standing = some (.over (.ok result))
  no_result : f.token.cancelled = true → ∀ result, f.standing ≠ some (.over (.ok result))

theorem remembered_of_not_over {f : Flight σ} (h : f.isOver = false) : f.remembered = [] := by
  obtain ⟨request, token, interrupted, standing, told⟩ := f
  cases standing with
  | none => rfl
  | some standing => cases standing with
    | waiting => rfl
    | «over» answer => cases h

theorem Settled.remembered_of_cancelled {f : Flight σ} (h : f.Settled)
    (hcancelled : f.token.cancelled = true) : f.remembered = [] := by
  have hresult := h.no_result hcancelled
  unfold remembered
  cases hstanding : f.standing with
  | none => rfl
  | some standing => cases standing with
    | waiting => rfl
    | «over» answer => cases answer with
      | error fault => rfl
      | ok result => exact absurd hstanding (hresult result)

theorem not_isLive_of_isOver {f : Flight σ} (h : f.isOver = true) : f.isLive = false := by
  simp [isLive, h]

theorem not_isLive_supersede (f : Flight σ) : f.supersede.isLive = false := by
  unfold supersede
  split
  · next h => exact not_isLive_of_isOver h
  · simp [isLive]

theorem remembered_supersede (f : Flight σ) : f.supersede.remembered = f.remembered := by
  unfold supersede
  split <;> rfl

theorem Settled.supersede {f : Flight σ} (h : f.Settled) : f.supersede.Settled := by
  unfold Flight.supersede
  split
  · exact h
  · next hover =>
    refine ⟨h.over_of_told, h.told_ok, fun _ result heq => hover ?_⟩
    have heq : f.standing = some (.over (.ok result)) := heq
    rw [isOver, heq]
    rfl

end Flight

/-! ### Events -/

/-- The run that an event is about, if it hands in none. -/
def Event.run? : Event → Option Nat
  | .submit _ => none
  | .start run => some run
  | .answer run _ => some run
  | .abandon run => some run
  | .deliver run => some run

namespace Desk

variable {σ : Type} {d : Desk σ}

theorem getElem?_modify (d : Desk σ) (run : Nat) (g : Flight σ → Flight σ) (i : Nat) :
    (d.modify run g).flights[i]? = if run = i then d.flights[i]?.map g else d.flights[i]? := by
  simp only [modify, List.getElem?_modify]
  split <;> simp

theorem length_modify (d : Desk σ) (run : Nat) (g : Flight σ → Flight σ) :
    (d.modify run g).flights.length = d.flights.length :=
  List.length_modify ..

@[simp] theorem flights_vacate (d : Desk σ) (run : Nat) : (d.vacate run).flights = d.flights := by
  unfold vacate
  split <;> rfl

theorem current_vacate_self (d : Desk σ) (run : Nat) : (d.vacate run).current ≠ some run := by
  unfold vacate
  split
  · nofun
  · next hne => exact hne

/-- A run that gives up its place takes none away from another. -/
theorem current_vacate_of_ne (d : Desk σ) {run i : Nat} (h : i ≠ run) :
    (d.vacate run).current = some i ↔ d.current = some i := by
  unfold vacate
  split
  · next hrun =>
    rw [hrun]
    exact ⟨nofun, fun heq => absurd (Option.some.inj heq).symm h⟩
  · rfl

theorem length_makeRoom (d : Desk σ) : d.makeRoom.flights.length = d.flights.length := by
  unfold makeRoom
  split
  · exact length_modify d _ _
  · rfl

theorem work_makeRoom (d : Desk σ) : d.makeRoom.work = d.work := by
  unfold makeRoom
  split <;> rfl

theorem length_submit (d : Desk σ) (request : RunRequest) :
    (d.submit request).flights.length = d.flights.length + 1 := by
  simp only [submit, List.length_append, List.length_singleton, length_makeRoom]

theorem getElem?_submit_last (d : Desk σ) (request : RunRequest) :
    (d.submit request).flights[d.flights.length]? = some { request } := by
  rw [← length_makeRoom d]
  exact List.getElem?_concat_length

/-- The runs once another was handed in. -/
theorem eq_of_getElem?_submit {request : RunRequest} {i : Nat} {f' : Flight σ}
    (hf' : (d.submit request).flights[i]? = some f') :
    i < d.flights.length ∧ d.makeRoom.flights[i]? = some f' ∨
      i = d.flights.length ∧ f' = { request } := by
  have hlt := (List.getElem?_eq_some_iff.mp hf').1
  rw [length_submit] at hlt
  rcases Nat.lt_succ_iff_lt_or_eq.mp hlt with hi | rfl
  · rw [submit, List.getElem?_append_left ((length_makeRoom d).symm ▸ hi)] at hf'
    exact Or.inl ⟨hi, hf'⟩
  · rw [getElem?_submit_last] at hf'
    exact Or.inr ⟨rfl, (Option.some.inj hf').symm⟩

/-- What an event does to a run that it is about: the run is told to stop by its caller, it comes to
stand somewhere else, or its caller hears of its end. -/
inductive Advances (d : Desk σ) (event : Event) (run : Nat) (f : Flight σ) : Desk σ → Prop
  | interrupt : event = .abandon run → f.told = none →
    Advances d event run f (d.modify run Flight.interrupt)
  | move {standing : Standing σ} {work : Work} : f.isOver = false →
    Faithful f.token f.request d.work (standing, work) →
    Advances d event run f { d.modify run (·.moveTo standing) with work }
  | hear {answer : Except Fault RunResult} {work : Work} :
    event = .abandon run ∨ event = .deliver run → f.isOver = true → f.told = none →
    (∀ result, answer = .ok result → f.standing = some (.over (.ok result))) →
    work.results = d.work.results →
    Advances d event run f { (d.modify run (·.hear answer)).vacate run with work }

theorem isOver_of_standing {f : Flight σ} {standing : Standing σ} (h : f.standing = some standing) :
    f.isOver = standing.isOver := by
  rw [Flight.isOver, h]
  rfl

theorem tell_advances {event : Event} {run : Nat} {f : Flight σ} {answer : Except Fault RunResult}
    (hevent : event = .abandon run ∨ event = .deliver run) (hover : f.isOver = true) (htold : f.told = none)
    (hanswer : ∀ result, answer = .ok result → f.standing = some (.over (.ok result))) :
    Advances d event run f (d.tell run f.token answer) := by
  unfold tell
  refine Advances.hear hevent hover htold (fun result heq => ?_) ?_
  · split at heq
    · cases heq
    · exact hanswer result heq
  · split <;> rfl

theorem start_advances {run : Nat} {f : Flight σ} (hf : d.flights[run]? = some f) :
    d.start run = d ∨ Advances d (.start run) run f (d.start run) := by
  simp only [start, hf]
  split
  · exact Or.inl rfl
  · next hstanding =>
    have hover : f.isOver = false := by
      rw [Flight.isOver, Option.not_isSome_iff_eq_none.mp hstanding]
      rfl
    split
    · exact Or.inr (Advances.move hover (faithful_error _ rfl))
    · exact Or.inr (Advances.move hover (beginRun_faithful d.tiers d.work))

theorem answer_advances {run : Nat} {f : Flight σ} (hf : d.flights[run]? = some f)
    (outcome : Except Fault Verdict) :
    d.answer run outcome = d ∨ Advances d (.answer run outcome) run f (d.answer run outcome) := by
  simp only [answer, hf]
  split
  · next tier rest failures hstanding =>
    exact Or.inr (Advances.move (isOver_of_standing hstanding)
      (takeAnswer_faithful tier rest failures outcome d.work))
  · exact Or.inl rfl

theorem abandon_advances {run : Nat} {f : Flight σ} (hf : d.flights[run]? = some f) :
    d.abandon run = d ∨ Advances d (.abandon run) run f (d.abandon run) := by
  simp only [abandon, hf]
  split
  · exact Or.inl rfl
  · next htold =>
    have htold : f.told = none := Option.not_isSome_iff_eq_none.mp htold
    split
    · next hover => exact Or.inr (tell_advances (Or.inl rfl) hover htold nofun)
    · exact Or.inr (Advances.interrupt rfl htold)

theorem deliver_advances {run : Nat} {f : Flight σ} (hf : d.flights[run]? = some f) :
    d.deliver run = d ∨ Advances d (.deliver run) run f (d.deliver run) := by
  simp only [deliver, hf]
  split
  · next answer hstanding htold =>
    refine Or.inr (tell_advances (Or.inr rfl) (isOver_of_standing hstanding) htold fun result heq => ?_)
    rw [hstanding, heq]
  · exact Or.inl rfl

/-- An event that hands in no run changes nothing, or one run. -/
theorem step_advances (d : Desk σ) {event : Event} {run : Nat} (hevent : event.run? = some run) :
    d.step event = d ∨ ∃ f, d.flights[run]? = some f ∧ Advances d event run f (d.step event) := by
  cases hf : d.flights[run]? with
  | none =>
    refine Or.inl ?_
    cases event with
    | submit request => cases hevent
    | start i => cases hevent; simp only [step, start, hf]
    | answer i outcome => cases hevent; simp only [step, answer, hf]
    | abandon i => cases hevent; simp only [step, abandon, hf]
    | deliver i => cases hevent; simp only [step, deliver, hf]
  | some f =>
    refine Or.imp_right (fun h => ⟨f, rfl, h⟩) ?_
    cases event with
    | submit request => cases hevent
    | start i => cases hevent; exact start_advances hf
    | answer i outcome => cases hevent; exact answer_advances hf outcome
    | abandon i => cases hevent; exact abandon_advances hf
    | deliver i => cases hevent; exact deliver_advances hf

/-! ### Desks -/

/-- The results that the runs of a desk have left to be remembered. -/
def remembered (d : Desk σ) : List (RunRequest × RunResult) := d.flights.flatMap Flight.remembered

/-- What holds of a desk at every moment, where `before` is the work before its first run. -/
structure Orderly (before : Work) (d : Desk σ) : Prop where
  settled : ∀ (i : Nat) (f : Flight σ), d.flights[i]? = some f → f.Settled
  /-- The run that is current is the last one, as long as its caller was told nothing. -/
  current_iff : ∀ i, d.current = some i ↔
    i + 1 = d.flights.length ∧ ∃ f, d.flights[i]? = some f ∧ f.told = none
  /-- Only the last run goes on. -/
  last_of_live : ∀ i f, d.flights[i]? = some f → f.isLive = true → i + 1 = d.flights.length
  /-- Nothing took the place of the last run. -/
  last_not_cancelled : ∀ i f, d.flights[i]? = some f → i + 1 = d.flights.length →
    f.token.cancelled = false
  /-- What is to be remembered are the results of the runs, each once. -/
  results_perm : d.work.results.Perm (before.results ++ d.remembered)

theorem orderly_empty (tiers : List (Tier σ)) (before : Work) :
    Orderly before ({ tiers, work := before } : Desk σ) := by
  have hnone : ∀ (i : Nat) (f : Flight σ),
      ({ tiers, work := before } : Desk σ).flights[i]? ≠ some f := fun i f h => by simp at h
  refine ⟨fun i f h => absurd h (hnone i f), fun i => ?_, fun i f h => absurd h (hnone i f),
    fun i f h => absurd h (hnone i f), ?_⟩
  · exact ⟨fun h => by simp at h, fun ⟨_, f, hf, _⟩ => absurd hf (hnone i f)⟩
  · simp [remembered]

/-- A run that is changed in one place leaves the results of the others. -/
theorem remembered_modify {run : Nat} {f : Flight σ} (hf : d.flights[run]? = some f)
    (g : Flight σ → Flight σ) {more : List (RunRequest × RunResult)}
    (hmore : (g f).remembered = f.remembered ++ more) :
    (d.modify run g).remembered.Perm (d.remembered ++ more) := by
  obtain ⟨hrun, rfl⟩ := List.getElem?_eq_some_iff.mp hf
  obtain ⟨first, f', last, hflights, hlength, hmodify⟩ := List.exists_of_modify g hrun
  have hhere : d.flights[run] = f' := by
    simp [hflights, ← hlength]
  rw [hhere] at hmore
  simp only [remembered, modify, hmodify]
  rw [hflights]
  simp only [List.flatMap_append, List.flatMap_cons, hmore]
  have hswap : (more ++ last.flatMap Flight.remembered).Perm
      (last.flatMap Flight.remembered ++ more) := List.perm_append_comm
  simpa only [List.append_assoc] using
    (hswap.append_left f'.remembered).append_left (first.flatMap Flight.remembered)

/-- The run with some number once one of them was changed. -/
theorem eq_of_getElem?_modify {run : Nat} {f : Flight σ} (hf : d.flights[run]? = some f)
    {g : Flight σ → Flight σ} {i : Nat} {f' : Flight σ}
    (hf' : (d.modify run g).flights[i]? = some f') :
    i ≠ run ∧ d.flights[i]? = some f' ∨ i = run ∧ f' = g f := by
  rw [getElem?_modify] at hf'
  split at hf'
  · next hi =>
    subst hi
    rw [hf] at hf'
    exact Or.inr ⟨rfl, (Option.some.inj hf').symm⟩
  · next hi => exact Or.inl ⟨Ne.symm hi, hf'⟩

namespace Orderly

variable {before : Work} {run : Nat} {f : Flight σ}

/-- A change of one run, which does not make it go on again, keeps what is said of the runs. -/
theorem runs_modify (h : Orderly before d) (hf : d.flights[run]? = some f) {g : Flight σ → Flight σ}
    (hsettled : (g f).Settled) (htoken : (g f).token = f.token)
    (hlive : (g f).isLive = true → f.isLive = true) (i : Nat) (f' : Flight σ)
    (hf' : (d.modify run g).flights[i]? = some f') :
    f'.Settled ∧ (f'.isLive = true → i + 1 = d.flights.length) ∧
      (i + 1 = d.flights.length → f'.token.cancelled = false) := by
  rcases eq_of_getElem?_modify hf hf' with ⟨-, hf'⟩ | ⟨rfl, rfl⟩
  · exact ⟨h.settled i f' hf', h.last_of_live i f' hf', h.last_not_cancelled i f' hf'⟩
  · refine ⟨hsettled, fun hgoes => h.last_of_live i f hf (hlive hgoes), fun hlast => ?_⟩
    rw [htoken]
    exact h.last_not_cancelled i f hf hlast

/-- A change of one run, with what it leaves, keeps the results together. -/
theorem results_modify (h : Orderly before d) (hf : d.flights[run]? = some f)
    {g : Flight σ → Flight σ} {work : Work} {more : List (RunRequest × RunResult)}
    (hmore : (g f).remembered = f.remembered ++ more)
    (hresults : work.results = d.work.results ++ more) :
    work.results.Perm (before.results ++ (d.modify run g).remembered) :=
  calc work.results = d.work.results ++ more := hresults
    List.Perm _ (before.results ++ d.remembered ++ more) := h.results_perm.append_right more
    List.Perm _ (before.results ++ (d.remembered ++ more)) := .of_eq (List.append_assoc ..)
    List.Perm _ (before.results ++ (d.modify run g).remembered) :=
      (remembered_modify hf g hmore).symm.append_left _

/-- A change that tells the caller nothing. -/
theorem modify (h : Orderly before d) (hf : d.flights[run]? = some f) {g : Flight σ → Flight σ}
    {work : Work} {more : List (RunRequest × RunResult)} (hsettled : (g f).Settled)
    (htoken : (g f).token = f.token) (hlive : (g f).isLive = true → f.isLive = true)
    (htold : (g f).told = f.told) (hmore : (g f).remembered = f.remembered ++ more)
    (hresults : work.results = d.work.results ++ more) :
    Orderly before { d.modify run g with work } := by
  have hruns := h.runs_modify hf hsettled htoken hlive
  refine ⟨fun i f' hf' => (hruns i f' hf').1, fun i => ?_, fun i f' hf' hgoes => ?_,
    fun i f' hf' hlast => ?_, h.results_modify hf hmore hresults⟩
  · have hcurrent := h.current_iff i
    simp only [length_modify, getElem?_modify]
    split
    · next hi =>
      subst hi
      simp only [hf, Option.map_some, Option.some.injEq, exists_eq_left', htold] at hcurrent ⊢
      exact hcurrent
    · exact hcurrent
  · exact (length_modify d run g).symm ▸ (hruns i f' hf').2.1 hgoes
  · exact (hruns i f' hf').2.2 (hlast.trans (length_modify d run g))

/-- The caller of a run that is over hears of its end. -/
theorem hear (h : Orderly before d) (hf : d.flights[run]? = some f) {answer : Except Fault RunResult}
    {work : Work} (hover : f.isOver = true)
    (hanswer : ∀ result, answer = .ok result → f.standing = some (.over (.ok result)))
    (hresults : work.results = d.work.results) :
    Orderly before { (d.modify run (·.hear answer)).vacate run with work } := by
  have hsettled : (f.hear answer).Settled :=
    { over_of_told := fun _ => hover
      told_ok := fun result heq => hanswer result (Option.some.inj heq)
      no_result := (h.settled run f hf).no_result }
  have hruns := h.runs_modify hf (g := (·.hear answer)) hsettled rfl id
  refine ⟨fun i f' hf' => ?_, fun i => ?_, fun i f' hf' hgoes => ?_, fun i f' hf' hlast => ?_, ?_⟩
  · rw [flights_vacate] at hf'
    exact (hruns i f' hf').1
  · -- the run gives its place up, if it has it, and another keeps it
    rw [flights_vacate, length_modify, getElem?_modify]
    by_cases hi : run = i
    · subst hi
      rw [if_pos rfl, hf]
      refine iff_of_false (current_vacate_self _ _) ?_
      rintro ⟨-, f', hf', htold⟩
      obtain rfl := Option.some.inj hf'
      cases htold
    · rw [if_neg hi]
      exact (current_vacate_of_ne _ (Ne.symm hi)).trans (h.current_iff i)
  · rw [flights_vacate] at hf' ⊢
    exact (length_modify d run _).symm ▸ (hruns i f' hf').2.1 hgoes
  · rw [flights_vacate] at hf' hlast
    exact (hruns i f' hf').2.2 (hlast.trans (length_modify d run _))
  · have hperm := h.results_modify hf (g := (·.hear answer))
      (List.append_nil _).symm (hresults.trans (List.append_nil _).symm)
    simpa only [remembered, flights_vacate] using hperm

/-- An event that hands in no run keeps a desk orderly. -/
theorem advance (h : Orderly before d) (hf : d.flights[run]? = some f) {d' : Desk σ}
    {event : Event} (hadvances : Advances d event run f d') : Orderly before d' := by
  have hsettled := h.settled run f hf
  cases hadvances with
  | interrupt =>
    exact h.modify hf ⟨hsettled.over_of_told, hsettled.told_ok, hsettled.no_result⟩ rfl
      id rfl (List.append_nil _).symm (List.append_nil _).symm
  | @move standing work hover hfaithful =>
    -- a run that goes on has told its caller nothing
    have htold : f.told = none := by
      rw [← Option.not_isSome_iff_eq_none]
      exact fun htold => absurd (hsettled.over_of_told htold) (by simp [hover])
    have hmoved : (f.moveTo standing).Settled :=
      { over_of_told := fun hsome => by simp [Flight.moveTo, htold] at hsome
        told_ok := fun result heq => by simp [Flight.moveTo, htold] at heq
        no_result := fun hcancelled result heq =>
          hfaithful.no_result hcancelled result (Option.some.inj heq) }
    refine h.modify hf hmoved rfl (fun hgoes => ?_) rfl ?_ hfaithful.results_eq
    · have hcancelled : f.token.cancelled = false := by
        cases hcancelled : f.token.cancelled with
        | false => rfl
        | true => simp [Flight.isLive, Flight.moveTo, hcancelled] at hgoes
      simp [Flight.isLive, hover, hcancelled]
    · rw [Flight.remembered_of_not_over hover]
      rfl
  | hear _ hover htold hanswer hresults => exact h.hear hf hover hanswer hresults

/-- When room is made, nothing goes on. -/
theorem runs_makeRoom (h : Orderly before d) (i : Nat) (f' : Flight σ)
    (hf' : d.makeRoom.flights[i]? = some f') : f'.Settled ∧ f'.isLive = false := by
  unfold makeRoom at hf'
  split at hf'
  · next run hcurrent =>
    obtain ⟨hlast, f, hf, -⟩ := (h.current_iff run).mp hcurrent
    rcases eq_of_getElem?_modify hf hf' with ⟨hne, hf'⟩ | ⟨rfl, rfl⟩
    · refine ⟨h.settled i f' hf', Bool.eq_false_iff.mpr fun hgoes => hne ?_⟩
      have := h.last_of_live i f' hf' hgoes
      omega
    · exact ⟨(h.settled i f hf).supersede, f.not_isLive_supersede⟩
  · next hcurrent =>
    -- the caller of the last run was told, so that the run is over
    refine ⟨h.settled i f' hf', Bool.eq_false_iff.mpr fun hgoes => ?_⟩
    have hlast := h.last_of_live i f' hf' hgoes
    have htold : f'.told.isSome = true := by
      rw [Option.isSome_iff_ne_none]
      intro htold
      have := (h.current_iff i).mpr ⟨hlast, f', hf', htold⟩
      rw [hcurrent] at this
      cases this
    rw [Flight.not_isLive_of_isOver ((h.settled i f' hf').over_of_told htold)] at hgoes
    cases hgoes

theorem remembered_makeRoom (h : Orderly before d) : d.makeRoom.remembered.Perm d.remembered := by
  unfold makeRoom
  split
  · next run hcurrent =>
    obtain ⟨-, f, hf, -⟩ := (h.current_iff run).mp hcurrent
    have hsame : f.supersede.remembered = f.remembered ++ [] := by
      rw [f.remembered_supersede, List.append_nil]
    simpa using remembered_modify hf Flight.supersede hsame
  · rfl

/-- A run that is handed in takes the place of the one that is current. -/
theorem submit (h : Orderly before d) (request : RunRequest) : Orderly before (d.submit request) := by
  have hruns : ∀ i f', (d.submit request).flights[i]? = some f' →
      i < d.flights.length ∧ d.makeRoom.flights[i]? = some f' ∨
        i = d.flights.length ∧ f' = { request } := fun i f' => eq_of_getElem?_submit
  have hcount := length_submit d request
  refine ⟨fun i f' hf' => ?_, fun i => ?_, fun i f' hf' hgoes => ?_, fun i f' hf' hlast => ?_, ?_⟩
  · rcases hruns i f' hf' with ⟨-, hf'⟩ | ⟨-, rfl⟩
    · exact (h.runs_makeRoom i f' hf').1
    · exact ⟨nofun, nofun, nofun⟩
  · rw [hcount]
    constructor
    · intro hi
      obtain rfl : d.flights.length = i := Option.some.inj hi
      exact ⟨rfl, { request }, getElem?_submit_last d request, rfl⟩
    · rintro ⟨hi, -⟩
      obtain rfl : i = d.flights.length := Nat.succ.inj hi
      rfl
  · rcases hruns i f' hf' with ⟨-, hf'⟩ | ⟨hi, -⟩
    · rw [(h.runs_makeRoom i f' hf').2] at hgoes
      cases hgoes
    · rw [hi, hcount]
  · rcases hruns i f' hf' with ⟨hi, -⟩ | ⟨-, rfl⟩
    · omega
    · rfl
  · have hwork : (d.submit request).work = d.work := work_makeRoom d
    have hremembered : (d.submit request).remembered = d.makeRoom.remembered := by
      simp [remembered, Desk.submit, Flight.remembered]
    rw [hwork, hremembered]
    exact h.results_perm.trans (h.remembered_makeRoom.symm.append_left _)

end Orderly

/-- Every event keeps a desk orderly. -/
theorem Orderly.step {before : Work} (h : Orderly before d) (event : Event) :
    Orderly before (d.step event) := by
  cases hrun : event.run? with
  | none =>
    cases event with
    | submit request => exact h.submit request
    | _ => cases hrun
  | some run =>
    rcases step_advances d hrun with heq | ⟨f, hf, hadvances⟩
    · rw [heq]
      exact h
    · exact h.advance hf hadvances

/-- A desk is orderly after any events. -/
theorem orderly_run {before : Work} (h : Orderly before d) (events : List Event) :
    Orderly before (d.run events) := by
  induction events generalizing d with
  | nil => exact h
  | cons event events ih => exact ih (h.step event)

/-! ### The whole -/

/-- An event that tells a run to stop hands in a newer one, or is its own caller's. -/
theorem stopped_by {event : Event} {i : Nat} {f g : Flight σ} (hf : d.flights[i]? = some f)
    (hg : (d.step event).flights[i]? = some g) :
    (g.token ≠ f.token → ∃ request, event = .submit request) ∧
      (g.interrupted ≠ f.interrupted → (∃ request, event = .submit request) ∨ event = .abandon i) := by
  cases hrun : event.run? with
  | none =>
    cases event with
    | submit request => exact ⟨fun _ => ⟨request, rfl⟩, fun _ => Or.inl ⟨request, rfl⟩⟩
    | _ => cases hrun
  | some run =>
    have hsame : ∀ {h : Flight σ → Flight σ}, (d.modify run h).flights[i]? = some g →
        (∀ f, (h f).token = f.token) →
        g.token = f.token ∧ ((∀ f, (h f).interrupted = f.interrupted) →
          g.interrupted = f.interrupted) ∧ (g.interrupted ≠ f.interrupted → i = run) := by
      intro h hg htoken
      rw [getElem?_modify, hf] at hg
      split at hg
      · next hi =>
        obtain rfl := Option.some.inj hg
        exact ⟨htoken f, fun h => h f, fun _ => hi.symm⟩
      · obtain rfl := Option.some.inj hg
        exact ⟨rfl, fun _ => rfl, fun hne => absurd rfl hne⟩
    rcases step_advances d hrun with heq | ⟨f', -, hadvances⟩
    · rw [heq, hf] at hg
      obtain rfl := Option.some.inj hg
      exact ⟨fun hne => absurd rfl hne, fun hne => absurd rfl hne⟩
    · generalize d.step event = d' at hg hadvances
      cases hadvances with
      | interrupt hevent =>
        obtain ⟨htoken, -, hi⟩ := hsame hg fun _ => rfl
        exact ⟨fun hne => absurd htoken hne, fun hne => Or.inr (by rw [hi hne, hevent])⟩
      | move =>
        obtain ⟨htoken, hinterrupted, -⟩ := hsame hg fun _ => rfl
        exact ⟨fun hne => absurd htoken hne, fun hne => absurd (hinterrupted fun _ => rfl) hne⟩
      | hear =>
        rw [flights_vacate] at hg
        obtain ⟨htoken, hinterrupted, -⟩ := hsame hg fun _ => rfl
        exact ⟨fun hne => absurd htoken hne, fun hne => absurd (hinterrupted fun _ => rfl) hne⟩

/-- A run loses its place to a newer one, or because its own caller hears of its end. -/
theorem displaced_by {event : Event} {i : Nat} (hcurrent : d.current = some i)
    (hlost : (d.step event).current ≠ some i) :
    (∃ request, event = .submit request) ∨ event = .abandon i ∨ event = .deliver i := by
  cases hrun : event.run? with
  | none =>
    cases event with
    | submit request => exact Or.inl ⟨request, rfl⟩
    | _ => cases hrun
  | some run =>
    rcases step_advances d hrun with heq | ⟨f, -, hadvances⟩
    · rw [heq] at hlost
      exact absurd hcurrent hlost
    · generalize d.step event = d' at hlost hadvances
      cases hadvances with
      | interrupt => exact absurd hcurrent hlost
      | move => exact absurd hcurrent hlost
      | hear hevent =>
        by_cases hi : i = run
        · exact Or.inr (hi ▸ hevent)
        · exact absurd ((current_vacate_of_ne (d.modify run _) hi).mpr hcurrent) hlost

/-- **Newer runs take the place of older ones.**  On a desk after any events: a run whose place a newer
one took has told its caller no result and has left none to be remembered, and what is to be remembered
are the results of the other runs, each once; at most one run goes on; a run is stopped only by a newer
one or by its own caller, and the last one by no other run; the run that is current is the last one
until its caller was told something, and it loses its place only to a newer one or by its own end. -/
theorem superseding_is_safe (tiers : List (Tier σ)) (before : Work) (events : List Event) :
    let d : Desk σ := Desk.run { tiers, work := before } events
    (∀ f ∈ d.flights, f.token.cancelled = true →
      (∀ result, f.told ≠ some (.ok result)) ∧ f.remembered = []) ∧
    d.work.results.Perm (before.results ++ d.remembered) ∧
    (∀ (i j : Nat) (f g : Flight σ), d.flights[i]? = some f → d.flights[j]? = some g →
      f.isLive = true → g.isLive = true → i = j) ∧
    (∀ (event : Event) (i : Nat) (f g : Flight σ), d.flights[i]? = some f →
      (d.step event).flights[i]? = some g →
      (g.token ≠ f.token → ∃ request, event = .submit request) ∧
      (g.interrupted ≠ f.interrupted → (∃ request, event = .submit request) ∨ event = .abandon i)) ∧
    (∀ f, d.flights.getLast? = some f → f.token.cancelled = false) ∧
    (∀ i, d.current = some i ↔
      i + 1 = d.flights.length ∧ ∃ f, d.flights[i]? = some f ∧ f.told = none) ∧
    (∀ (event : Event) (i : Nat), d.current = some i → (d.step event).current ≠ some i →
      (∃ request, event = .submit request) ∨ event = .abandon i ∨ event = .deliver i) := by
  intro d
  have h : Orderly before d := orderly_run (orderly_empty tiers before) events
  refine ⟨fun f hf hcancelled => ?_, h.results_perm, fun i j f g hf hg hfgoes hggoes => ?_,
    fun event i f g hf hg => stopped_by hf hg, fun f hf => ?_, h.current_iff,
    fun event i hcurrent hlost => displaced_by hcurrent hlost⟩
  · obtain ⟨i, hf⟩ := List.mem_iff_getElem?.mp hf
    have hsettled := h.settled i f hf
    exact ⟨fun result htold => hsettled.no_result hcancelled result (hsettled.told_ok result htold),
      hsettled.remembered_of_cancelled hcancelled⟩
  · have hi := h.last_of_live i f hf hfgoes
    have hj := h.last_of_live j g hg hggoes
    omega
  · rw [List.getLast?_eq_getElem?] at hf
    have hlt := (List.getElem?_eq_some_iff.mp hf).1
    exact h.last_not_cancelled _ f hf (by omega)

end Desk

end Coach.Execution
