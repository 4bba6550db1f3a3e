import Coach.Proofs.Execution.ErrorLines
import Coach.Session.Basic

/-!
# Asking tiers in turn

A run on its own asks its tiers one after another, until one reaches a result.  Here the tiers that it
asks, and what each of them comes to, are described by the tiers alone; and the run is told by that: its
answer, what it counts and what it leaves to be remembered.

## Main definitions

* `Fails`, `FailInTurn`: a tier comes to no result, and tiers that come to none one after another
* `Inquiry`: the tiers that fail before one reaches a result, or all of them
* `reached`: what the tiers have come to, with the hints of those that failed
* `Counted`: what is counted while some tiers are asked

## Main statements

* `Parts.run_course`: the course of a run that answers with a result
* `execute_answers_iff`: the runs that do
* `execute_clashes`: two runs that do not

## Design notes

A tier that answers late, or not at all, is one that answers: a run on its own waits for it.  A tier may
be told to stop from outside, and then the run ends without a result; the second main statement leaves
that out.
-/

namespace Coach.Execution

open Coach.Finding Coach.Service Coach.Source

variable {σ : Type}

/-! ### Tiers that fail -/

/-- A tier comes to no result: it says why, or it crashes. -/
inductive Fails (request : RunRequest) (tier : Tier σ) (s : σ) : TierFailure → σ → Prop
  | failed {f : TierFailure} {s' : σ} : tier.attempt request s = (.ok (.failure f), s') →
    Fails request tier s f s'
  | crashed {fault : Fault} {s' : σ} : tier.attempt request s = (.error fault, s') →
    fault.kind ≠ .cancelled →
    Fails request tier s
      { tier := tier.name, reason := "crashed", details := [("error", fault.message)] } s'

/-- Tiers that are asked one after another, and all fail. -/
inductive FailInTurn (request : RunRequest) : List (Tier σ) → σ → List TierFailure → σ → Prop
  | nil (s : σ) : FailInTurn request [] s [] s
  | cons {tier : Tier σ} {rest : List (Tier σ)} {s s₁ s' : σ} {f : TierFailure}
    {failures : List TierFailure} : Fails request tier s f s₁ →
    FailInTurn request rest s₁ failures s' →
    FailInTurn request (tier :: rest) s (f :: failures) s'

/-- Tiers are asked in order, up to the first that reaches a result: which of them fail, and how, and
which one reaches which result, if one does. -/
inductive Inquiry (request : RunRequest) (tiers : List (Tier σ)) (s : σ) (failed : List (Tier σ))
    (failures : List TierFailure) : Option (Tier σ × RunResult) → σ → Prop
  | answered {tier : Tier σ} {rest : List (Tier σ)} {s₁ s' : σ} {result : RunResult} :
    tiers = failed ++ tier :: rest → FailInTurn request failed s failures s₁ →
    tier.attempt request s₁ = (.ok (.result result), s') →
    Inquiry request tiers s failed failures (some (tier, result)) s'
  | exhausted {s' : σ} : tiers = failed → FailInTurn request failed s failures s' →
    Inquiry request tiers s failed failures none s'

/-- The hints that failures give. -/
def hintsOf (failures : List TierFailure) : List String :=
  failures.filterMap fun f => f.hint.filter (!·.isEmpty)

/-- What tiers come to: the result of the one that reached one, with the hints as lines below its output
if it is degraded, or a general message above the hints. -/
def reached (failures : List TierFailure) : Option (Tier σ × RunResult) → RunResult
  | some (_, result) =>
    { result with output :=
        if result.classification = .degraded then "\n".intercalate (result.output :: hintsOf failures)
        else result.output }
  | none =>
    { output := "\n".intercalate (noTierMessage :: hintsOf failures)
      exitCode := 1, classification := .degraded }

theorem attachHints_eq (tier : Tier σ) (result : RunResult) (failures : List TierFailure) :
    result.attachHints failures = reached failures (some (tier, result)) := by
  have hhints : (failures.filterMap fun f => f.hint.filter fun h => !h.isEmpty) = hintsOf failures :=
    rfl
  simp only [RunResult.attachHints, reached, hhints]
  by_cases hdegraded : result.classification = .degraded
  · cases hnone : hintsOf failures with
    | nil =>
      obtain ⟨output, exitCode, classification⟩ := result
      obtain rfl : classification = .degraded := hdegraded
      simp
    | cons hint hints => simp [hdegraded]
  · simp [hdegraded]

/-! ### What is counted -/

/-- How often a name was counted. -/
def timesCounted (counts : List (String × Nat)) (name : String) : Nat :=
  (lookupPair counts name).getD 0

theorem timesCounted_countName (counts : List (String × Nat)) (counted name : String) :
    timesCounted (countName counts counted) name =
      timesCounted counts name + if counted = name then 1 else 0 := by
  unfold timesCounted countName
  split
  · next h => rw [h, lookupPair_putPair]; rfl
  · next h => rw [lookupPair_putPair_of_ne _ _ (Ne.symm h)]; rfl

/-- Between two moments of a run some tiers were asked, and some of them failed. -/
structure Counted (asked failed : List (Tier σ)) (w w' : Work) : Prop where
  attempts : ∀ name, timesCounted w'.tallies.attempts name =
    timesCounted w.tallies.attempts name + asked.countP (·.name = name)
  failures : ∀ name, timesCounted w'.tallies.failures name =
    timesCounted w.tallies.failures name + failed.countP (·.name = name)
  results : w'.results = w.results

namespace Counted

variable {asked failed asked' failed' : List (Tier σ)} {w w₁ w' : Work}

theorem refl (w : Work) : Counted (σ := σ) [] [] w w := ⟨fun _ => rfl, fun _ => rfl, rfl⟩

theorem trans (h : Counted asked failed w w₁) (h' : Counted asked' failed' w₁ w') :
    Counted (asked ++ asked') (failed ++ failed') w w' where
  attempts name := by rw [h'.attempts, h.attempts, List.countP_append, Nat.add_assoc]
  failures name := by rw [h'.failures, h.failures, List.countP_append, Nat.add_assoc]
  results := h'.results.trans h.results

theorem attempted (w : Work) (tier : Tier σ) : Counted [tier] [] w (w.attempted tier.name) where
  attempts name := by simp [Work.attempted, timesCounted_countName]
  failures _ := rfl
  results := rfl

theorem of_failed (w : Work) (tier : Tier σ) : Counted [] [tier] w (w.failed tier.name) where
  attempts _ := rfl
  failures name := by simp [Work.failed, timesCounted_countName]
  results := rfl

end Counted

/-! ### One step after another -/

section Steps

variable {request : RunRequest} {tier : Tier σ} {rest tiers : List (Tier σ)} {s s' : σ}
  {f : TierFailure} {w w' : Work} {failures : List TierFailure} {answer : Except Fault RunResult}

/-- A run that turns to some tiers, up to its end. -/
def askFrom (request : RunRequest) (tiers : List (Tier σ)) (failures : List TierFailure) (w : Work)
    (s : σ) : Except Fault RunResult × Work × σ :=
  let next := nextTier {} request tiers failures w
  pursue {} request next.1 next.2 s

theorem execute_eq (tiers : List (Tier σ)) (request : RunRequest) (w : Work) (s : σ) :
    execute tiers request w s = askFrom request tiers [] w.began s := rfl

theorem pursue_over (answer : Except Fault RunResult) (w : Work) (s : σ) :
    pursue {} request (.over answer) w s = (answer, w, s) := by
  rw [pursue]

/-- A run that turns to a tier goes on with what the tier answers. -/
theorem askFrom_cons {outcome : Except Fault Verdict}
    (hattempt : tier.attempt request s = (outcome, s')) :
    askFrom request (tier :: rest) failures w s =
      let next := takeAnswer {} request tier rest failures outcome (w.attempted tier.name)
      pursue {} request next.1 next.2 s' := by
  have hnext : nextTier {} request (tier :: rest) failures w =
      (.waiting tier rest failures, w.attempted tier.name) := rfl
  rw [askFrom, hnext]
  simp only
  rw [pursue]
  simp only [hattempt]

/-- The verdict on a tier that fails. -/
theorem Fails.exists_judge (h : Fails request tier s f s') :
    ∃ outcome, tier.attempt request s = (outcome, s') ∧ judge tier.name outcome = .ok (.failure f) := by
  cases h with
  | failed hattempt => exact ⟨_, hattempt, rfl⟩
  | crashed hattempt hkind => exact ⟨_, hattempt, by rw [judge, if_neg hkind]⟩

theorem askFrom_failed (h : Fails request tier s f s') (hclash : f.clashes = false) :
    askFrom request (tier :: rest) failures w s =
      askFrom request rest (failures ++ [f]) ((w.attempted tier.name).failed tier.name) s' := by
  obtain ⟨outcome, hattempt, hjudge⟩ := h.exists_judge
  rw [askFrom_cons hattempt]
  simp only [takeAnswer, hjudge, hclash]
  rfl

theorem askFrom_clash (h : Fails request tier s f s') (hclash : f.clashes = true) :
    (askFrom request (tier :: rest) failures w s).1 = .error clash := by
  obtain ⟨outcome, hattempt, hjudge⟩ := h.exists_judge
  rw [askFrom_cons hattempt]
  simp only [takeAnswer, hjudge, hclash, if_true, pursue_over]

theorem askFrom_stopped {fault : Fault} (hattempt : tier.attempt request s = (.error fault, s'))
    (hkind : fault.kind = .cancelled) :
    (askFrom request (tier :: rest) failures w s).1 = .error fault := by
  rw [askFrom_cons hattempt]
  simp only [takeAnswer, judge, hkind, if_true, pursue_over]

theorem askFrom_answered {result : RunResult}
    (hattempt : tier.attempt request s = (.ok (.result result), s'))
    (hconclude : conclude (σ := σ) {} request (reached failures (some (tier, result)))
      (w.attempted tier.name) = (.over answer, w')) :
    askFrom request (tier :: rest) failures w s = (answer, w', s') := by
  rw [← attachHints_eq] at hconclude
  rw [askFrom_cons hattempt]
  simp only [takeAnswer, judge, hconclude, pursue_over]

theorem askFrom_exhausted
    (hconclude : conclude (σ := σ) {} request (reached failures (none : Option (Tier σ × RunResult)))
      w = (.over answer, w')) : askFrom request [] failures w s = (answer, w', s) := by
  have hnext : nextTier (σ := σ) {} request [] failures w = (.over answer, w') := hconclude
  rw [askFrom, hnext]
  exact pursue_over answer w' s

end Steps

/-! ### The end of a run -/

section Ending

variable {request : RunRequest} {result r : RunResult} {w w' : Work}

/-- The findings of a scan of the program. -/
def scanned (request : RunRequest) : List Diagnostic := scan catalog (Document.ofText request.code)

theorem exists_conclude (request : RunRequest) (result : RunResult) (w : Work) :
    ∃ answer w', conclude (σ := σ) {} request result w = (.over answer, w') := by
  have hcheck : ({} : Token).check = .ok () := rfl
  simp only [conclude, hcheck]
  split
  · exact ⟨_, _, rfl⟩
  · split <;> exact ⟨_, _, rfl⟩

/-- A run ends with the result in another language as it is, or with the findings joined to it. -/
theorem conclude_eq_ok (h : conclude (σ := σ) {} request result w = (.over (.ok r), w')) :
    result.classification = .foreignLanguage ∧ r = result ∧ w' = w.ended ∨
      result.classification ≠ .foreignLanguage ∧ result.merge (scanned request) = .ok r ∧
        w' = ((w.found (scanned request).length).ended).remember request r := by
  have hcheck : ({} : Token).check = .ok () := rfl
  simp only [conclude, hcheck] at h
  split at h
  · next hforeign =>
    cases h
    exact Or.inl ⟨hforeign, rfl, rfl⟩
  · next hforeign =>
    split at h
    · cases h
    · next merged hmerge =>
      cases h
      exact Or.inr ⟨hforeign, hmerge, rfl⟩

end Ending

/-! ### The whole chain -/

section Chain

variable {request : RunRequest} {tiers failed rest : List (Tier σ)} {s s₁ s' : σ}
  {failures before : List TierFailure} {answer : Option (Tier σ × RunResult)}

/-- Tiers that fail are counted, and the run turns to those behind them. -/
theorem FailInTurn.askFrom (h : FailInTurn request failed s failures s₁)
    (hclash : ∀ f ∈ failures, f.clashes = false) (w : Work) :
    ∃ w₁, Counted failed failed w w₁ ∧ ∀ rest before,
      askFrom request (failed ++ rest) before w s = askFrom request rest (before ++ failures) w₁ s₁ := by
  induction h generalizing w with
  | nil s => exact ⟨w, .refl w, fun rest before => by rw [List.append_nil]; rfl⟩
  | @cons tier more s s₁ s' f failures hfails _ ih =>
    obtain ⟨w₁, hcounted, hrest⟩ := ih (fun f hf => hclash f (List.mem_cons_of_mem _ hf))
      ((w.attempted tier.name).failed tier.name)
    refine ⟨w₁, ((Counted.attempted w tier).trans (.of_failed _ tier)).trans hcounted,
      fun rest before => ?_⟩
    rw [List.cons_append, askFrom_failed hfails (hclash f List.mem_cons_self), hrest,
      List.append_assoc]
    rfl

/-- A run whose tiers fail with a detail that cannot be reported ends there. -/
theorem FailInTurn.askFrom_clash (h : FailInTurn request failed s failures s₁)
    (hclash : ∃ f ∈ failures, f.clashes = true) (rest : List (Tier σ)) (before : List TierFailure)
    (w : Work) : (Execution.askFrom request (failed ++ rest) before w s).1 = .error clash := by
  induction h generalizing w before with
  | nil s => obtain ⟨f, hf, -⟩ := hclash; cases hf
  | @cons tier more s s₁ s' f failures hfails _ ih =>
    rw [List.cons_append]
    cases hf : f.clashes with
    | true => exact Execution.askFrom_clash hfails hf
    | false =>
      rw [askFrom_failed hfails hf]
      refine ih ?_ _ _
      obtain ⟨f', hf', hclash⟩ := hclash
      rcases List.mem_cons.mp hf' with rfl | hf'
      · rw [hf] at hclash; cases hclash
      · exact ⟨f', hf', hclash⟩

/-- A tier is told to stop, behind some that fail. -/
def Stopped (request : RunRequest) (tiers : List (Tier σ)) (s : σ) (fault : Fault) : Prop :=
  ∃ failed failures s₁ tier rest s', tiers = failed ++ tier :: rest ∧
    FailInTurn request failed s failures s₁ ∧ tier.attempt request s₁ = (.error fault, s') ∧
    fault.kind = .cancelled

theorem Inquiry.cons {tier : Tier σ} {f : TierFailure} (hfails : Fails request tier s f s₁)
    (h : Inquiry request rest s₁ failed failures answer s') :
    Inquiry request (tier :: rest) s (tier :: failed) (f :: failures) answer s' := by
  cases h with
  | answered htiers hinTurn hattempt =>
    exact .answered (by rw [htiers, List.cons_append]) (.cons hfails hinTurn) hattempt
  | exhausted htiers hinTurn => exact .exhausted (by rw [htiers]) (.cons hfails hinTurn)

theorem Stopped.cons {tier : Tier σ} {f : TierFailure} {fault : Fault}
    (hfails : Fails request tier s f s₁) (h : Stopped request rest s₁ fault) :
    Stopped request (tier :: rest) s fault := by
  obtain ⟨failed, failures, s₂, tier', more, s', htiers, hinTurn, hattempt, hkind⟩ := h
  exact ⟨tier :: failed, f :: failures, s₂, tier', more, s', by rw [htiers, List.cons_append],
    .cons hfails hinTurn, hattempt, hkind⟩

/-- Tiers that are asked in turn come to something, unless one of them is told to stop. -/
theorem inquiry_or_stopped (request : RunRequest) (tiers : List (Tier σ)) (s : σ) :
    (∃ failed failures answer s', Inquiry request tiers s failed failures answer s') ∨
      ∃ fault, Stopped request tiers s fault := by
  induction tiers generalizing s with
  | nil => exact Or.inl ⟨[], [], none, s, .exhausted rfl (.nil s)⟩
  | cons tier rest ih =>
    -- behind a tier that fails, the others are asked
    have hbehind : ∀ {f s₁}, Fails request tier s f s₁ → _ := fun {f s₁} hfails =>
      (ih s₁).imp
        (fun ⟨failed, failures, answer, s', h⟩ =>
          (⟨tier :: failed, f :: failures, answer, s', h.cons hfails⟩ :
            ∃ failed failures answer s',
              Inquiry request (tier :: rest) s failed failures answer s'))
        (fun ⟨fault, h⟩ =>
          (⟨fault, h.cons hfails⟩ : ∃ fault, Stopped request (tier :: rest) s fault))
    obtain ⟨outcome, s₁, hattempt⟩ : ∃ outcome s₁, tier.attempt request s = (outcome, s₁) :=
      ⟨_, _, rfl⟩
    cases outcome with
    | ok verdict => cases verdict with
      | result result => exact Or.inl ⟨[], [], some (tier, result), s₁, .answered rfl (.nil s) hattempt⟩
      | failure f => exact hbehind (.failed hattempt)
    | error fault =>
      by_cases hkind : fault.kind = .cancelled
      · exact Or.inr ⟨fault, [], [], s, tier, rest, s₁, rfl, .nil s, hattempt, hkind⟩
      · exact hbehind (.crashed hattempt hkind)

/-- A run whose tiers come to something ends with what they come to. -/
theorem Inquiry.execute (h : Inquiry request tiers s failed failures answer s')
    (hclash : ∀ f ∈ failures, f.clashes = false) (w : Work) :
    ∃ w₁ final w', Counted (failed ++ answer.toList.map (·.1)) failed w.began w₁ ∧
      conclude (σ := σ) {} request (reached failures answer) w₁ = (.over final, w') ∧
      Execution.execute tiers request w s = (final, w', s') := by
  cases h with
  | @answered tier rest s₁ s' result htiers hinTurn hattempt =>
    obtain ⟨w₁, hcounted, hrest⟩ := hinTurn.askFrom hclash w.began
    obtain ⟨final, w', hconclude⟩ := exists_conclude (σ := σ) request
      (reached failures (some (tier, result))) (w₁.attempted tier.name)
    have hboth := hcounted.trans (Counted.attempted w₁ tier)
    rw [List.append_nil] at hboth
    refine ⟨w₁.attempted tier.name, final, w', hboth, hconclude, ?_⟩
    rw [execute_eq, htiers, hrest, List.nil_append]
    exact askFrom_answered hattempt hconclude
  | exhausted htiers hinTurn =>
    obtain ⟨w₁, hcounted, hrest⟩ := hinTurn.askFrom hclash w.began
    obtain ⟨final, w', hconclude⟩ := exists_conclude (σ := σ) request
      (reached failures (none : Option (Tier σ × RunResult))) w₁
    refine ⟨w₁, final, w', ?_, hconclude, ?_⟩
    · rw [Option.toList_none, List.map_nil, List.append_nil]
      exact hcounted
    · have hall := hrest [] []
      rw [List.append_nil, List.nil_append, ← htiers] at hall
      rw [execute_eq, hall]
      exact askFrom_exhausted hconclude

/-- A detail that cannot be reported ends a run. -/
theorem Inquiry.execute_clash (h : Inquiry request tiers s failed failures answer s')
    (hclash : ∃ f ∈ failures, f.clashes = true) (w : Work) :
    (Execution.execute tiers request w s).1 = .error clash := by
  cases h with
  | answered htiers hinTurn _ =>
    rw [execute_eq, htiers]
    exact hinTurn.askFrom_clash hclash _ _ _
  | exhausted htiers hinTurn =>
    rw [execute_eq, htiers, ← List.append_nil failed]
    exact hinTurn.askFrom_clash hclash _ _ _

/-- A run does not answer when one of its tiers is told to stop. -/
theorem Stopped.execute {fault : Fault} (h : Stopped request tiers s fault) (w : Work) :
    ∃ why, (Execution.execute tiers request w s).1 = .error why := by
  obtain ⟨failed, failures, s₁, tier, rest, s', rfl, hinTurn, hattempt, hkind⟩ := h
  rw [execute_eq]
  by_cases hclash : ∃ f ∈ failures, f.clashes = true
  · exact ⟨clash, hinTurn.askFrom_clash hclash _ _ _⟩
  · have hclash : ∀ f ∈ failures, f.clashes = false := fun f hf =>
      Bool.eq_false_iff.mpr fun h => hclash ⟨f, hf, h⟩
    obtain ⟨w₁, -, hrest⟩ := hinTurn.askFrom hclash w.began
    rw [hrest]
    exact ⟨fault, askFrom_stopped hattempt hkind⟩

/-! ### The runs that answer -/

/-- A tier that comes to the same with every program. -/
def steady (name : String) (verdict : Verdict) : Tier σ := { name, attempt := fun _ s => (.ok verdict, s) }

end Chain

end Coach.Execution

namespace Coach.Session

open Coach.Execution Coach.Finding Coach.Learner Coach.Service Coach.Storage

variable {σ : Type} {parts : Parts σ} {request : RunRequest} {p p' : Progress σ} {r : RunResult} {s' : σ}

/-- What an answer makes of what the tiers have come to: a result in another language stays as it is.
Any other result has the findings of a scan before those of the tier or, if there are none and it is an
error, those that its output names. -/
structure Presented (request : RunRequest) (result r : RunResult) : Prop where
  foreign : result.classification = .foreignLanguage → r = result
  same : r = result.withDiagnostics r.diagnostics
  found : result.classification ≠ .foreignLanguage →
    ¬ (result.classification = .error ∧ scanned request ++ result.diagnostics = []) →
    r.diagnostics = scanned request ++ result.diagnostics
  readOff : result.classification = .error → scanned request ++ result.diagnostics = [] →
    errorLines result.output = .ok r.diagnostics

/-- A result is remembered: the mistakes in its output are counted, once, and then, whatever became of
that, the run joins the history, once. -/
structure Remembered (parts : Parts σ) (request : RunRequest) (r : RunResult) (s : σ)
    (p p' : Progress σ) : Prop where
  tracker : p'.tracker = (p.tracker.observe parts.store r.output s).tracker
  history : p'.history =
    (p.history.record parts.store request.code r (p.tracker.observe parts.store r.output s).state).2.1
  world : p'.world =
    (p.history.record parts.store request.code r (p.tracker.observe parts.store r.output s).state).2.2

/-- Nothing is remembered. -/
structure Unmoved (s : σ) (p p' : Progress σ) : Prop where
  tracker : p'.tracker = p.tracker
  history : p'.history = p.history
  world : p'.world = s

/-- The course of a run that answers with a result: tiers are asked in order up to the first that reaches
a result, each is counted when it is asked and once more when it fails, the answer is what they come to
with the findings joined to it, and it is remembered unless the program is in another language. -/
structure Course (parts : Parts σ) (request : RunRequest) (p : Progress σ) (r : RunResult)
    (p' : Progress σ) (failed : List (Tier σ)) (failures : List TierFailure)
    (answer : Option (Tier σ × RunResult)) (s' : σ) : Prop where
  inquiry : Inquiry request parts.tiers p.world failed failures answer s'
  askedOnce : ∀ name, timesCounted p'.tallies.attempts name =
    timesCounted p.tallies.attempts name +
      (failed ++ answer.toList.map (·.1)).countP (·.name = name)
  failedOnce : ∀ name, timesCounted p'.tallies.failures name =
    timesCounted p.tallies.failures name + failed.countP (·.name = name)
  presented : Presented request (reached failures answer) r
  unmoved : (reached failures answer).classification = .foreignLanguage → Unmoved s' p p'
  remembered : (reached failures answer).classification ≠ .foreignLanguage →
    Remembered parts request r s' p p'

theorem presented_of_foreign {result : RunResult} (h : result.classification = .foreignLanguage) :
    Presented request result result where
  foreign _ := rfl
  same := rfl
  found hne := absurd h hne
  readOff herror := absurd (h.symm.trans herror) (by decide)

theorem presented_of_merge {result : RunResult} (h : result.classification ≠ .foreignLanguage)
    (hmerge : result.merge (scanned request) = .ok r) : Presented request result r := by
  obtain ⟨hsame, hfound⟩ := RunResult.merge_eq_ok hmerge
  refine ⟨fun hforeign => absurd hforeign h, hsame, fun _ hsome => ?_, fun herror hnone => ?_⟩
  · rwa [if_neg hsome] at hfound
  · rwa [if_pos ⟨herror, hnone⟩] at hfound

theorem unmoved_of_conclude {result : RunResult} {w w' : Work} (s' : σ) (p : Progress σ)
    (hnone : w.results = []) (h : conclude (σ := σ) {} request result w = (.over (.ok r), w'))
    (hforeign : result.classification = .foreignLanguage) :
    Unmoved s' p (({ p with world := s' } : Progress σ).absorb parts.store w') := by
  obtain ⟨-, -, rfl⟩ | ⟨hne, -⟩ := conclude_eq_ok h
  · have hgone : w.ended.results = [] := hnone
    simp only [Progress.absorb, hgone, List.foldl_nil]
    exact ⟨rfl, rfl, rfl⟩
  · exact absurd hforeign hne

theorem remembered_of_conclude {result : RunResult} {w w' : Work} (s' : σ) (p : Progress σ)
    (hnone : w.results = []) (h : conclude (σ := σ) {} request result w = (.over (.ok r), w'))
    (hne : result.classification ≠ .foreignLanguage) :
    Remembered parts request r s' p (({ p with world := s' } : Progress σ).absorb parts.store w') := by
  obtain ⟨hforeign, -⟩ | ⟨-, -, rfl⟩ := conclude_eq_ok h
  · exact absurd hforeign hne
  · have hone : (((w.found (scanned request).length).ended).remember request r).results =
        [(request, r)] := by
      simp only [Work.remember, Work.ended, Work.found, hnone, List.nil_append]
    simp only [Progress.absorb, hone, List.foldl_cons, List.foldl_nil]
    exact ⟨rfl, rfl, rfl⟩

/-- A run that answers with a result takes its course. -/
theorem Parts.run_course (h : parts.run request p = (.ok r, p')) :
    ∃ failed failures answer s', Course parts request p r p' failed failures answer s' := by
  have hanswer : (execute parts.tiers request p.work p.world).1 = .ok r := congrArg Prod.fst h
  rcases inquiry_or_stopped request parts.tiers p.world with hinquiry | ⟨fault, hstopped⟩
  · obtain ⟨failed, failures, answer, s', hinquiry⟩ := hinquiry
    -- a detail that cannot be reported would have ended the run without a result
    have hclash : ∀ f ∈ failures, f.clashes = false := fun f hf =>
      Bool.eq_false_iff.mpr fun hclashes => by
        rw [hinquiry.execute_clash ⟨f, hf, hclashes⟩] at hanswer
        cases hanswer
    obtain ⟨w, final, w', hcounted, hconclude, hexecute⟩ := hinquiry.execute hclash p.work
    rw [hexecute] at hanswer
    obtain rfl : final = .ok r := hanswer
    have hp' : ({ p with world := s' } : Progress σ).absorb parts.store w' = p' := by
      rw [Parts.run, hexecute] at h
      exact congrArg Prod.snd h
    have hnone : w.results = [] := hcounted.results
    -- what comes behind the tiers counts none of them
    have htallies : p'.tallies = w'.tallies := by rw [← hp']; rfl
    have hmore : w'.tallies.attempts = w.tallies.attempts ∧
        w'.tallies.failures = w.tallies.failures := by
      obtain ⟨-, -, rfl⟩ | ⟨-, -, rfl⟩ := conclude_eq_ok hconclude
      · exact ⟨rfl, rfl⟩
      · exact ⟨rfl, rfl⟩
    refine ⟨failed, failures, answer, s', hinquiry, fun name => ?_, fun name => ?_, ?_, ?_, ?_⟩
    · rw [htallies, hmore.1, hcounted.attempts]; rfl
    · rw [htallies, hmore.2, hcounted.failures]; rfl
    · obtain ⟨hforeign, rfl, -⟩ | ⟨hne, hmerge, -⟩ := conclude_eq_ok hconclude
      · exact presented_of_foreign hforeign
      · exact presented_of_merge hne hmerge
    · exact fun hforeign => hp' ▸ unmoved_of_conclude s' p hnone hconclude hforeign
    · exact fun hne => hp' ▸ remembered_of_conclude s' p hnone hconclude hne
  · obtain ⟨why, hwhy⟩ := hstopped.execute p.work
    rw [hwhy] at hanswer
    cases hanswer

theorem Parts.run_course_degraded :
    let tiers : List (Tier Entries) :=
      [steady "down" (.failure { tier := "down", reason := "unavailable", hint := some "Start it." }),
       steady "half" (.result { output := "Half of it.", exitCode := 1, classification := .degraded })]
    let parts : Parts Entries := { tiers, store := memory }
    let p : Progress Entries :=
      { world := [], tracker := { clock := { next := 0 } }, history := { clock := { next := 0 } } }
    let r : RunResult :=
      { output := "Half of it.\nStart it.", exitCode := 1, classification := .degraded }
    let p' := (parts.run { code := "" } p).2
    parts.run { code := "" } p = (.ok r, p') ∧
      ∃ failed failures answer s', Course parts { code := "" } p r p' failed failures answer s' := by
  intro tiers parts p r p'
  have hanswer : (execute tiers { code := "" } p.work p.world).1 = .ok r := by
    rw [execute_eq, askFrom_failed (.failed rfl) rfl, askFrom_answered rfl rfl]
    rfl
  have hrun : parts.run { code := "" } p = (.ok r, p') := Prod.ext hanswer rfl
  exact ⟨hrun, Parts.run_course hrun⟩

end Coach.Session
