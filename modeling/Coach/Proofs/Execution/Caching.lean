import Coach.Execution.SimulationTier
import Coach.Proofs.Lists
import Mathlib.Data.List.Basic

/-!
# Keeping results changes no answer

A tier that keeps the results of a model answers just like one that asks the model every time, as long
as the model answers the same program with the same input in the same way.  It never asks more often,
and what it need not ask again is known exactly: the requests that were simulated successfully, up to
the number of results that are kept, counted back from the last one used.

## Main definitions

* `Collaborator.askAll`: the answers to some questions, one after another
* `Collaborator.counted`: a collaborator that counts what it is asked
* `AnswersBy`: a model whose reply hangs on the program and its input alone
* `lastUsed`: the requests that were simulated successfully, the one used last in front
* `Recalls`: what holds of a cache between two requests

## Main statements

* `recalls_askAll`: the cache after any requests
* `simulationTier_transparent`: the tier with a cache beside the tier without

## Design notes

The requests in a cache are not described by the steps that put them there but by the list of all
requests so far: each counts once, at its last use.  That a cache is cut to its size after every
request, and not once at the end, makes no difference (`take_cons_filter_take`).
-/

namespace Coach.Service.Collaborator

variable {σ Q A : Type}

/-- The answers to some questions, asked one after another, and the state after the last. -/
def askAll (c : Collaborator σ Q A) : List Q → σ → List (Except Fault A) × σ
  | [], s => ([], s)
  | q :: rest, s =>
    let (answer, s) := c q s
    let (answers, s) := c.askAll rest s
    (answer :: answers, s)

/-- The same collaborator, with the number of questions beside its state. -/
def counted (c : Collaborator σ Q A) : Collaborator (σ × Nat) Q A := fun q s =>
  let (answer, t) := c q s.1
  (answer, (t, s.2 + 1))

end Coach.Service.Collaborator

namespace Coach.Execution

open Coach.Model Coach.Service Coach.Tutor

/-! ### A model that answers by program and input -/

section Model

variable {σ : Type}

/-- A model whose reply to a simulation hangs on the program and its input alone. -/
def AnswersBy (model : Model σ) (reply : RunRequest → Except Fault Json) : Prop :=
  ∀ request s,
    (model { messages := simulateMessages request.code request.stdin } s).1 = reply request

/-- What the tier makes of a reply. -/
def answerTo (reply : Except Fault Json) : Except Fault Verdict :=
  match reply with
  | .ok json => .ok (verdictOfReply json)
  | .error fault =>
    if fault.isA .service then .ok (.failure (Tier.unavailable simulationTierName fault))
    else .error fault

/-- The result in an answer. -/
def resultIn? : Except Fault Verdict → Option RunResult
  | .ok (.result result) => some result
  | _ => none

theorem eq_of_resultIn? {answer : Except Fault Verdict} {result : RunResult}
    (h : resultIn? answer = some result) : answer = .ok (.result result) := by
  unfold resultIn? at h
  split at h
  · cases h; rfl
  · cases h

/-- The requests that were simulated successfully, each once, the one used last in front. -/
def lastUsed (reply : RunRequest → Except Fault Json) (requests : List RunRequest) :
    List RunRequest :=
  (requests.reverse.filter fun r => (resultIn? (answerTo (reply r))).isSome).eraseDups

variable {model : Model σ} {reply : RunRequest → Except Fault Json} {requests : List RunRequest}

theorem lastUsed_concat_of_result {request : RunRequest} {result : RunResult}
    (h : resultIn? (answerTo (reply request)) = some result) :
    lastUsed reply (requests ++ [request]) =
      request :: (lastUsed reply requests).filter (· ≠ request) := by
  have hbeq : (fun b : RunRequest => !b == request) = fun b => decide (b ≠ request) := by
    funext b
    by_cases hb : b = request <;> simp [hb]
  rw [lastUsed, List.reverse_append, List.reverse_singleton, List.singleton_append,
    List.filter_cons_of_pos (by rw [h]; rfl), List.eraseDups_cons, eraseDups_filter, hbeq, lastUsed]

theorem lastUsed_concat_of_none {request : RunRequest}
    (h : resultIn? (answerTo (reply request)) = none) :
    lastUsed reply (requests ++ [request]) = lastUsed reply requests := by
  rw [lastUsed, List.reverse_append, List.reverse_singleton, List.singleton_append,
    List.filter_cons_of_neg (by rw [h]; nofun), lastUsed]

theorem simulateOnce_counted (h : AnswersBy model reply) (request : RunRequest) (s : σ × Nat) :
    (simulateOnce model.counted request s).1 = answerTo (reply request) ∧
      (simulateOnce model.counted request s).2.2 = s.2 + 1 := by
  have hreply := h request s.1
  simp only [simulateOnce, Collaborator.counted]
  generalize model { messages := simulateMessages request.code request.stdin } s.1 = answer at hreply
  obtain ⟨given, t⟩ := answer
  subst hreply
  cases hgiven : reply request with
  | ok json => exact ⟨rfl, rfl⟩
  | error fault =>
    dsimp only [answerTo]
    split <;> exact ⟨rfl, rfl⟩

end Model

/-! ### The cache -/

section Cached

variable {σ : Type} {model : Model σ} {reply : RunRequest → Except Fault Json}
  {requests : List RunRequest} {size : Nat}

/-- A cache has the results of the requests that were used last, in the order of their last use. -/
structure Recalls (reply : RunRequest → Except Fault Json) (size : Nat) (requests : List RunRequest)
    (c : Cache) : Prop where
  requests_eq : c.map (·.1) = (lastUsed reply requests).take size
  result_eq : ∀ entry ∈ c, resultIn? (answerTo (reply entry.1)) = some entry.2

theorem Cache.find?_eq_none_iff {c : Cache} {request : RunRequest} :
    c.find? request = none ↔ request ∉ c.map (·.1) := by
  induction c with
  | nil => simp [Cache.find?]
  | cons entry rest ih =>
    by_cases h : entry.1 = request
    · simp [Cache.find?, h]
    · simp [Cache.find?, h, Ne.symm h, ih]

theorem Cache.mem_of_find? {c : Cache} {request : RunRequest} {result : RunResult}
    (h : c.find? request = some result) : (request, result) ∈ c := by
  induction c with
  | nil => cases h
  | cons entry rest ih =>
    rw [Cache.find?] at h
    split at h
    · next heq =>
      cases h
      exact List.mem_cons.mpr (.inl (by rw [← heq]))
    · exact List.mem_cons_of_mem entry (ih h)

theorem Cache.map_others (c : Cache) (request : RunRequest) :
    (c.others request).map (·.1) = (c.map (·.1)).filter (· ≠ request) := by
  rw [Cache.others, List.filter_map]
  rfl

namespace Recalls

variable {c : Cache}

theorem find?_eq_none_iff (h : Recalls reply size requests c) {request : RunRequest} :
    c.find? request = none ↔ request ∉ (lastUsed reply requests).take size := by
  rw [Cache.find?_eq_none_iff, h.requests_eq]

theorem find? (h : Recalls reply size requests c) {request : RunRequest} {result : RunResult}
    (hfound : c.find? request = some result) :
    resultIn? (answerTo (reply request)) = some result :=
  h.result_eq (request, result) (Cache.mem_of_find? hfound)

/-- The results in a cache to which a result was added are those of their requests. -/
theorem result_eq_use (h : Recalls reply size requests c) {request : RunRequest}
    {result : RunResult} (hresult : resultIn? (answerTo (reply request)) = some result) :
    ∀ entry ∈ c.use request result, resultIn? (answerTo (reply entry.1)) = some entry.2 := by
  intro entry hentry
  rcases List.mem_cons.mp hentry with rfl | hentry
  · exact hresult
  · exact h.result_eq entry (List.mem_of_mem_filter hentry)

/-- A result is added: the requests are those used last, cut to the size of the cache. -/
theorem insert (h : Recalls reply size requests c) {request : RunRequest} {result : RunResult}
    (hresult : resultIn? (answerTo (reply request)) = some result) :
    Recalls reply size (requests ++ [request]) (c.insert size request result) where
  requests_eq := by
    rw [Cache.insert, List.map_take, Cache.use, List.map_cons, Cache.map_others, h.requests_eq,
      lastUsed_concat_of_result hresult]
    exact take_cons_filter_take request (nodup_eraseDups _) size
  result_eq entry hentry := h.result_eq_use hresult entry (List.mem_of_mem_take hentry)

/-- A result that is there is used once more: the cache does not grow past its size. -/
theorem use (h : Recalls reply size requests c) {request : RunRequest} {result : RunResult}
    (hfound : c.find? request = some result) :
    Recalls reply size (requests ++ [request]) (c.use request result) := by
  have hmem := Cache.mem_of_find? hfound
  have hothers : (c.others request).length < c.length :=
    List.length_filter_lt_length_iff_exists.mpr ⟨_, hmem, by simp⟩
  have hsize : c.length ≤ size := by
    rw [← List.length_map (f := (·.1)), h.requests_eq]
    exact List.length_take_le _ _
  have hfits : (c.use request result).take size = c.use request result :=
    List.take_of_length_le (by rw [Cache.use, List.length_cons]; omega)
  have hinsert := h.insert (h.find? hfound)
  rwa [Cache.insert, hfits] at hinsert

/-- Nothing is kept of a request without a result. -/
theorem keep (h : Recalls reply size requests c) {request : RunRequest}
    (hnone : resultIn? (answerTo (reply request)) = none) :
    Recalls reply size (requests ++ [request]) c where
  requests_eq := by rw [lastUsed_concat_of_none hnone, h.requests_eq]
  result_eq := h.result_eq

end Recalls

/-- What the tier with a cache does at a request: it answers as the model would, it asks the model just
if the request is not among those used last, and its cache is right afterwards. -/
structure Serves (reply : RunRequest → Except Fault Json) (size : Nat) (requests : List RunRequest)
    (request : RunRequest) (s : Remembering (σ × Nat))
    (next : Except Fault Verdict × Remembering (σ × Nat)) : Prop where
  answer_eq : next.1 = answerTo (reply request)
  recalls : Recalls reply size (requests ++ [request]) next.2.cache
  model_eq : request ∈ (lastUsed reply requests).take size → next.2.model = s.model
  calls_eq : request ∉ (lastUsed reply requests).take size → next.2.model.2 = s.model.2 + 1

theorem simulateCached_serves (h : AnswersBy model reply) (hsize : size ≠ 0) (request : RunRequest)
    {s : Remembering (σ × Nat)} (hcache : Recalls reply size requests s.cache) :
    Serves reply size requests request s (simulateCached model.counted size request s) := by
  unfold simulateCached
  cases hfound : s.cache.find? request with
  | some result =>
    have hmem : ¬ request ∉ (lastUsed reply requests).take size := fun hnot => by
      rw [hcache.find?_eq_none_iff.mpr hnot] at hfound
      cases hfound
    exact
      { answer_eq := (eq_of_resultIn? (hcache.find? hfound)).symm
        recalls := hcache.use hfound
        model_eq := fun _ => rfl
        calls_eq := fun hnot => absurd hnot hmem }
  | none =>
    have hnot := hcache.find?_eq_none_iff.mp hfound
    obtain ⟨hanswer, hcalls⟩ := simulateOnce_counted h request s.model
    generalize simulateOnce model.counted request s.model = once at hanswer hcalls ⊢
    obtain ⟨answer, m⟩ := once
    dsimp only at hanswer hcalls ⊢
    split
    · next result t heq =>
      cases heq
      rw [if_neg hsize]
      exact
        { answer_eq := hanswer
          recalls := hcache.insert (by rw [← hanswer]; rfl)
          model_eq := fun hmem => absurd hmem hnot
          calls_eq := fun _ => hcalls }
    · next other t hother heq =>
      cases heq
      have hnone : resultIn? (answerTo (reply request)) = none := by
        rw [← hanswer]
        unfold resultIn?
        split
        · next result => exact absurd rfl (hother result)
        · rfl
      exact
        { answer_eq := hanswer
          recalls := hcache.keep hnone
          model_eq := fun hmem => absurd hmem hnot
          calls_eq := fun _ => hcalls }

theorem Serves.calls_le {request : RunRequest} {s : Remembering (σ × Nat)}
    {next : Except Fault Verdict × Remembering (σ × Nat)}
    (h : Serves reply size requests request s next) : next.2.model.2 ≤ s.model.2 + 1 := by
  by_cases hmem : request ∈ (lastUsed reply requests).take size
  · rw [h.model_eq hmem]
    exact Nat.le_succ _
  · exact Nat.le_of_eq (h.calls_eq hmem)

/-- A run of requests: every one is answered as the model would, and the cache is right at the end. -/
theorem recalls_askAll (h : AnswersBy model reply) (hsize : size ≠ 0) (more : List RunRequest)
    {s : Remembering (σ × Nat)} (hcache : Recalls reply size requests s.cache) :
    let after := (simulateCached model.counted size).askAll more s
    after.1 = more.map (fun r => answerTo (reply r)) ∧
      Recalls reply size (requests ++ more) after.2.cache ∧
      after.2.model.2 ≤ s.model.2 + more.length := by
  induction more generalizing requests s with
  | nil => exact ⟨rfl, by rwa [List.append_nil], Nat.le_refl _⟩
  | cons request rest ih =>
    have hserves := simulateCached_serves h hsize request hcache
    obtain ⟨hanswers, hrecalls, hcalls⟩ := ih hserves.recalls
    rw [List.append_assoc, List.singleton_append] at hrecalls
    refine ⟨?_, hrecalls, ?_⟩
    · exact congrArg₂ List.cons hserves.answer_eq hanswers
    · have hstep := hserves.calls_le
      refine Nat.le_trans hcalls ?_
      rw [List.length_cons]
      omega

end Cached

/-! ### The tier -/

section Tier

variable {σ : Type} {model : Model σ} {reply : RunRequest → Except Fault Json}

/-- The tier that keeps no results. -/
theorem attempt_simulationTier_of_le (model : Model σ) {seconds : Int} (h : seconds ≤ 0) (size : Int) :
    (simulationTier model seconds size).attempt =
      (simulateOnce model).within Remembering.model fun m s => { s with model := m } :=
  if_neg (Int.not_lt.mpr h)

/-- The tier that keeps results. -/
theorem attempt_simulationTier_of_pos (model : Model σ) {seconds : Int} (h : 0 < seconds)
    (size : Int) : (simulationTier model seconds size).attempt = simulateCached model size.toNat :=
  if_pos h

/-- Without a cache the model is asked at every request. -/
theorem askAll_simulateOnce (h : AnswersBy model reply) (requests : List RunRequest)
    (s : Remembering (σ × Nat)) :
    let asking : Collaborator (Remembering (σ × Nat)) RunRequest Verdict :=
      (simulateOnce model.counted).within Remembering.model fun m s => { s with model := m }
    (asking.askAll requests s).1 = requests.map (fun r => answerTo (reply r)) ∧
      (asking.askAll requests s).2.model.2 = s.model.2 + requests.length := by
  intro asking
  induction requests generalizing s with
  | nil => exact ⟨rfl, rfl⟩
  | cons request rest ih =>
    obtain ⟨hanswer, hcalls⟩ := simulateOnce_counted h request s.model
    obtain ⟨hanswers, hall⟩ := ih (asking request s).2
    refine ⟨congrArg₂ List.cons hanswer hanswers, hall.trans ?_⟩
    have hstep : (asking request s).2.model.2 = s.model.2 + 1 := hcalls
    rw [hstep, List.length_cons]
    omega

/-- The tier with a cache gives the answers of the tier without one and never asks the model more
often.  At any moment, a request that is among the last ones simulated successfully, as many as there
is room for, makes no call of the model; any other one makes a call, and in particular every request
that ends without a result. -/
theorem simulationTier_transparent (hmodel : AnswersBy model reply) {seconds never size : Int}
    (hseconds : 0 < seconds) (hnever : never ≤ 0) (hsize : 1 ≤ size) (other : Int)
    (requests : List RunRequest) (s : σ) :
    let keeping := (simulationTier model.counted seconds size).attempt
    let asking := (simulationTier model.counted never other).attempt
    let kept := keeping.askAll requests { model := (s, 0) }
    let asked := asking.askAll requests { model := (s, 0) }
    kept.1 = asked.1 ∧ kept.2.model.2 ≤ asked.2.model.2 ∧
      ∀ request,
        let next := keeping request kept.2
        (request ∈ (lastUsed reply requests).take size.toNat → next.2.model = kept.2.model) ∧
        (request ∉ (lastUsed reply requests).take size.toNat →
          next.2.model.2 = kept.2.model.2 + 1) ∧
        ((∀ result, next.1 ≠ .ok (.result result)) → next.2.model.2 = kept.2.model.2 + 1) := by
  intro keeping asking kept asked
  have hroom : size.toNat ≠ 0 := by omega
  have hempty : Recalls reply size.toNat [] [] := ⟨List.take_nil.symm, nofun⟩
  obtain ⟨hkept, hrecalls, hfewer⟩ : kept.1 = requests.map (fun r => answerTo (reply r)) ∧
      Recalls reply size.toNat requests kept.2.cache ∧ kept.2.model.2 ≤ 0 + requests.length := by
    have := recalls_askAll hmodel hroom requests (s := { model := (s, 0) }) hempty
    simpa only [kept, keeping, attempt_simulationTier_of_pos _ hseconds, List.nil_append] using this
  obtain ⟨hasked, hcount⟩ : asked.1 = requests.map (fun r => answerTo (reply r)) ∧
      asked.2.model.2 = 0 + requests.length := by
    have := askAll_simulateOnce hmodel requests { model := (s, 0) }
    simpa only [asked, asking, attempt_simulationTier_of_le _ hnever] using this
  refine ⟨hkept.trans hasked.symm, Nat.le_trans hfewer (Nat.le_of_eq hcount.symm), fun request => ?_⟩
  intro next
  have hserves : Serves reply size.toNat requests request kept.2 next := by
    have := simulateCached_serves hmodel hroom request hrecalls
    simpa only [next, keeping, attempt_simulationTier_of_pos _ hseconds] using this
  refine ⟨hserves.model_eq, hserves.calls_eq, fun hfailed => hserves.calls_eq fun hmem => ?_⟩
  -- what was used last has a result, so that it does not fail
  have hresult := (List.mem_filter.mp (List.mem_eraseDups.mp (List.mem_of_mem_take hmem))).2
  obtain ⟨result, hresult⟩ := Option.isSome_iff_exists.mp hresult
  exact hfailed result (hserves.answer_eq.trans (eq_of_resultIn? hresult))

/-- A model that is down for the empty program: two requests with a failure between them, and room for
one result. -/
theorem simulationTier_transparent_fussy :
    let model : Model Unit := fun question s =>
      if question.messages = simulateMessages "" [] then
        (.error { kind := .service, message := "nothing to run" }, s)
      else (.ok (.object [("output", .string "Done."), ("exitCode", .int 0)]), s)
    let reply : RunRequest → Except Fault Json := fun request =>
      (model { messages := simulateMessages request.code request.stdin } ()).1
    let size : Int := 1
    let keeping := (simulationTier model.counted 300 size).attempt
    let asking := (simulationTier model.counted 0 size).attempt
    let requests : List RunRequest := [{ code := "a" }, { code := "" }, { code := "b" }]
    let kept := keeping.askAll requests { model := ((), 0) }
    let asked := asking.askAll requests { model := ((), 0) }
    AnswersBy model reply ∧ kept.1 = asked.1 ∧ kept.2.model.2 ≤ asked.2.model.2 ∧
      ∀ request,
        let next := keeping request kept.2
        (request ∈ (lastUsed reply requests).take size.toNat → next.2.model = kept.2.model) ∧
        (request ∉ (lastUsed reply requests).take size.toNat → next.2.model.2 = kept.2.model.2 + 1) ∧
        ((∀ result, next.1 ≠ .ok (.result result)) → next.2.model.2 = kept.2.model.2 + 1) := by
  intro model reply size keeping asking requests kept asked
  have hmodel : AnswersBy model reply := fun _ _ => rfl
  -- the requests are not run here
  clear_value requests
  exact ⟨hmodel,
    simulationTier_transparent hmodel (by decide) (by decide) (by decide) size requests ()⟩

end Tier

end Coach.Execution
