import Coach.Model.Groq
import Coach.Proofs.Json.Limits
import Coach.Proofs.Json.RoundTrip
import Coach.Proofs.Number.Digits

/-!
# Replies that nobody deals with

Whoever asks a gateway is ready for the faults of services and for the fault of a secret that cannot be
taken out.  Whatever comes back of a gateway ends in one of these, or in an answer of the kind that was
wanted, but for three sorts of replies: one that asks to come back after a delay that cannot be read, one
that is nested too deep, and one in which the text of the model comes to a limit of the reader.

## Main definitions

* `Contained`: an answer of the kind that was wanted, or a fault that is dealt with
* `Unreadable`: a delay of digits that are no integer
* `IsTooDeep`, `Says`: a document nested too deep, and one with a text of the model
* `Escapes`: the replies of the three sorts
* `Replied`: the reply that comes in the end, when a connection may fail

## Main statements

* `rateLimited_contained_iff`, `readObject_contained_iff`: delays and texts
* `readReply_contained_iff`: one reply
* `model_contained_iff`: a question to the gateway
-/

namespace Coach.Model.Groq

open Coach.Config Coach.Security Coach.Service Coach.Text

/-! ### What is dealt with -/

/-- The kinds of faults that whoever asks a gateway is ready for. -/
def expectedKinds : List FaultKind := [.gateway, .reply, .rateLimit, .timeout, .security]

/-- They are faults of services, or of keeping secrets. -/
theorem isA_of_mem_expectedKinds {k : FaultKind} (h : k ∈ expectedKinds) :
    k.isA .service = true ∨ k.isA .security = true := by
  have hall : ∀ k ∈ expectedKinds, k.isA .service = true ∨ k.isA .security = true := by decide
  exact hall k h

/-- An object or a text, whichever was wanted, or a fault that whoever asks is ready for. -/
inductive Contained (wantsObject : Bool) : Except Fault Json → Prop
  | object {members : List (String × Json)} (h : wantsObject = true) :
    Contained wantsObject (.ok (.object members))
  | text {text : String} (h : wantsObject = false) : Contained wantsObject (.ok (.string text))
  | fault {fault : Fault} (h : fault.kind ∈ expectedKinds) : Contained wantsObject (.error fault)

theorem contained_error_iff {wantsObject : Bool} {fault : Fault} :
    Contained wantsObject (.error fault) ↔ fault.kind ∈ expectedKinds :=
  ⟨fun h => by cases h; assumption, .fault⟩

/-! ### Delays -/

/-- What a header says, without the white space around it. -/
def headerText (header : Option String) : List Char := strip (header.getD "").toList

/-- The header consists of digits, of which one is no decimal digit, or there are too many. -/
structure Unreadable (header : Option String) : Prop where
  nonempty : headerText header ≠ []
  digits : ∀ c ∈ headerText header, isDecimal c = true ∨ isFancyDigit c = true
  unread : (∃ c ∈ headerText header, isDecimal c = false) ∨ digitLimit < (headerText header).length

section Delays

variable {text : List Char} {header : Option String}

/-- No sign, no underscore and no white space is a digit of any kind. -/
theorem not_digit_of_mem {c : Char} (hc : c ∈ '-' :: '+' :: '_' :: spaceCodes.map Char.ofNat) :
    ¬ (isDecimal c = true ∨ isFancyDigit c = true) := by
  have hall : ∀ c ∈ '-' :: '+' :: '_' :: spaceCodes.map Char.ofNat,
      ¬ (isDecimal c = true ∨ isFancyDigit c = true) := by decide +kernel
  exact hall c hc

theorem isNumberBlank_of_digit {c : Char} (h : isDecimal c = true ∨ isFancyDigit c = true) :
    isNumberBlank c = false := by
  have hspace : isSpace c = false := by
    rw [← Bool.not_eq_true]
    intro hspace
    refine of_isSpace (P := fun c => ¬ (isDecimal c = true ∨ isFancyDigit c = true)) (fun n hn => ?_) hspace h
    exact not_digit_of_mem (by simp only [List.mem_cons, List.mem_map_of_mem hn, or_true])
  rw [isNumberBlank, hspace, Bool.false_and]

theorem splitSign_of_digits (h : ∀ c ∈ text, isDecimal c = true ∨ isFancyDigit c = true) :
    splitSign text = (false, text) := by
  unfold splitSign
  split
  · exact absurd (h '-' List.mem_cons_self) (not_digit_of_mem (by simp))
  · exact absurd (h '+' List.mem_cons_self) (not_digit_of_mem (by simp))
  · rfl

/-- Digits are read as an integer if all of them are decimal digits, and not too many. -/
theorem exists_readInt_of_digits_iff (hne : text ≠ [])
    (h : ∀ c ∈ text, isDecimal c = true ∨ isFancyDigit c = true) :
    (∃ n, readInt text = .ok n) ↔ (∀ c ∈ text, isDecimal c = true) ∧ text.length ≤ digitLimit := by
  constructor
  · rintro ⟨n, hread⟩
    have hall : ∀ c ∈ text, isDecimal c = true := by
      unfold readInt at hread
      rw [stripBy_eq_self fun c hc => isNumberBlank_of_digit (h c hc), splitSign_of_digits h] at hread
      dsimp only at hread
      split at hread
      · cases hread
      · cases hread
      · next ds _ hrun =>
        intro c hc
        rcases decimal_of_digitRun hrun c hc with hdecimal | rfl
        · exact hdecimal
        · exact absurd (h '_' hc) (not_digit_of_mem (by simp))
    exact ⟨hall, (exists_readInt_iff hne hall).mp ⟨n, hread⟩⟩
  · rintro ⟨hall, hlength⟩
    exact (exists_readInt_iff hne hall).mpr hlength

/-- Only a header of digits is read. -/
theorem retryAfter_of_not_digits (h : headerText header = [] ∨
    ¬ ∀ c ∈ headerText header, isDecimal c = true ∨ isFancyDigit c = true) : retryAfter header = .ok none := by
  unfold retryAfter
  refine if_pos ?_
  simpa only [headerText, Bool.or_eq_true, List.isEmpty_iff, Bool.not_eq_true', ← Bool.not_eq_true,
    List.all_eq_true] using h

theorem exists_retryAfter_iff (hne : headerText header ≠ [])
    (h : ∀ c ∈ headerText header, isDecimal c = true ∨ isFancyDigit c = true) :
    (∃ seconds, retryAfter header = .ok seconds) ↔ ∃ n, readInt (headerText header) = .ok n := by
  have hnot : ¬ ((headerText header).isEmpty ||
      !(headerText header).all fun c => isDecimal c || isFancyDigit c) = true := by
    simp only [Bool.or_eq_true, List.isEmpty_iff, Bool.not_eq_true', ← Bool.not_eq_true, List.all_eq_true]
    exact fun hor => hor.elim hne fun hno => hno h
  unfold retryAfter
  rw [← headerText, if_neg hnot]
  cases readInt (headerText header) with
  | ok n => exact iff_of_true ⟨some n, rfl⟩ ⟨n, rfl⟩
  | error fault => exact iff_of_false nofun nofun

theorem kind_of_retryAfter_error {fault : Fault} (h : retryAfter header = .error fault) :
    fault.kind = .value := by
  unfold retryAfter at h
  dsimp only at h
  split at h
  · cases h
  · split at h
    · cases h
    · obtain rfl := Except.error.inj h
      rfl

/-- A delay is read unless it is unreadable. -/
theorem exists_retryAfter_iff_not_unreadable :
    (∃ seconds, retryAfter header = .ok seconds) ↔ ¬ Unreadable header := by
  by_cases hnone : headerText header = [] ∨
      ¬ ∀ c ∈ headerText header, isDecimal c = true ∨ isFancyDigit c = true
  · exact iff_of_true ⟨none, retryAfter_of_not_digits hnone⟩ fun h =>
      hnone.elim h.nonempty fun hnot => hnot h.digits
  · obtain ⟨hne, hdigits⟩ := not_or.mp hnone
    replace hdigits := not_not.mp hdigits
    rw [exists_retryAfter_iff hne hdigits, exists_readInt_of_digits_iff hne hdigits]
    constructor
    · rintro ⟨hall, hlength⟩ h
      rcases h.unread with ⟨c, hc, hfancy⟩ | hlong
      · cases (hall c hc).symm.trans hfancy
      · omega
    · refine fun h => ⟨fun c hc => ?_, ?_⟩
      · by_contra hfancy
        exact h ⟨hne, hdigits, .inl ⟨c, hc, Bool.eq_false_iff.mpr hfancy⟩⟩
      · by_contra hlong
        exact h ⟨hne, hdigits, .inr (Nat.lt_of_not_le hlong)⟩

/-- A fault of too many requests is told as such, unless the delay cannot be read. -/
theorem rateLimited_contained_iff {wantsObject : Bool} {message : String} :
    Contained wantsObject (.error (rateLimited message header)) ↔ ¬ Unreadable header := by
  rw [contained_error_iff, rateLimited, ← exists_retryAfter_iff_not_unreadable]
  cases hread : retryAfter header with
  | ok seconds => exact iff_of_true (by simp [expectedKinds]) ⟨seconds, rfl⟩
  | error fault =>
    refine iff_of_false ?_ nofun
    rw [kind_of_retryAfter_error hread]
    decide

end Delays

/-! ### Texts of a model -/

section Texts

variable {text : String} {reply : WebReply}

/-- Where an object is wanted, a text is dealt with unless it comes to a limit of the reader. -/
theorem readObject_contained_iff : Contained true ((readObject text).map .object) ↔
    ¬ (text.length ≤ replyLimit ∧ Json.PastLimits (stripFences text.toList)) := by
  unfold readObject
  split
  · next hlong => exact iff_of_true (.fault (by simp [badReply, expectedKinds])) fun h => by omega
  · next hshort =>
    by_cases hpast : Json.PastLimits (stripFences text.toList)
    · refine iff_of_false ?_ (not_not.mpr ⟨by omega, hpast⟩)
      obtain ⟨count, hread⟩ | hread := Json.read_of_pastLimits hpast
      · rw [hread]
        exact fun h => absurd (contained_error_iff.mp h) (by simp [jsonFault, expectedKinds])
      · rw [hread]
        exact fun h => absurd (contained_error_iff.mp h) (by simp [jsonFault, expectedKinds])
    · refine iff_of_true ?_ fun h => hpast h.2
      obtain ⟨j, hread⟩ | ⟨fault, ⟨cause, line, column, offset, rfl⟩, hread⟩ :=
        Json.read_of_not_pastLimits hpast
      · rw [hread]
        cases j with
        | object members => exact .object rfl
        | _ => exact .fault (by simp [badReply, expectedKinds])
      · rw [hread]
        exact .fault (by simp [jsonFault, expectedKinds])

/-- Where a text is wanted, any text is dealt with. -/
theorem answerOf_false_contained (text : String) : Contained false (answerOf false text) := by
  unfold answerOf
  rw [if_neg Bool.false_ne_true]
  split
  · exact .fault (by simp [badReply, expectedKinds])
  · exact .text rfl

/-- The document in the reply is nested too deep. -/
def IsTooDeep (reply : WebReply) : Prop :=
  ∃ text, documentText reply.body.toList = .ok text ∧ Json.Exceeds text .tooDeep

theorem json_eq_tooDeep_iff : reply.json = .error (.unread .tooDeep) ↔ IsTooDeep reply := by
  unfold WebReply.json IsTooDeep
  cases documentText reply.body.toList with
  | error fault => exact iff_of_false nofun (by rintro ⟨_, ⟨⟩, _⟩)
  | ok text =>
    simp only [Except.ok.injEq, exists_eq_left', ← Json.read_tooDeep_iff]
    cases Json.read text with
    | error fault => simp [Except.mapError]
    | ok j => exact iff_of_false nofun nofun

/-- The reply holds a text of the model. -/
def Says (reply : WebReply) (text : String) : Prop :=
  ∃ j, reply.json = .ok j ∧ content j = .ok (.string text)

theorem replyText_eq_ok_iff : replyText reply = .ok text ↔ Says reply text := by
  unfold replyText Says
  cases reply.json with
  | error fault => exact iff_of_false nofun (by rintro ⟨j, ⟨⟩, -⟩)
  | ok j =>
    cases hcontent : content j with
    | error cause =>
      refine iff_of_false (by simp [hcontent]) ?_
      rintro ⟨_, ⟨⟩, h⟩
      cases hcontent.symm.trans h
    | ok found =>
      cases found with
      | string found =>
        simp only [hcontent]
        constructor
        · rintro ⟨⟩
          exact ⟨j, rfl, hcontent⟩
        · rintro ⟨_, ⟨⟩, h⟩
          obtain ⟨⟩ := hcontent.symm.trans h
          rfl
      | _ =>
        refine iff_of_false (by simp [hcontent]) ?_
        rintro ⟨_, ⟨⟩, h⟩
        cases hcontent.symm.trans h

/-- A body that cannot be read is dealt with unless it is nested too deep. -/
theorem kind_bodyFault_mem_iff {fault : BodyFault} :
    (bodyFault fault).kind ∈ expectedKinds ↔ fault ≠ .unread .tooDeep := by
  match fault with
  | .unread .tooDeep => exact iff_of_false (by simp [bodyFault, expectedKinds]) (not_not.mpr rfl)
  | .unread (.syntaxError ..) | .unread (.tooManyDigits _) | .undecoded _ =>
    exact iff_of_true (by simp [bodyFault, shapeFault, badReply, expectedKinds]) nofun

/-- A reply that holds no text of the model is dealt with unless it is nested too deep. -/
theorem replyText_error_iff {fault : Fault} (h : replyText reply = .error fault) :
    fault.kind ∈ expectedKinds ↔ ¬ IsTooDeep reply := by
  rw [← json_eq_tooDeep_iff]
  unfold replyText at h
  split at h
  · next found hbody =>
    obtain rfl := Except.error.inj h
    rw [hbody, kind_bodyFault_mem_iff, ne_eq, Except.error.injEq]
  · next j hbody =>
    refine iff_of_true ?_ (by rw [hbody]; nofun)
    split at h
    · obtain rfl := Except.error.inj h
      simp [shapeFault, badReply, expectedKinds]
    · cases h
    · obtain rfl := Except.error.inj h
      simp [badReply, expectedKinds]

end Texts

/-! ### Replies -/

/-- The replies from which a fault comes that nobody is ready for. -/
inductive Escapes (wantsObject : Bool) (reply : WebReply) : Prop
  /-- The reply asks to come back after a delay that cannot be read. -/
  | delay (hstatus : reply.status = 429) (h : Unreadable (reply.header? "retry-after"))
  /-- The document in the reply is nested too deep. -/
  | document (hstatus : reply.status < 400) (h : IsTooDeep reply)
  /-- The text of the model is to be an object, and comes to a limit of the reader. -/
  | text {text : String} (hstatus : reply.status < 400) (hmode : wantsObject = true)
    (hsaid : Says reply text) (hlength : text.length ≤ replyLimit)
    (h : Json.PastLimits (stripFences text.toList))

/-- A reply with a document comes to what its text comes to. -/
theorem answer_contained_iff {wantsObject : Bool} {reply : WebReply} (hstatus : reply.status < 400) :
    Contained wantsObject ((replyText reply).bind (answerOf wantsObject)) ↔ ¬ Escapes wantsObject reply := by
  have hother : reply.status ≠ 429 := by omega
  cases hreply : replyText reply with
  | error fault =>
    refine contained_error_iff.trans ((replyText_error_iff hreply).trans (not_congr ⟨.document hstatus, ?_⟩))
    rintro (⟨h429, -⟩ | ⟨-, hdeep⟩ | ⟨-, -, hsaid, -, -⟩)
    · exact absurd h429 hother
    · exact hdeep
    · cases hreply.symm.trans (replyText_eq_ok_iff.mpr hsaid)
  | ok text =>
    have hsaid := replyText_eq_ok_iff.mp hreply
    have hshallow : ¬ IsTooDeep reply := fun hdeep => by
      obtain ⟨j, hbody, -⟩ := hsaid
      cases hbody.symm.trans (json_eq_tooDeep_iff.mpr hdeep)
    change Contained wantsObject (answerOf wantsObject text) ↔ _
    cases wantsObject with
    | false =>
      refine iff_of_true (answerOf_false_contained text) ?_
      rintro (⟨h429, -⟩ | ⟨-, hdeep⟩ | ⟨-, ⟨⟩, -⟩)
      · exact hother h429
      · exact hshallow hdeep
    | true =>
      refine readObject_contained_iff.trans (not_congr ⟨fun h => .text hstatus rfl hsaid h.1 h.2, ?_⟩)
      rintro (⟨h429, -⟩ | ⟨-, hdeep⟩ | ⟨-, -, hsaid', hlength, hpast⟩)
      · exact absurd h429 hother
      · exact absurd hdeep hshallow
      · obtain ⟨⟩ := hreply.symm.trans (replyText_eq_ok_iff.mpr hsaid')
        exact ⟨hlength, hpast⟩

/-- **What is read off a reply is contained unless the reply is of the three sorts.** -/
theorem readReply_contained_iff {wantsObject : Bool} {reply : WebReply} :
    Contained wantsObject (readReply wantsObject reply) ↔ ¬ Escapes wantsObject reply := by
  unfold readReply
  split
  · next h429 =>
    rw [rateLimited_contained_iff]
    refine not_congr ⟨.delay h429, fun h => ?_⟩
    cases h with
    | delay _ h => exact h
    | _ => omega
  · split
    · refine iff_of_true (.fault (by simp [gatewayFault, expectedKinds])) fun h => ?_
      cases h <;> omega
    · next hlow => exact answer_contained_iff (by omega)

/-! ### A question -/

/-- After at most so many failures of the connection, the action has an outcome in the end. -/
inductive Replied {σ : Type} (action : σ → Except Fault WebReply × σ) : Nat → σ → WebReply → Prop
  | now {more : Nat} {s s' : σ} {reply : WebReply} (h : action s = (.ok reply, s')) :
    Replied action more s reply
  | again {more : Nat} {s s' : σ} {reply : WebReply} {fault : Fault} (h : action s = (.error fault, s'))
    (hfault : fault.isAny transientKinds = true) (hrest : Replied action more s' reply) :
    Replied action (more + 1) s reply

section Questions

variable {σ : Type} {action : σ → Except Fault WebReply × σ} {s : σ} {reply : WebReply} {more : Nat}

theorem retry_eq_ok_iff :
    (retry transientKinds action more s).1 = .ok reply ↔ Replied action more s reply := by
  induction more generalizing s with
  | zero =>
    rcases haction : action s with ⟨answer, s'⟩
    rw [retry, haction]
    constructor
    · rintro rfl
      exact .now haction
    · rintro (⟨h⟩ | _)
      rw [haction] at h
      exact (Prod.mk.inj h).1
  | succ more ih =>
    rcases haction : action s with ⟨answer, s'⟩
    cases answer with
    | ok found =>
      simp only [retry, haction]
      constructor
      · rintro ⟨⟩
        exact .now haction
      · intro h
        cases h with
        | now h => exact (Prod.mk.inj (haction.symm.trans h)).1
        | again h => cases (Prod.mk.inj (haction.symm.trans h)).1
    | error fault =>
      simp only [retry, haction]
      split
      · next hany =>
        rw [ih]
        refine ⟨.again haction hany, fun h => ?_⟩
        cases h with
        | now h => cases (Prod.mk.inj (haction.symm.trans h)).1
        | again h _ hrest =>
          obtain ⟨-, rfl⟩ := Prod.mk.inj (haction.symm.trans h)
          exact hrest
      · next hnot =>
        refine iff_of_false nofun fun h => ?_
        cases h with
        | now h => cases (Prod.mk.inj (haction.symm.trans h)).1
        | again h hany =>
          obtain ⟨⟨⟩, -⟩ := Prod.mk.inj (haction.symm.trans h)
          exact hnot hany

/-- What the last attempt fails with, one of the attempts has failed with. -/
theorem exists_of_retry_error {fault : Fault} (h : (retry transientKinds action more s).1 = .error fault) :
    ∃ s₁ s₂, action s₁ = (.error fault, s₂) := by
  induction more generalizing s with
  | zero => exact ⟨s, (action s).2, Prod.ext h rfl⟩
  | succ more ih =>
    rcases haction : action s with ⟨answer, s'⟩
    cases answer with
    | ok found =>
      simp only [retry, haction] at h
      cases h
    | error found =>
      simp only [retry, haction] at h
      split at h
      · exact ih h
      · obtain ⟨⟩ := h
        exact ⟨s, s', haction⟩

/-- A secret that cannot be taken out is a fault of keeping secrets. -/
theorem kind_of_document_error {settings : GroqSettings} {r : Redactor} {q : Question} {fault : Fault}
    (h : document settings r q = .error fault) : fault.kind = .security := by
  have hredact : ∀ {text : String} {fault : Fault}, r.redactOutbound text = .error fault →
      fault.kind = .security := fun {text fault} h => by
    unfold Redactor.redactOutbound at h
    split at h
    · cases h
    · obtain rfl := Except.error.inj h
      rfl
  have hall : ∀ {messages : List Message} {fault : Fault}, redacted r messages = .error fault →
      fault.kind = .security := by
    intro messages fault h
    induction messages with
    | nil => cases h
    | cons m messages ih =>
      rw [redacted, List.mapM_cons] at h
      cases hm : r.redactOutbound m.content with
      | error found =>
        rw [hm] at h
        obtain rfl := Except.error.inj h
        exact hredact hm
      | ok clean =>
        rw [hm] at h
        cases hrest : redacted r messages with
        | error found =>
          unfold redacted at hrest
          rw [hrest] at h
          obtain rfl := Except.error.inj h
          exact ih hrest
        | ok rest =>
          unfold redacted at hrest
          rw [hrest] at h
          cases h
  unfold document at h
  cases hmessages : redacted r q.messages with
  | error found =>
    rw [hmessages] at h
    obtain rfl := Except.error.inj h
    exact hall hmessages
  | ok clean =>
    rw [hmessages] at h
    cases h

/-- A fault of the connection becomes one that whoever asks is ready for. -/
theorem connectionFault_contained {wantsObject : Bool} {fault : Fault} (h : fault.isA .transport = true) :
    Contained wantsObject (.error (connectionFault fault)) := by
  rw [connectionFault, if_pos h]
  split
  · exact .fault (by simp [expectedKinds])
  · exact .fault (by simp [gatewayFault, expectedKinds])

end Questions

/-- The request that is sent with a document. -/
def requestOf (settings : GroqSettings) (document : Json) : WebRequest :=
  { address := settings.baseUrl, authorization := some s!"Bearer {settings.apiKey}", document }

/-- **A gateway is contained exactly in so far as the reply that comes in the end is.**  Whatever is asked, in
either mode, and however often the connection fails: the model answers what was wanted, or fails in a way
that whoever asks is ready for, unless the reply is of one of the three sorts. -/
theorem model_contained_iff {σ : Type} (settings : GroqSettings) (r : Redactor) (more : Nat)
    {web : WebService σ} (hweb : ∀ request s fault s', web request s = (.error fault, s') →
      fault.isA .transport = true) (q : Question) (s : σ) :
    Contained q.wantsObject (model settings r more web q s).1 ↔
      ∀ sent reply, document settings r q = .ok sent →
        Replied (web (requestOf settings sent)) more s reply → ¬ Escapes q.wantsObject reply := by
  unfold model
  cases hdocument : document settings r q with
  | error fault =>
    refine iff_of_true (.fault ?_) nofun
    rw [kind_of_document_error hdocument]
    decide
  | ok sent =>
    dsimp only
    generalize houtcome : retry transientKinds (web _) more s = outcome
    have hreplied : ∀ reply, Replied (web (requestOf settings sent)) more s reply ↔
        outcome.1 = .ok reply := fun reply => houtcome ▸ retry_eq_ok_iff.symm
    have hfailed : ∀ {fault}, outcome.1 = .error fault →
        ∃ s₁ s₂, web (requestOf settings sent) s₁ = (.error fault, s₂) :=
      fun h => exists_of_retry_error (houtcome ▸ h)
    obtain ⟨answer, s'⟩ := outcome
    cases answer with
    | ok reply =>
      refine readReply_contained_iff.trans ⟨?_, fun h => h sent reply rfl ((hreplied reply).mpr rfl)⟩
      rintro h _ other ⟨⟩ hother
      obtain ⟨⟩ := (hreplied other).mp hother
      exact h
    | error fault =>
      obtain ⟨s₁, s₂, haction⟩ := hfailed rfl
      refine iff_of_true (connectionFault_contained (hweb _ s₁ fault s₂ haction)) ?_
      rintro _ other ⟨⟩ hother
      cases (hreplied other).mp hother

/-- A connection that is refused at first, and then a gateway that is down. -/
theorem model_contained_iff_refused_then_down :
    let web : WebService Nat := fun _ asked =>
      if asked = 0 then (.error { kind := .connect, message := "refused" }, 1)
      else (.ok { status := 503, body := "down" }, asked + 1)
    let q : Question := { messages := [{ role := .user, content := "hi" }] }
    (∀ request s fault s', web request s = (.error fault, s') → fault.isA .transport = true) ∧
      Contained true (model { apiKey := "key" } {} 2 web q 0).1 := by
  intro web q
  have hweb : ∀ request s fault s', web request s = (.error fault, s') → fault.isA .transport = true := by
    intro request s fault s' h
    by_cases hs : s = 0
    · obtain ⟨⟨⟩, -⟩ := Prod.mk.inj ((if_pos hs).symm.trans h)
      decide
    · obtain ⟨⟨⟩, -⟩ := Prod.mk.inj ((if_neg hs).symm.trans h)
  have hdown : ∀ request {more s reply}, Replied (web request) more s reply → reply.status = 503 := by
    intro request more s reply h
    induction h with
    | @now _ s _ _ h =>
      by_cases hs : s = 0
      · obtain ⟨⟨⟩, -⟩ := Prod.mk.inj ((if_pos hs).symm.trans h)
      · obtain ⟨⟨⟩, -⟩ := Prod.mk.inj ((if_neg hs).symm.trans h)
        rfl
    | again _ _ _ ih => exact ih
  refine ⟨hweb, (model_contained_iff { apiKey := "key" } {} 2 hweb q 0).mpr ?_⟩
  intro sent reply _ hreplied hescapes
  have hstatus := hdown (requestOf { apiKey := "key" } sent) hreplied
  cases hescapes <;> omega

/-- The document of a reply in which the model says a text. -/
def documentSaying (text : String) : Json :=
  .object [("choices", .array [.object [("message", .object [("content", .string text)])]])]

theorem says_documentSaying (text : String) : Says { body := (documentSaying text).line } text := by
  refine ⟨documentSaying text, ?_, rfl⟩
  have hplain : Json.Plain Json.nestingLimit (documentSaying text) :=
    .object 989 _ (by simp) <| List.forall_mem_singleton.mpr <|
      .array 988 _ <| List.forall_mem_singleton.mpr <|
        .object 987 _ (by simp) <| List.forall_mem_singleton.mpr <|
          .object 986 _ (by simp) <| List.forall_mem_singleton.mpr <| .string 986 text
  have htext : documentText ((documentSaying text).line).toList = .ok ((documentSaying text).line).toList := by
    rw [Json.line, Json.write, String.toList_ofList]
    rfl
  have hread : Json.read ((documentSaying text).line).toList = .ok (documentSaying text) :=
    Json.read_write Json.blank_lineStyle hplain
  simp only [WebReply.json, htext, hread, Except.mapError]

/-- A number by itself stands between no fences. -/
theorem stripFences_ones (n : Nat) :
    stripFences (List.replicate (n + 1) '1') = List.replicate (n + 1) '1' := by
  have hstrip : strip (List.replicate (n + 1) '1') = List.replicate (n + 1) '1' :=
    stripBy_eq_self (p := isSpace) fun c hc => List.eq_of_mem_replicate hc ▸ by decide
  rw [stripFences, hstrip]
  rfl

/-- An integer past the digit limit is no object, but what comes of it is a fault that nobody is ready for. -/
theorem not_contained_ones {count : Nat} (hlimit : digitLimit ≤ count) (hlength : count < replyLimit) :
    ¬ Contained true (readReply true
      { body := (documentSaying (String.ofList (List.replicate (count + 1) '1'))).line }) := by
  rw [readReply_contained_iff, not_not]
  have hstatus : (200 : Nat) < 400 := by decide
  refine .text hstatus rfl (says_documentSaying _) ?_ ?_
  · rw [String.length_ofList, List.length_replicate]
    omega
  · rw [String.toList_ofList, stripFences_ones]
    exact ⟨_, Json.exceeds_ones (by omega)⟩

/-- A question that can be sent comes to what is read off the reply to it. -/
theorem model_of_reply {settings : GroqSettings} {r : Redactor} {q : Question} {sent : Json}
    (hsent : document settings r q = .ok sent) (reply : WebReply) :
    (model settings r 0 (fun _ (s : Unit) => (.ok reply, s)) q ()).1 = readReply q.wantsObject reply := by
  unfold model
  rw [hsent]
  rfl

/-- The model says an integer of 4301 digits. -/
theorem model_of_long_integer :
    ¬ Contained true (model { apiKey := "key" } {} 0 (fun _ (s : Unit) =>
      (.ok { body := (documentSaying (String.ofList (List.replicate (4300 + 1) '1'))).line }, s))
      { messages := [{ role := .user, content := "hi" }] } ()).1 := by
  have hsent : document { apiKey := "key" } {} { messages := [{ role := .user, content := "hi" }] } =
      .ok (documentOf { apiKey := "key" } [{ role := .user, content := "hi" }] true) := rfl
  rw [model_of_reply hsent]
  exact not_contained_ones (by decide) (by decide)

end Coach.Model.Groq
