import Coach.Learner.History
import Coach.Learner.Tracker
import Coach.Proofs.Storage.Keeping

/-!
# Trackers and histories over one store

Any number of trackers and histories may share a store, and all that passes between them passes
through it.  What a call does to the counts and to the records in the store is a function of what they
were: a tracker leaves the records as they are, a history leaves the counts.

## Main definitions

* `Call`, `Call.run`: a call of a tracker or of a history
* `after`: the state of the store after some calls
* `held`: the items that are read under a key
* `Call.onMistakes`, `Call.onRecords`: what a call makes of the counts and of the records
* `Told`: a call of a tracker in which its listeners were told

## Main statements

* `Call.run_spec`: one call
* `after_spec`: any calls

## Design notes

A call comes with the tracker or the history by which it is made, as it is at that time.  So nothing is
said of how many there are, and their clocks may go as they like.  Lists of calls begin with the last.

What is stored need not be what is read back; `keptMistakes` and `keptRecords` stand between.
-/

namespace Coach.Learner

open Coach.Execution Coach.Service Coach.Storage Coach.Time

variable {σ : Type}

/-! ### Calls -/

/-- A call of a tracker or of a history. -/
inductive Call where
  | observe (t : Tracker) (text : String)
  | reset (t : Tracker) (symbol : String)
  | resetAll (t : Tracker)
  | count (symbol : String)
  | mistakes
  | record (h : History) (source : String) (result : RunResult)
  | clear
  | runs

/-- The state of the store after a call. -/
def Call.run (store : Store σ) : Call → σ → σ
  | .observe t text, s => (t.observe store text s).state
  | .reset t symbol, s => (t.reset store symbol s).state
  | .resetAll t, s => (t.resetAll store s).state
  | .count symbol, s => (Tracker.count store symbol s).2
  | .mistakes, s => (Tracker.records store s).2
  | .record h source result, s => (h.record store source result s).2.2
  | .clear, s => (History.clear store s).2
  | .runs, s => (History.records store s).2

/-- The state of the store after some calls, the last of which stands first. -/
def after (store : Store σ) (calls : List Call) (s : σ) : σ := calls.foldr (Call.run store) s

/-- The symbols that a tracker finds in a text. -/
def Tracker.found (t : Tracker) (text : String) : List String :=
  if text.isEmpty then [] else symbolsIn t.signatures text

/-- The record that a history makes of a run. -/
def History.entry (h : History) (source : String) (result : RunResult) : RunRecord :=
  RunRecord.ofResult (recordId h.next) h.clock.read.1 source result

/-! ### Items under a key -/

section Held

variable {α : Type}

/-- The items under a key; none if there is no text or it cannot be read. -/
def held (key : String) (of? : String → Option (List α)) (c : Contents) : List α :=
  ((c key).bind of?).getD []

/-- What is held under other keys is the same. -/
def AgreeOff (key : String) (c c' : Contents) : Prop := ∀ other, other ≠ key → c' other = c other

theorem AgreeOff.update {key : String} {c c' : Contents} (h : AgreeOff key c c')
    (value : Option String) : AgreeOff key c (Function.update c' key value) :=
  fun other hother => (Function.update_of_ne hother _ _).trans (h other hother)

theorem AgreeOff.held_eq {key other : String} {c c' : Contents} (h : AgreeOff key c c')
    (hne : other ≠ key) (of? : String → Option (List α)) : held other of? c' = held other of? c := by
  rw [held, held, h other hne]

/-- A state that has these items under a key, and under the others what `c` has. -/
def Has (Holds : σ → Contents → Prop) (key : String) (of? : String → Option (List α)) (c : Contents)
    (items : List α) (s : σ) : Prop :=
  ∃ c', Holds s c' ∧ AgreeOff key c c' ∧ held key of? c' = items

/-- Loading items: a text that cannot be read is removed and counts as none. -/
def loadItems (store : Store σ) (key : String) (of? : String → Option (List α)) (s : σ) :
    Except Fault (List α) × σ :=
  match store.get key s with
  | .error fault => (.error fault, s)
  | .ok none => (.ok [], s)
  | .ok (some text) => match of? text with
    | some items => (.ok items, s)
    | none => match store.remove key s with
      | (.ok (), s) => (.ok [], s)
      | (.error fault, s) => (.error fault, s)

variable {store : Store σ} {Holds : σ → Contents → Prop} {key : String}
  {of? : String → Option (List α)} {c : Contents} {items : List α} {s : σ}

theorem has_held (h : Holds s c) : Has Holds key of? c (held key of? c) s :=
  ⟨c, h, fun _ _ => rfl, rfl⟩

theorem Has.set (hstore : store.Keeps Holds) (h : Has Holds key of? c items s) (text : String) :
    ∃ s', store.set key text s = (.ok (), s') ∧ Has Holds key of? c ((of? text).getD []) s' := by
  obtain ⟨c', hs, hoff, -⟩ := h
  obtain ⟨s', hset, hs'⟩ := hstore.set_eq key text hs
  refine ⟨s', hset, _, hs', hoff.update _, ?_⟩
  rw [held, Function.update_self, Option.bind_some]

theorem Has.remove (hstore : store.Keeps Holds) (h : Has Holds key of? c items s) :
    ∃ s', store.remove key s = (.ok (), s') ∧ Has Holds key of? c [] s' := by
  obtain ⟨c', hs, hoff, -⟩ := h
  obtain ⟨s', hremove, hs'⟩ := hstore.remove_eq key hs
  refine ⟨s', hremove, _, hs', hoff.update _, ?_⟩
  rw [held, Function.update_self, Option.bind_none, Option.getD_none]

theorem Has.load (hstore : store.Keeps Holds) (h : Has Holds key of? c items s) :
    ∃ s', loadItems store key of? s = (.ok items, s') ∧ Has Holds key of? c items s' := by
  obtain ⟨c', hs, hoff, hitems⟩ := h
  have hget := hstore.get_eq key hs
  have hhas : Has Holds key of? c items s := ⟨c', hs, hoff, hitems⟩
  unfold loadItems
  cases hc : c' key with
  | none =>
    obtain rfl : [] = items := by rw [← hitems, held, hc]; rfl
    exact ⟨s, by rw [hget, hc], hhas⟩
  | some text =>
    cases htext : of? text with
    | some found =>
      obtain rfl : found = items := by rw [← hitems, held, hc, Option.bind_some, htext]; rfl
      exact ⟨s, by rw [hget, hc]; simp only [htext], hhas⟩
    | none =>
      obtain rfl : [] = items := by rw [← hitems, held, hc, Option.bind_some, htext]; rfl
      obtain ⟨s', hremove, hhas'⟩ := hhas.remove hstore
      exact ⟨s', by rw [hget, hc]; simp only [htext, hremove], hhas'⟩

end Held

/-! ### Counts -/

/-- What is read back of counts that were stored. -/
def keptMistakes (m : Mistakes) : Mistakes := (mistakesOf? m.json.line).getD []

/-- What a call makes of the counts. -/
def Call.onMistakes : Call → Mistakes → Mistakes
  | .observe t text, m =>
    if t.found text = [] then m else keptMistakes (m.observe t.clock.read.1 (t.found text))
  | .reset _ symbol, m => if (lookupPair m symbol).isNone then m else keptMistakes (erasePair m symbol)
  | .resetAll _, _ => []
  | _, m => m

section Mistakes

variable {store : Store σ} {Holds : σ → Contents → Prop} {c : Contents} {m : Mistakes} {s : σ}

/-- A state that has these counts, and otherwise what `c` has. -/
abbrev HasMistakes (Holds : σ → Contents → Prop) (c : Contents) (m : Mistakes) (s : σ) : Prop :=
  Has Holds mistakesKey mistakesOf? c m s

theorem loadMistakes_eq (store : Store σ) (s : σ) :
    loadMistakes store s = loadItems store mistakesKey mistakesOf? s := by
  unfold loadMistakes loadItems
  rcases store.get mistakesKey s with fault | _ | text
  · rfl
  · rfl
  · dsimp only
    rcases mistakesOf? text with _ | found
    · rcases store.remove mistakesKey s with ⟨_ | _, s'⟩ <;> rfl
    · rfl

theorem HasMistakes.records (hstore : store.Keeps Holds) (h : HasMistakes Holds c m s) :
    ∃ s', Tracker.records store s = (.ok m.records, s') ∧ HasMistakes Holds c m s' := by
  obtain ⟨s', hload, hhas⟩ := h.load hstore
  exact ⟨s', by rw [Tracker.records, loadMistakes_eq, hload], hhas⟩

theorem HasMistakes.count (hstore : store.Keeps Holds) (h : HasMistakes Holds c m s)
    (symbol : String) :
    ∃ s', Tracker.count store symbol s = (.ok (m.count symbol), s') ∧ HasMistakes Holds c m s' := by
  obtain ⟨s', hload, hhas⟩ := h.load hstore
  exact ⟨s', by rw [Tracker.count, loadMistakes_eq, hload], hhas⟩

/-- A reaction in which some listeners were told the counts that are held behind it. -/
structure Told {α : Type} (Holds : σ → Contents → Prop) (c : Contents) (m : Mistakes)
    (listeners : List String) (answer : α) (r : Reaction σ α) : Prop where
  answer_eq : r.answer = .ok answer
  notices_eq : r.notices = listeners.map fun listener => { listener, records := m.records }
  listeners_eq : r.tracker.listeners = listeners
  has : HasMistakes Holds c m r.state

/-- Telling the listeners changes nothing that is held. -/
theorem HasMistakes.notify {α : Type} (hstore : store.Keeps Holds) (h : HasMistakes Holds c m s)
    (t : Tracker) (answer : α) :
    Told Holds c m t.listeners answer (t.notify store answer s) := by
  unfold Tracker.notify
  split
  · next hnone =>
    refine ⟨rfl, ?_, rfl, h⟩
    rw [List.isEmpty_iff.mp hnone]
    rfl
  · obtain ⟨s', hrecords, hhas⟩ := h.records hstore
    rw [hrecords]
    exact ⟨rfl, rfl, rfl, hhas⟩

/-- A text in which nothing is found leaves the store as it was. -/
theorem observe_of_found_eq_nil {t : Tracker} {text : String} (h : t.found text = [])
    (store : Store σ) (s : σ) :
    t.observe store text s = { answer := .ok false, tracker := t, state := s } := by
  have hempty : (t.found text).isEmpty = true := by rw [h]; rfl
  exact if_pos hempty

theorem HasMistakes.told_observe (hstore : store.Keeps Holds) (h : HasMistakes Holds c m s)
    {t : Tracker} {text : String} (hfound : t.found text ≠ []) :
    Told Holds c (keptMistakes (m.observe t.clock.read.1 (t.found text))) t.listeners true
      (t.observe store text s) := by
  obtain ⟨s', hload, hhas⟩ := h.load hstore
  obtain ⟨s'', hset, hhas'⟩ :=
    hhas.set hstore (m.observe t.clock.read.1 (t.found text)).json.line
  have hsymbols : observeSymbols store t.clock.read.1 (t.found text) s = (.ok (), s'') := by
    rw [observeSymbols, loadMistakes_eq, hload]
    exact hset
  have hempty : ¬ (t.found text).isEmpty = true := by rwa [List.isEmpty_iff]
  let counted : Tracker :=
    { t with clock := t.clock.read.2, observed := t.observed + (t.found text).length }
  have hobserve : t.observe store text s = counted.notify store true s'' := by
    rw [Tracker.found] at hsymbols hempty
    simp only [counted, Tracker.found, Tracker.observe, if_neg hempty, hsymbols]
  rw [hobserve]
  exact HasMistakes.notify hstore hhas' counted true

theorem HasMistakes.observe (hstore : store.Keeps Holds) (h : HasMistakes Holds c m s) {t : Tracker}
    {text : String} (hfound : t.found text ≠ []) :
    (t.observe store text s).answer = .ok true ∧
      HasMistakes Holds c (keptMistakes (m.observe t.clock.read.1 (t.found text)))
        (t.observe store text s).state :=
  ⟨(h.told_observe hstore hfound).answer_eq, (h.told_observe hstore hfound).has⟩

/-- Forgetting a symbol that is not there tells nobody. -/
theorem HasMistakes.reset_of_none (hstore : store.Keeps Holds) (h : HasMistakes Holds c m s)
    (t : Tracker) {symbol : String} (hnone : lookupPair m symbol = none) :
    ∃ s', t.reset store symbol s = { answer := .ok (), tracker := t, state := s' } ∧
      HasMistakes Holds c m s' := by
  obtain ⟨s', hload, hhas⟩ := h.load hstore
  refine ⟨s', ?_, hhas⟩
  simp only [Tracker.reset, resetSymbol, loadMistakes_eq, hload, hnone, Option.isNone_none, if_true]

theorem HasMistakes.told_reset (hstore : store.Keeps Holds) (h : HasMistakes Holds c m s) (t : Tracker)
    {symbol : String} (hsome : lookupPair m symbol ≠ none) :
    Told Holds c (keptMistakes (erasePair m symbol)) t.listeners () (t.reset store symbol s) := by
  obtain ⟨s', hload, hhas⟩ := h.load hstore
  obtain ⟨s'', hset, hhas'⟩ := hhas.set hstore (Mistakes.json (erasePair m symbol)).line
  have hreset : t.reset store symbol s = t.notify store () s'' := by
    rw [Tracker.reset, resetSymbol, loadMistakes_eq, hload]
    simp only [Option.isNone_iff_eq_none, if_neg hsome, saveMistakes, hset]
  rw [hreset]
  exact HasMistakes.notify hstore hhas' t ()

theorem HasMistakes.reset (hstore : store.Keeps Holds) (h : HasMistakes Holds c m s) (t : Tracker)
    (symbol : String) :
    HasMistakes Holds c ((Call.reset t symbol).onMistakes m) (t.reset store symbol s).state := by
  rw [Call.onMistakes]
  split
  · next hnone =>
    obtain ⟨s', hreset, hhas⟩ := h.reset_of_none hstore t (Option.isNone_iff_eq_none.mp hnone)
    rwa [hreset]
  · next hsome => exact (h.told_reset hstore t (mt Option.isNone_iff_eq_none.mpr hsome)).has

theorem HasMistakes.told_resetAll (hstore : store.Keeps Holds) (h : HasMistakes Holds c m s)
    (t : Tracker) : Told Holds c [] t.listeners () (t.resetAll store s) := by
  obtain ⟨s', hremove, hhas⟩ := h.remove hstore
  rw [Tracker.resetAll, Learner.resetAll, hremove]
  exact HasMistakes.notify hstore hhas t ()

end Mistakes

/-! ### Records -/

/-- What is read back of records that were stored. -/
def keptRecords (records : List RunRecord) : List RunRecord :=
  (recordsOf? (textOfRecords records)).getD []

/-- What a call makes of the records. -/
def Call.onRecords : Call → List RunRecord → List RunRecord
  | .record h source result, found => keptRecords ((h.entry source result :: found).take h.limit)
  | .clear, _ => []
  | _, found => found

section Records

variable {store : Store σ} {Holds : σ → Contents → Prop} {c : Contents} {found : List RunRecord} {s : σ}

/-- A state that has these records, and otherwise what `c` has. -/
abbrev HasRecords (Holds : σ → Contents → Prop) (c : Contents) (found : List RunRecord) (s : σ) : Prop :=
  Has Holds historyKey recordsOf? c found s

theorem historyRecords_eq (store : Store σ) (s : σ) :
    History.records store s = loadItems store historyKey recordsOf? s := by
  unfold History.records loadItems
  rcases store.get historyKey s with fault | _ | text
  · rfl
  · rfl
  · dsimp only
    rcases recordsOf? text with _ | found
    · rcases store.remove historyKey s with ⟨_ | _, s'⟩ <;> rfl
    · rfl

theorem HasRecords.record (hstore : store.Keeps Holds) (h : HasRecords Holds c found s) (history : History)
    (source : String) (result : RunResult) :
    HasRecords Holds c (keptRecords ((history.entry source result :: found).take history.limit))
      (history.record store source result s).2.2 := by
  obtain ⟨s', hload, hhas⟩ := h.load hstore
  obtain ⟨s'', hset, hhas'⟩ :=
    hhas.set hstore (textOfRecords ((history.entry source result :: found).take history.limit))
  have hrecord : history.record store source result s =
      (.ok (history.entry source result),
        { history with clock := history.clock.read.2, next := history.next + 1 }, s'') := by
    rw [History.entry] at hset
    simp only [History.record, historyRecords_eq, hload, hset]
    rfl
  rw [hrecord]
  exact hhas'

end Records

/-! ### Any calls -/

section Calls

variable {store : Store σ} {Holds : σ → Contents → Prop} {c : Contents} {s : σ}

theorem historyKey_ne_mistakesKey : historyKey ≠ mistakesKey := by decide

/-- The counts and the records after one call. -/
theorem Call.run_spec (hstore : store.Keeps Holds) (hs : Holds s c) (call : Call) :
    ∃ c', Holds (call.run store s) c' ∧
      held mistakesKey mistakesOf? c' = call.onMistakes (held mistakesKey mistakesOf? c) ∧
      held historyKey recordsOf? c' = call.onRecords (held historyKey recordsOf? c) := by
  have hmistakes : HasMistakes Holds c (held mistakesKey mistakesOf? c) s := has_held hs
  have hrecords : HasRecords Holds c (held historyKey recordsOf? c) s := has_held hs
  have htracker : ∀ {m}, HasMistakes Holds c m (call.run store s) →
      ∃ c', Holds (call.run store s) c' ∧ held mistakesKey mistakesOf? c' = m ∧
        held historyKey recordsOf? c' = held historyKey recordsOf? c := fun h => by
    obtain ⟨c', hs', hoff, hheld⟩ := h
    exact ⟨c', hs', hheld, hoff.held_eq historyKey_ne_mistakesKey _⟩
  have hhistory : ∀ {found}, HasRecords Holds c found (call.run store s) →
      ∃ c', Holds (call.run store s) c' ∧
        held mistakesKey mistakesOf? c' = held mistakesKey mistakesOf? c ∧
        held historyKey recordsOf? c' = found := fun h => by
    obtain ⟨c', hs', hoff, hheld⟩ := h
    exact ⟨c', hs', hoff.held_eq historyKey_ne_mistakesKey.symm _, hheld⟩
  cases call with
  | observe t text =>
    refine htracker ?_
    rw [Call.run, Call.onMistakes]
    split
    · next hfound =>
      rw [observe_of_found_eq_nil hfound]
      exact hmistakes
    · next hfound => exact (hmistakes.observe hstore hfound).2
  | reset t symbol => exact htracker (hmistakes.reset hstore t symbol)
  | resetAll t => exact htracker (hmistakes.told_resetAll hstore t).has
  | count symbol =>
    obtain ⟨s', hcount, hhas⟩ := hmistakes.count hstore symbol
    exact htracker (by rw [Call.run, hcount]; exact hhas)
  | mistakes =>
    obtain ⟨s', hfound, hhas⟩ := hmistakes.records hstore
    exact htracker (by rw [Call.run, hfound]; exact hhas)
  | record h source result => exact hhistory (hrecords.record hstore h source result)
  | clear =>
    obtain ⟨s', hremove, hhas⟩ := hrecords.remove hstore
    exact hhistory (by rw [Call.run, History.clear, hremove]; exact hhas)
  | runs =>
    obtain ⟨s', hload, hhas⟩ := hrecords.load hstore
    exact hhistory (by rw [Call.run, historyRecords_eq, hload]; exact hhas)

/-- The counts and the records after any calls. -/
theorem after_spec (hstore : store.Keeps Holds) (hs : Holds s c) (calls : List Call) :
    ∃ c', Holds (after store calls s) c' ∧
      held mistakesKey mistakesOf? c' = calls.foldr Call.onMistakes (held mistakesKey mistakesOf? c) ∧
      held historyKey recordsOf? c' = calls.foldr Call.onRecords (held historyKey recordsOf? c) := by
  induction calls with
  | nil => exact ⟨c, hs, rfl, rfl⟩
  | cons call earlier ih =>
    obtain ⟨c', hs', hmistakes, hrecords⟩ := ih
    obtain ⟨c'', hs'', hmistakes', hrecords'⟩ := call.run_spec hstore hs'
    exact ⟨c'', hs'', by rw [hmistakes', hmistakes]; rfl, by rw [hrecords', hrecords]; rfl⟩

end Calls

end Coach.Learner
