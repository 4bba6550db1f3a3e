import Coach.Learner.Mistakes

/-!
# Watching mistakes

A tracker reads compiler output, counts the symbols that it reports as missing, and tells its listeners
about every change that was stored.

## Main definitions

* `Tracker`: a clock and the listeners, with the number of mistakes seen so far
* `Reaction`: what a call comes to: an answer, the calls of listeners, and the states after it
* `tell`: what the calls of listeners come to
* `Tracker.observe`, `Tracker.reset`, `Tracker.resetAll`, `Tracker.records`, `Tracker.count`
* `Tracker.subscribe`, `Tracker.unsubscribe`
-/

namespace Coach.Learner

open Coach.Service Coach.Storage Coach.Time

/-- A tracker. Listeners are known by name, and one may be there several times. -/
structure Tracker where
  clock : Clock
  signatures : List Signature := Learner.signatures
  listeners : List String := []
  observed : Nat := 0

/-- A call of a listener with the records of a change. -/
structure Notice where
  listener : String
  records : List MistakeRecord
  deriving DecidableEq, Repr

/-- What a call of a tracker comes to. -/
structure Reaction (σ α : Type) where
  answer : Except Fault α
  notices : List Notice := []
  tracker : Tracker
  state : σ

/-- Makes the calls of listeners one after another. One that fails does not keep the others from
theirs. -/
def tell {ω : Type} (listen : Notice → ω → Except Fault Unit × ω) (notices : List Notice) (w : ω) : ω :=
  notices.foldl (fun w notice => (listen notice w).2) w

namespace Tracker

variable {σ α : Type}

/-- The records in a store. -/
def records (store : Store σ) (s : σ) : Except Fault (List MistakeRecord) × σ :=
  match loadMistakes store s with
  | (.ok m, s) => (.ok m.records, s)
  | (.error fault, s) => (.error fault, s)

/-- How often a symbol was missing. -/
def count (store : Store σ) (symbol : String) (s : σ) : Except Fault Nat × σ :=
  match loadMistakes store s with
  | (.ok m, s) => (.ok (m.count symbol), s)
  | (.error fault, s) => (.error fault, s)

/-- Tells all listeners about a change, in the order in which they came. -/
def notify (t : Tracker) (store : Store σ) (answer : α) (s : σ) : Reaction σ α :=
  if t.listeners.isEmpty then { answer := .ok answer, tracker := t, state := s }
  else match records store s with
    | (.ok found, s) =>
      { answer := .ok answer, tracker := t, state := s
        notices := t.listeners.map fun listener => { listener, records := found } }
    | (.error fault, s) => { answer := .error fault, tracker := t, state := s }

/-- Counts what a text reports, and says whether it reports anything. -/
def observe (t : Tracker) (store : Store σ) (text : String) (s : σ) : Reaction σ Bool :=
  let symbols := if text.isEmpty then [] else symbolsIn t.signatures text
  if symbols.isEmpty then { answer := .ok false, tracker := t, state := s }
  else
    let (now, clock) := t.clock.read
    match observeSymbols store now symbols s with
    | (.ok (), s) =>
      { t with clock, observed := t.observed + symbols.length }.notify store true s
    | (.error fault, s) => { answer := .error fault, tracker := { t with clock }, state := s }

/-- Forgets a symbol; an unknown one is no change. -/
def reset (t : Tracker) (store : Store σ) (symbol : String) (s : σ) : Reaction σ Unit :=
  match resetSymbol store symbol s with
  | (.ok true, s) => t.notify store () s
  | (.ok false, s) => { answer := .ok (), tracker := t, state := s }
  | (.error fault, s) => { answer := .error fault, tracker := t, state := s }

/-- Forgets everything. -/
def resetAll (t : Tracker) (store : Store σ) (s : σ) : Reaction σ Unit :=
  match Learner.resetAll store s with
  | (.ok (), s) => t.notify store () s
  | (.error fault, s) => { answer := .error fault, tracker := t, state := s }

/-- Adds a listener. -/
def subscribe (t : Tracker) (listener : String) : Tracker :=
  { t with listeners := t.listeners ++ [listener] }

/-- Takes a listener out once, if it is there. -/
def unsubscribe (t : Tracker) (listener : String) : Tracker :=
  { t with listeners := t.listeners.erase listener }

end Tracker

end Coach.Learner
