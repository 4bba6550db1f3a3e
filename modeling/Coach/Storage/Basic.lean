import Coach.Json.Basic
import Coach.Service.Fault

/-!
# Stores

Texts kept under keys. What the tutor remembers of a learner goes through a store, and a store may be
anything that answers three questions about its state.

## Main definitions

* `Store`: the operations of a store over states of some kind
* `memory`: a store that is a list of entries
* `Store.within`: a store whose state is part of a larger one
-/

namespace Coach.Storage

open Coach.Service

/-- The operations of a store. A fault of writing leaves the state as it was. -/
structure Store (σ : Type) where
  get : String → σ → Except Fault (Option String)
  set : String → String → σ → Except Fault Unit × σ
  remove : String → σ → Except Fault Unit × σ

/-- Entries in the order in which their keys came first. -/
abbrev Entries := List (String × String)

/-- A store that is a list of entries and never fails. -/
def memory : Store Entries :=
  { get := fun key entries => .ok (lookupPair entries key)
    set := fun key value entries => (.ok (), putPair entries key value)
    remove := fun key entries => (.ok (), erasePair entries key) }

/-- A store whose state is part of a larger one. -/
def Store.within {σ τ : Type} (view : τ → σ) (update : σ → τ → τ) (store : Store σ) : Store τ :=
  { get := fun key t => store.get key (view t)
    set := fun key value t => let (answer, s) := store.set key value (view t); (answer, update s t)
    remove := fun key t => let (answer, s) := store.remove key (view t); (answer, update s t) }

end Coach.Storage
