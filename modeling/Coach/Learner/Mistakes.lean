import Coach.Json.Reader
import Coach.Json.Writer
import Coach.Learner.Signature
import Coach.Storage.Basic
import Coach.Time.Stamp

/-!
# The mistakes of a learner

How often each symbol was missing, kept in a store. Every text that reports a symbol counts it once,
however often the report stands in the text.

## Main definitions

* `Mistakes`: the counts, with `Mistakes.observe`, `Mistakes.erase` and `Mistakes.records`
* `loadMistakes`, `saveMistakes`: the counts in a store
* `observeText`, `resetSymbol`, `resetAll`: the three changes of a store

## Design notes

Stored counts that cannot be read are removed and count as none, so that a spoilt store mends itself.
-/

namespace Coach.Learner

open Coach.Schema Coach.Service Coach.Storage Coach.Time

/-- How often a symbol was missing, and when for the last time. -/
structure Tally where
  count : Nat
  lastSeen : Stamp
  deriving DecidableEq, Repr

/-- The tallies by symbol, in the order in which the symbols came first. -/
abbrev Mistakes := List (String × Tally)

/-- A symbol with its tally. -/
structure MistakeRecord where
  symbol : String
  count : Nat
  lastSeen : Stamp
  deriving DecidableEq, Repr

namespace Mistakes

/-- How often a symbol was missing. -/
def count (m : Mistakes) (symbol : String) : Nat := (lookupPair m symbol).elim 0 (·.count)

/-- Counts a symbol. -/
def bump (now : Stamp) (m : Mistakes) (symbol : String) : Mistakes :=
  putPair m symbol { count := m.count symbol + 1, lastSeen := now }

/-- Counts some symbols. -/
def observe (now : Stamp) (m : Mistakes) (symbols : List String) : Mistakes :=
  symbols.foldl (bump now) m

/-- The records, the most frequent first; of equal counts the one that came first. -/
def records (m : Mistakes) : List MistakeRecord :=
  (m.map fun (symbol, t) =>
    ({ symbol, count := t.count, lastSeen := t.lastSeen } : MistakeRecord)).mergeSort
      fun a b => decide (b.count ≤ a.count)

@[simp] theorem count_bump (now : Stamp) (m : Mistakes) (symbol : String) :
    (bump now m symbol).count symbol = m.count symbol + 1 := by
  simp [bump, count]

theorem count_bump_of_ne (now : Stamp) (m : Mistakes) {symbol other : String} (h : other ≠ symbol) :
    (bump now m symbol).count other = m.count other := by
  simp [bump, count, lookupPair_putPair_of_ne _ _ h]

end Mistakes

/-! ### In a store -/

/-- The key of the counts in a store. -/
def mistakesKey : String := "mistake_counts"

/-- Reads a tally. -/
def readTally : Reader Tally := fields fun o =>
  (fun count lastSeen => { count := count.toNat, lastSeen })
    <$> required o "count" (integerFrom 1 integer)
    <*> required o "last_seen" stamp

/-- Reads tallies by symbol. -/
def readTallies : List (String × Json) → Checked Mistakes
  | [] => .valid []
  | (symbol, j) :: rest =>
    (fun tally tallies => (symbol, tally) :: tallies)
      <$> (readTally j).under symbol <*> readTallies rest

/-- Reads the counts. -/
def readMistakes : Reader Mistakes
  | .object members => readTallies members
  | _ => .refuse .memberType

/-- The counts as JSON. -/
def Mistakes.json (m : Mistakes) : Json :=
  .object (m.map fun (symbol, t) =>
    (symbol, .object [("count", .int t.count), ("last_seen", .string t.lastSeen.text)]))

/-- The counts in a text; an empty text holds none. -/
def mistakesOf? (text : String) : Option Mistakes :=
  if text.isEmpty then some []
  else match Json.read text.toList with
    | .ok j => (readMistakes j).toOption
    | .error _ => none

variable {σ : Type}

/-- The counts in a store. Counts that cannot be read are removed. -/
def loadMistakes (store : Store σ) (s : σ) : Except Fault Mistakes × σ :=
  match store.get mistakesKey s with
  | .error fault => (.error fault, s)
  | .ok none => (.ok [], s)
  | .ok (some text) => match mistakesOf? text with
    | some m => (.ok m, s)
    | none => match store.remove mistakesKey s with
      | (.ok (), s) => (.ok [], s)
      | (.error fault, s) => (.error fault, s)

/-- Puts the counts into a store. -/
def saveMistakes (store : Store σ) (m : Mistakes) (s : σ) : Except Fault Unit × σ :=
  store.set mistakesKey m.json.line s

/-- Counts the symbols that were found in a text. -/
def observeSymbols (store : Store σ) (now : Stamp) (symbols : List String) (s : σ) :
    Except Fault Unit × σ :=
  match loadMistakes store s with
  | (.ok m, s) => saveMistakes store (m.observe now symbols) s
  | (.error fault, s) => (.error fault, s)

/-- Forgets a symbol, and says whether it was there. -/
def resetSymbol (store : Store σ) (symbol : String) (s : σ) : Except Fault Bool × σ :=
  match loadMistakes store s with
  | (.error fault, s) => (.error fault, s)
  | (.ok m, s) =>
    if (lookupPair m symbol).isNone then (.ok false, s)
    else match saveMistakes store (erasePair m symbol) s with
      | (.ok (), s) => (.ok true, s)
      | (.error fault, s) => (.error fault, s)

/-- Forgets all symbols. -/
def resetAll (store : Store σ) (s : σ) : Except Fault Unit × σ := store.remove mistakesKey s

end Coach.Learner
