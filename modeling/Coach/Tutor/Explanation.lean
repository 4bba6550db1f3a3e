import Coach.Source.Patch

/-!
# Explanations

What the tutor says about a run, with a proposed change if there is one.

## Main definitions

* `Explanation`
* `Explanation.patchSpec`: the proposed change in its order of priority
* `Explanation.hasFix`: whether a change is proposed
-/

namespace Coach.Tutor

open Coach.Source

/-- Who wrote an explanation. -/
inductive Author where
  | model
  | heuristic
  deriving DecidableEq, Repr

/-- The name of an author. -/
def Author.name : Author → String
  | .model => "ai"
  | .heuristic => "heuristic"

/-- An explanation of a run. -/
structure Explanation where
  summary : String
  detail : String
  fixSummary : String
  confidence : Float
  author : Author
  correctedCode : Option String := none
  patches : Option (List Patch) := none
  patch : Option Patch := none
  rootCauseLines : List Int := []
  hints : List String := []

namespace Explanation

/-- The proposed change. -/
def patchSpec (e : Explanation) : PatchSpec :=
  { fullText := e.correctedCode, patches := e.patches, single := e.patch }

/-- Whether a change is proposed: a text or a list that is not empty, or a patch. -/
def hasFix (e : Explanation) : Bool :=
  e.correctedCode.any (!·.isEmpty) || e.patches.any (!·.isEmpty) || e.patch.isSome

end Explanation

end Coach.Tutor
