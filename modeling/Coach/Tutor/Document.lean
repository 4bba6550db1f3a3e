import Coach.Json.Basic
import Coach.Tutor.Education
import Coach.Tutor.Explanation

/-!
# What the tutor says, as JSON

Explanations and lessons as objects, for an editor that shows them.

## Main definitions

* `Patch.json`, `Explanation.json`, `Lesson.json`
-/

namespace Coach

/-- A patch as an object. -/
def Source.Patch.json (p : Source.Patch) : Json :=
  .object [("line_start", .int p.first), ("line_end", .int p.last),
    ("replacement_text", .string p.replacement)]

namespace Tutor

/-- An explanation as an object, with a member that says whether it proposes a change. -/
def Explanation.json (e : Explanation) : Json :=
  .object [("summary", .string e.summary), ("detailed_explanation", .string e.detail),
    ("fix_summary", .string e.fixSummary), ("confidence", .float e.confidence),
    ("source", .string e.author.name), ("corrected_code", .optional (e.correctedCode.map .string)),
    ("patches", .optional (e.patches.map fun ps => .array (ps.map Source.Patch.json))),
    ("patch", .optional (e.patch.map Source.Patch.json)),
    ("root_cause_lines", .array (e.rootCauseLines.map .int)), ("hints", .texts e.hints),
    ("has_fix", .bool e.hasFix)]

/-- A lesson as an object. -/
def Lesson.json (l : Lesson) : Json :=
  .object [("title", .string l.title), ("whats_wrong", .string l.whatsWrong),
    ("why_it_matters", .string l.whyItMatters), ("concept", .string l.concept),
    ("prevention", .string l.prevention), ("related_topics", .texts l.relatedTopics)]

end Tutor

end Coach
