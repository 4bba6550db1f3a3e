import Coach.Finding.Catalog

/-!
# Scanning a document

Every rule against every line.

## Main definitions

* `scan`: the findings, line by line and in the order of the rules within a line
-/

namespace Coach.Finding

open Coach.Source

/-- The findings of some rules in a document. -/
def scan (rules : List Rule) (d : Document) : List Diagnostic :=
  (List.range d.lineCount).flatMap fun index =>
    let c : Context := { lines := d.lines, index, code := d.chars }
    rules.flatMap (·.evaluate c)

end Coach.Finding
