import Coach.Text.Basic

/-!
# Documents

A source text as a list of lines, addressed by numbers from one on.

## Main definitions

* `Document`, `Document.ofText`, `Document.text`
* `Document.line?`: a line by its number
* `Document.replaceLines`: a range of lines replaced

## Design notes

Bounds of a replacement are integers of either sign. A negative count of lines to keep counts from
the end, as the two slices say; within the document they are plain `take` and `drop`.
-/

namespace Coach.Source

open Coach.Text

/-- A source as its lines, none of which contains a newline. -/
structure Document where
  lines : List (List Char)
  deriving DecidableEq, Repr

/-- The first `n` items, or all but the last `-n`. -/
def takeSigned {α : Type} (n : Int) (items : List α) : List α :=
  if 0 ≤ n then items.take n.toNat else items.take (items.length - n.natAbs)

/-- All but the first `n` items, or the last `-n`. -/
def dropSigned {α : Type} (n : Int) (items : List α) : List α :=
  if 0 ≤ n then items.drop n.toNat else items.drop (items.length - n.natAbs)

namespace Document

/-- The document of a text; a newline at the end opens an empty last line. -/
def ofChars (text : List Char) : Document := { lines := splitOn '\n' text }

/-- The document of a text. -/
def ofText (text : String) : Document := ofChars text.toList

/-- The characters of the whole text. -/
def chars (d : Document) : List Char := joinWith ['\n'] d.lines

/-- The whole text. -/
def text (d : Document) : String := String.ofList d.chars

/-- The number of lines. -/
def lineCount (d : Document) : Nat := d.lines.length

/-- The line of a number from one on. -/
def line? (d : Document) (number : Int) : Option (List Char) :=
  if 1 ≤ number then d.lines[(number - 1).toNat]? else none

/-- Replaces the lines from `start` to `last`; with `last = start - 1` it only inserts. -/
def replaceLines (d : Document) (start last : Int) (replacement : List (List Char)) : Document :=
  { lines := takeSigned (start - 1) d.lines ++ replacement ++ dropSigned last d.lines }

/-- Bounds that are not negative do not count from the end. -/
theorem replaceLines_eq (d : Document) {start last : Int} (hstart : 1 ≤ start) (hlast : 0 ≤ last)
    (replacement : List (List Char)) : d.replaceLines start last replacement =
      { lines := d.lines.take (start - 1).toNat ++ replacement ++ d.lines.drop last.toNat } := by
  rw [replaceLines, takeSigned, dropSigned, if_pos (by omega), if_pos hlast]

end Document

end Coach.Source
