import Coach.Files.Path
import Coach.Json.Basic

/-!
# Files

Text files in directories. A directory exists as long as there is a file somewhere below it, and the
directories above a file are made when it is written.

## Main definitions

* `Tree`: the files by their paths from the working directory
* `Tree.read?`, `Tree.write?`
* `plainNewlines`: a text as programs read it, with one kind of line break

## Design notes

A path that does not begin at the root begins at the working directory, so that a file has one key
whichever way it is named. Unless something else is said, a program works in the home directory.
-/

namespace Coach.Files

open Coach.Text

/-- Files, seen from a working directory. -/
structure Tree where
  home : String
  here : String := home
  files : List (String × String) := []
  deriving DecidableEq, Repr

/-- Makes every line break a newline. -/
def plainNewlines : List Char → List Char
  | [] => []
  | '\r' :: '\n' :: rest => '\n' :: plainNewlines rest
  | '\r' :: rest => '\n' :: plainNewlines rest
  | c :: rest => c :: plainNewlines rest

/-- A text without carriage returns is read as it is. -/
theorem plainNewlines_of_notMem {text : List Char} (h : '\r' ∉ text) : plainNewlines text = text := by
  induction text with
  | nil => rfl
  | cons c rest ih =>
    rw [List.mem_cons, not_or] at h
    have hc : c ≠ '\r' := Ne.symm h.1
    rw [plainNewlines, ih h.2]
    · rintro _ rfl _
      exact hc rfl
    · rintro rfl
      exact hc rfl

namespace Tree

/-- The key of a path. -/
def key (t : Tree) (path : String) : String :=
  let path := tidyPath path
  match dropStart? (t.here.toList ++ ['/']) path.toList with
  | some rest => String.ofList rest
  | none => path

/-- Whether there is a file. -/
def isFile (t : Tree) (path : String) : Bool := (lookupPair t.files (t.key path)).isSome

/-- Whether one key lies below another. -/
def isBelow (folder key : String) : Bool := startsWith key.toList (folder.toList ++ ['/'])

/-- Whether there is a directory. -/
def isFolder (t : Tree) (path : String) : Bool :=
  let folder := t.key path
  folder = "." || folder = t.here || t.files.any fun (k, _) => isBelow folder k

/-- The text of a file as it is. -/
def raw? (t : Tree) (path : String) : Option String := lookupPair t.files (t.key path)

/-- The text of a file with newlines for all its line breaks. -/
def read? (t : Tree) (path : String) : Option String :=
  (t.raw? path).map fun s => String.ofList (plainNewlines s.toList)

/-- Whether a path is free for a file: it is no directory, and nothing above it is a file. -/
def isFree (t : Tree) (path : String) : Bool :=
  !t.isFolder path && !t.files.any fun (k, _) => isBelow k (t.key path)

/-- Writes a file, unless something else stands in its place. -/
def write? (t : Tree) (path text : String) : Option Tree :=
  if t.isFree path then some { t with files := putPair t.files (t.key path) text } else none

end Tree

end Coach.Files
