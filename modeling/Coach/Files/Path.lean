import Coach.Text.Basic

/-!
# Paths

Paths as texts: their plain form, the home directory, and their parts.

## Main definitions

* `tidyPath`: a path without parts that say nothing
* `expandHome`: a path with the home directory in the place of a tilde
* `lastPart`, `folderOf`: the name of a file and its directory
-/

namespace Coach.Files

open Coach.Text

/-- The slashes that a path begins with: two stay two, any other number counts as one. -/
def rootOf : List Char → List Char
  | ['/', '/'] => ['/', '/']
  | '/' :: '/' :: '/' :: _ => ['/']
  | '/' :: '/' :: _ => ['/', '/']
  | '/' :: _ => ['/']
  | _ => []

/-- The parts of a path that say something. -/
def partsOf (path : List Char) : List (List Char) :=
  (splitOn '/' path).filter fun part => !part.isEmpty && part != ['.']

/-- A path without empty parts and parts that are a single point. -/
def tidyPath (path : String) : String :=
  let whole := rootOf path.toList ++ joinWith ['/'] (partsOf path.toList)
  if whole.isEmpty then "." else String.ofList whole

/-- Puts the home directory in the place of a tilde. -/
def expandHome (home path : String) : String :=
  match path.toList with
  | '~' :: rest =>
    if rest.isEmpty then home
    else if rest.head? = some '/' then tidyPath (home ++ String.ofList rest) else path
  | _ => path

/-- The last part of a path. -/
def lastPart (path : String) : String := String.ofList (((partsOf path.toList).getLast?).getD [])

/-- The path of the directory that a file is in. -/
def folderOf (path : String) : String :=
  let whole := rootOf path.toList ++ joinWith ['/'] (partsOf path.toList).dropLast
  if whole.isEmpty then "." else String.ofList whole

end Coach.Files
