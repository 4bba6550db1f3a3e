import Coach.Files.Tree
import Coach.Json.Reader
import Coach.Json.Writer
import Coach.Storage.Basic

/-!
# A store in a file

The entries as the members of one JSON object in a file. A file that does not hold an object counts as
empty, and of an object only the members that are strings are entries.

## Main definitions

* `entriesOf`: the entries in the text of a file
* `fileStore`: the store at a path

## Design notes

Two faults of reading are not taken for an empty file: a number of too many digits and a nesting that
is too deep. They come from the limits of the reader and not from the form of the text.
-/

namespace Coach.Storage

open Coach.Files Coach.Service

/-- The members that are strings. -/
def stringMembers (members : List (String × Json)) : Entries :=
  members.filterMap fun (key, value) => value.string?.map fun text => (key, text)

/-- The entries in the text of a file. -/
def entriesOf (text : String) : Except Fault Entries :=
  match Json.read text.toList with
  | .ok (.object members) => .ok (stringMembers members)
  | .ok _ => .ok []
  | .error (.tooManyDigits count) => .error { kind := .value, message := tooManyDigitsMessage count }
  | .error .tooDeep => .error { kind := .nesting, message := Json.Fault.tooDeep.message }
  | .error _ => .ok []

/-- The text of a file with some entries. -/
def textOfEntries (entries : Entries) : String :=
  (Json.object (entries.map fun (key, text) => (key, .string text))).indented

/-- The entries at a path. -/
def load (path : String) (t : Tree) : Except Fault Entries :=
  match t.read? path with
  | some text => entriesOf text
  | none => .ok []

/-- Writes entries to a path. -/
def save (path : String) (entries : Entries) (t : Tree) : Except Fault Unit × Tree :=
  match t.write? path (textOfEntries entries) with
  | some t => (.ok (), t)
  | none => (.error { kind := .storage, message := s!"Cannot write {path}" }, t)

/-- The store at a path. Removing a key that is not there writes nothing. -/
def fileStore (path : String) : Store Tree :=
  { get := fun key t => (load path t).map fun entries => lookupPair entries key
    set := fun key value t =>
      match load path t with
      | .ok entries => save path (putPair entries key value) t
      | .error fault => (.error fault, t)
    remove := fun key t =>
      match load path t with
      | .ok entries =>
        if (lookupPair entries key).isSome then save path (erasePair entries key) t else (.ok (), t)
      | .error fault => (.error fault, t) }

end Coach.Storage
