import Coach.Config.VariableFile
import Coach.Json.Reader
import Coach.Text.Case

/-!
# Settings in variables

A variable may set a section as a JSON object, and a single setting by the path to it, as in
`SANDBOX__TIMEOUT`. The names are read in any case.

## Main definitions

* `Shape`: which settings there are, and which of them are sections
* `overlay`: the sections that variables set
* `merged`: one object laid over another

## Design notes

A section is JSON, and one that is not is refused, unless the section may be absent: then the text is
left for the reader of the settings to judge. A path through something that is no section is followed
nevertheless, so that the same reader finds an object in the wrong place.
-/

namespace Coach.Config

open Coach.Text

/-- What there is at a place: a single setting, or a section, which may have to be there. -/
inductive Shape where
  | single
  | «section» (mayLack : Bool) (members : List (String × Shape))

/-- A section that is always there, of single settings. -/
def flatSection (names : List String) : Shape := .section false (names.map (·, .single))

/-- A section that may be absent, of single settings. -/
def optionalSection (names : List String) : Shape := .section true (names.map (·, .single))

/-- The sections of the settings. -/
def settingsShape : List (String × Shape) :=
  [("sandbox", flatSection ["enabled", "url", "language", "version", "file_name", "timeout"]),
   ("llm", .section false
     [("provider", .single),
      ("groq", optionalSection ["api_key", "base_url", "model", "max_tokens", "temperature", "timeout"]),
      ("anthropic", optionalSection ["api_key", "model", "max_tokens", "temperature", "timeout"]),
      ("simulation_cache_ttl", .single), ("simulation_cache_size", .single)]),
   ("storage", flatSection ["path", "history_limit"]),
   ("logging", .section false
     [("level", .single), ("format", .single), ("file", flatSection ["enabled", "path"])]),
   ("retry", flatSection ["max_attempts", "initial_delay", "max_delay"])]

/-- The members of an object. -/
abbrev Members := List (String × Json)

/-- The place of a name within another one. -/
def Shape.member? (s : Shape) (name : String) : Option Shape :=
  match s with
  | .single => none
  | .section _ members => lookupPair members name

/-! ### One object over another -/

mutual

/-- Lays members over others: objects are merged, and of other values the upper one counts. -/
def mergedMembers (lower : Members) : Members → Members
  | [] => lower
  | (key, value) :: rest =>
    mergedMembers (putPair lower key (mergedValue (lookupPair lower key) value)) rest

/-- Lays a value over another. -/
def mergedValue (lower : Option Json) : Json → Json
  | .object upper => match lower with
    | some (.object members) => .object (mergedMembers members upper)
    | _ => .object upper
  | value => value

end

/-! ### Names in any case -/

/-- A name in lower case. -/
def lowerName (name : String) : String := String.ofList (lower name.toList)

mutual

/-- The members of a section under the names that the settings have. -/
def properMembers (shapes : List (String × Shape)) (done : Members) : Members → Members
  | [] => done
  | (name, value) :: rest =>
    match shapes.find? fun s => lowerName s.1 = lowerName name with
    | some (proper, shape) =>
      properMembers shapes (putPair done proper (properValue shape value)) rest
    | none => properMembers shapes (putPair done name value) rest

/-- A value under proper names. -/
def properValue (shape : Shape) : Json → Json
  | .object members => match shape with
    | .section false shapes => .object (properMembers shapes [] members)
    | _ => .object members
  | value => value

end

/-! ### Sections from variables -/

/-- The names in a path: the parts between double lines. -/
def pathNames (path : String) : List String := path.splitOn "__"

/-- Puts a value at the end of a path. It is dropped when something on the way is no object. -/
def putAt (value : Json) : List String → Members → Members
  | [], members => members
  | [name], members => putPair members name value
  | name :: rest, members =>
    match lookupPair members name with
    | none => putPair members name (.object (putAt value rest []))
    | some (.object inner) => putPair members name (.object (putAt value rest inner))
    | some _ => members

/-- The shape at the end of a path. -/
def shapeAt? (shape : Shape) : List String → Option Shape
  | [] => some shape
  | name :: rest => (shape.member? name).bind fun s => shapeAt? s rest

/-- The value that a text stands for at a place of some shape; nothing when it has to be JSON and is
not. -/
def valueAt (shape : Option Shape) (text : String) : Option Json :=
  match shape with
  | some (.section mayLack _) =>
    if text.isEmpty then some (.string text)
    else match Json.read text.toList with
      | .ok j => some j
      | .error _ => if mayLack then some (.string text) else none
  | _ => some (.string text)

/-- Puts the value of a variable below a section, if its name says so. -/
def putVariable (section_ : String) (shape : Shape) (members : Members)
    (variable_ : String × Option String) : Option Members :=
  match dropStart? (section_ ++ "__").toList variable_.1.toList with
  | none => some members
  | some path =>
    let names := pathNames (String.ofList path)
    match variable_.2 with
    | none => some (putAt .null names members)
    | some text => (valueAt (shapeAt? shape names) text).map fun v => putAt v names members

/-- What variables set of a section: nothing, or its value. They are refused when a text has to be
JSON and is not. -/
def overlayOf (vars : Variables) (name : String) (shape : Shape) : Option (Option Json) := do
  let below ← vars.foldlM (putVariable name shape) []
  match lookupPair vars name with
  | some (some text) =>
    match Json.read text.toList with
    | .ok (.object members) => some (some (.object (mergedMembers members below)))
    | .ok .null => some none
    | .ok j => some (some j)
    | .error _ => none
  | _ => some (if below.isEmpty then none else some (.object below))

/-- The variables with names in lower case. Of two that become the same the second one counts. -/
def lowerVariables (vars : Variables) : Variables :=
  vars.foldl (fun done (name, value) => putPair done (lowerName name) value) []

/-- The sections that variables set; nothing when one of them cannot be read. -/
def overlay (vars : Variables) : Option Members := do
  let vars := lowerVariables vars
  let sections ← settingsShape.mapM fun (name, shape) => do
    let value ← overlayOf vars name shape
    return (value.map fun v => (name, properValue shape v)).toList
  return sections.flatten

end Coach.Config
