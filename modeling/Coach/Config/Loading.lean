import Coach.Config.Overlay
import Coach.Config.Settings
import Coach.Files.Tree
import Coach.Yaml.Value

/-!
# Loading settings

Settings come from a YAML file, from variables of the environment, and from a file of variables beside
the program. What the YAML file says counts most, and the defaults count least.

## Main definitions

* `LoadFault`: why settings cannot be loaded
* `settingsPath?`: which file is read
* `loadSettings`: the settings

## Design notes

A file that is named has to be there; without a name the usual places are searched, and none of them
has to hold a file. A YAML file that says nothing, or that says something that counts as false, sets
nothing.
-/

namespace Coach.Config

open Coach.Files Coach.Schema

/-- Why settings cannot be loaded. -/
inductive LoadFault where
  | missingFile (path : String)
  | missingVariable (name : String)
  /-- The YAML text cannot be read. -/
  | yaml (fault : Yaml.Fault)
  /-- A member of the YAML document has a key that is no text. -/
  | key
  /-- A section in a variable is no JSON. -/
  | variable_
  | settings (issues : List Issue)
  /-- The sections do not fit together. -/
  | sections (message : String)
  deriving Repr

/-- The wording of a fault, as far as it has one. -/
def LoadFault.message? : LoadFault → Option String
  | .missingFile path => some s!"Configuration file not found: {path}"
  | .missingVariable name => some s!"Environment variable {name} not found"
  | .sections message => some message
  | .yaml (.number message) => some message
  | _ => none

/-- The variable that names the file of settings. -/
def pathVariable : String := "AI_CODE_TUTOR_CONFIG"

/-- Where a file of settings is looked for. -/
def usualPaths : List String := ["config/config.yaml", "~/.ai-code-tutor/config.yaml"]

/-- The file of settings: the one that is asked for, the one that a variable names, or the first one in
the usual places. -/
def settingsPath? (env : Environment) (t : Tree) (asked : Option String) : Option String :=
  match asked with
  | some path => some (tidyPath path)
  | none => match (lookupPair env pathVariable).filter (!·.isEmpty) with
    | some path => some (tidyPath path)
    | none => (usualPaths.map (expandHome t.home)).find? t.isFile

/-- Whether a value says nothing. -/
def saysNothing : Yaml.Value → Bool
  | .scalar .null => true
  | .scalar (.bool b) => !b
  | .scalar (.number (.int n)) => n = 0
  | .scalar (.number (.float x)) => x == 0
  | .scalar (.string s) => s.isEmpty
  | .list items => items.isEmpty
  | .map members => members.isEmpty
  | _ => false

/-- The sections that a document sets. -/
def documentMembers (v : Yaml.Value) : Except LoadFault Members :=
  if saysNothing v then .ok []
  else if v.hasOtherKeys then .error .key
  else match v.json with
    | .object members => .ok members
    | _ => .error (.settings [{ place := [], kind := .objectType }])

/-- The sections that the text of a file sets. -/
def fileMembers (env : Environment) (text : String) : Except LoadFault Members := do
  let filled ← (fillReferences env text).mapError .missingVariable
  let v ← (Yaml.read filled).mapError .yaml
  documentMembers v

/-- The sections that a file sets, if there is one. -/
def pathMembers (env : Environment) (t : Tree) : Option String → Except LoadFault Members
  | none => .ok []
  | some path => match t.read? path with
    | some text => fileMembers env text
    | none => .error (.missingFile path)

/-- The file of variables beside the program. -/
def variableFile : String := ".env"

/-- The sections that variables set: those of the environment over those of the file. -/
def variableMembers (env : Environment) (t : Tree) : Except LoadFault Members :=
  let inFile := (t.read? variableFile).elim [] (readVariables env)
  match overlay (env.map fun (k, v) => (k, some v)), overlay inFile with
  | some upper, some lower => .ok (mergedMembers lower upper)
  | _, _ => .error .variable_

/-- The settings in a document over those of the variables. -/
def settingsOf (env : Environment) (t : Tree) (members : Members) : Except LoadFault Settings := do
  let below ← variableMembers env t
  let s ← (Settings.read t.home (.object (mergedMembers below members))).toExcept.mapError .settings
  match s.fault? with
  | some message => throw (.sections message)
  | none => return s

/-- The settings. -/
def loadSettings (env : Environment) (t : Tree) (asked : Option String) :
    Except LoadFault Settings := do
  settingsOf env t (← pathMembers env t (settingsPath? env t asked))

end Coach.Config
