import Coach.Json.Basic
import Coach.Number.Reading
import Coach.Yaml.Node

/-!
# Values of YAML documents

What the scalars of a document mean. A plain scalar is a number, a truth value or nothing when it looks
like one, and a text otherwise.

## Main definitions

* `Kind`, `Kind.ofPlain`: what a plain scalar looks like
* `Value`, `Node.value`: the value of a node
* `Value.json`: the value as JSON, without the members whose keys are no texts
* `read`: the value of a text

## Design notes

Numbers may be written to the bases two, eight and sixteen, and to the base sixty with colons. A value
without a counterpart in JSON, such as a date, becomes a list of nothing, which no reader of settings
takes for anything.
-/

namespace Coach.Yaml

/-! ### What plain scalars look like -/

/-- What a scalar stands for. -/
inductive Kind where
  | text
  | null
  | flag (b : Bool)
  | int
  | float
  /-- A date, with or without a time. -/
  | date
  /-- The key whose value is merged into the mapping around it. -/
  | merge
  /-- The key of a default, which is a text where it is a key and nothing elsewhere. -/
  | default
  deriving DecidableEq, Repr

namespace Kind

/-- The words for truth values. -/
def flagWords : List (String × Bool) :=
  ["yes", "Yes", "YES", "true", "True", "TRUE", "on", "On", "ON"].map (·, true) ++
    ["no", "No", "NO", "false", "False", "FALSE", "off", "Off", "OFF"].map (·, false)

/-- The words for nothing. -/
def nullWords : List String := ["", "~", "null", "Null", "NULL"]

/-- A text without its sign. -/
def unsigned : List Char → List Char
  | '+' :: rest => rest
  | '-' :: rest => rest
  | other => other

/-- Whether a character is a digit or a line between digits. -/
def isFiller (c : Char) : Bool := c.isDigit || c == '_'

/-- Whether a text is one or two digits below sixty. -/
def isSixtieth : List Char → Bool
  | [d] => d.isDigit
  | [t, d] => '0' ≤ t && t ≤ '5' && d.isDigit
  | _ => false

/-- The parts of a text between colons. -/
def colonParts (text : List Char) : List (List Char) :=
  (text.splitBy fun a b => a != ':' && b != ':').filter (· ≠ [':'])

/-- Whether a text is parts to the base sixty after a first part that satisfies a test. The colons
are single ones. -/
def isSexagesimal (first : List Char → Bool) (last : List Char → Bool) (text : List Char) : Bool :=
  match colonParts text with
  | head :: more =>
    match more.reverse with
    | final :: middle =>
      first head && middle.all isSixtieth && last final && text.count ':' = more.length
    | [] => false
  | [] => false

/-- Whether a text begins with a digit and goes on with digits and lines. -/
def isDigits : List Char → Bool
  | d :: rest => d.isDigit && rest.all isFiller
  | [] => false

/-- Whether a text is digits that do not begin with zero. -/
def isCount (text : List Char) : Bool := isDigits text && text.head? != some '0'

/-- Whether a text without its sign looks like an integer. -/
def looksInt (text : List Char) : Bool :=
  match text with
  | '0' :: 'b' :: digits =>
    !digits.isEmpty && digits.all fun c => c == '0' || c == '1' || c == '_'
  | '0' :: 'x' :: digits =>
    !digits.isEmpty && digits.all fun c => isFiller c || ('a' ≤ c && c ≤ 'f') || ('A' ≤ c && c ≤ 'F')
  | '0' :: digits => digits.all fun c => ('0' ≤ c && c ≤ '7') || c == '_'
  | _ => isCount text || isSexagesimal isCount isSixtieth text

/-- Whether a text is an exponent, which has a sign, or nothing. -/
def isExponent : List Char → Bool
  | [] => true
  | e :: s :: digits =>
    (e == 'e' || e == 'E') && (s == '+' || s == '-') && !digits.isEmpty && digits.all Char.isDigit
  | _ => false

/-- Whether a text is a point with digits after it, and an exponent. -/
def isFraction : List Char → Bool
  | '.' :: rest => isExponent (rest.dropWhile isFiller)
  | _ => false

/-- Whether a text is two digits of a sixtieth with a point. -/
def isLastSixtieth (text : List Char) : Bool :=
  isSixtieth (text.takeWhile Char.isDigit) &&
    match text.dropWhile Char.isDigit with
    | '.' :: digits => digits.all isFiller
    | _ => false

/-- Whether a text looks like a number with a point. -/
def looksFloat (text : List Char) : Bool :=
  let bare := unsigned text
  (isDigits (bare.takeWhile isFiller) && isFraction (bare.dropWhile isFiller)) ||
    (match text with
      | '.' :: d :: rest => d.isDigit && isExponent (rest.dropWhile isFiller)
      | _ => false) ||
    isSexagesimal isDigits isLastSixtieth bare ||
    [".inf", ".Inf", ".INF"].contains (String.ofList bare) ||
    [".nan", ".NaN", ".NAN"].contains (String.ofList text)

/-- Whether a text is so many digits. -/
def isDigitRun (least most : Nat) (text : List Char) : Bool :=
  least ≤ text.length && text.length ≤ most && text.all Char.isDigit

/-- The parts of a text that a character separates. -/
def partsBy (separator : Char) (text : List Char) : List (List Char) :=
  ((String.ofList text).splitOn (String.singleton separator)).map String.toList

/-- Whether a text is the distance of a zone, or nothing. -/
def isZone (text : List Char) : Bool :=
  match text with
  | [] => true
  | ['Z'] => true
  | sign :: rest =>
    (sign == '+' || sign == '-') &&
      match partsBy ':' rest with
      | [hours] => isDigitRun 1 2 hours
      | [hours, minutes] => isDigitRun 1 2 hours && isDigitRun 2 2 minutes
      | _ => false

/-- Whether a text is a time of day with a zone. -/
def isTime (text : List Char) : Bool :=
  let clock := text.takeWhile fun c => c.isDigit || c == ':'
  let rest := text.drop clock.length
  let rest := match rest with
    | '.' :: more => more.dropWhile Char.isDigit
    | _ => rest
  let zone := rest.dropWhile fun c => c == ' ' || c == '\t'
  match partsBy ':' clock with
  | [hours, minutes, seconds] =>
    isDigitRun 1 2 hours && isDigitRun 2 2 minutes && isDigitRun 2 2 seconds &&
      (rest.isEmpty || !zone.isEmpty) && isZone zone
  | _ => false

/-- Whether a text looks like a date. -/
def looksDate (text : List Char) : Bool :=
  let day := text.takeWhile fun c => c.isDigit || c == '-'
  let rest := text.drop day.length
  match partsBy '-' day with
  | [year, month, monthDay] =>
    isDigitRun 4 4 year &&
      match rest with
      | [] => isDigitRun 2 2 month && isDigitRun 2 2 monthDay
      | c :: more =>
        isDigitRun 1 2 month && isDigitRun 1 2 monthDay &&
          (if c == 'T' || c == 't' then isTime more
          else (c == ' ' || c == '\t') && isTime (more.dropWhile fun x => x == ' ' || x == '\t'))
  | _ => false

/-- What a plain scalar looks like. -/
def ofPlain (text : List Char) : Kind :=
  let word := String.ofList text
  match lookupPair flagWords word with
  | some b => .flag b
  | none =>
    if looksFloat text then .float
    else if looksInt (unsigned text) then .int
    else if word = "<<" then .merge
    else if word = "=" then .default
    else if nullWords.contains word then .null
    else if looksDate text then .date
    else .text

end Kind

/-! ### Numbers -/

/-- The digits of a text to a base. -/
def digitsValue? (base : Nat) (text : List Char) : Option Nat :=
  if text.isEmpty then none
  else text.foldl (fun n c => do
    let n ← n
    let d ← hexValue? c
    if d < base then some (base * n + d) else none) (some 0)

/-- The wording when digits do not fit their base. -/
def badDigits (base : Nat) (text : List Char) : Fault :=
  .number s!"invalid literal for int() with base {base}: '{String.ofList text}'"

/-- The number that digits to a base stand for. -/
def intOfBase (base : Nat) (text : List Char) : Except Fault Nat :=
  match digitsValue? base text with
  | some n => .ok n
  | none => .error (badDigits base text)

/-- Reads digits to the base ten. -/
def decimalInt (text : List Char) : Except Fault Int :=
  (readInt text).mapError fun fault => .number fault.message

/-- Parts to the base sixty. -/
def sexagesimal {α : Type} [Add α] [Mul α] (zero sixty : α) (parts : List α) : α :=
  parts.foldl (fun n d => n * sixty + d) zero

/-- Whether a text begins with a minus sign. -/
def isNegative (text : List Char) : Bool := text.head? == some '-'

/-- The integer that a text stands for. -/
def intValue (text : List Char) : Except Fault Int := do
  let text := text.filter (· != '_')
  let bare := Kind.unsigned text
  let size : Int ← match bare with
    | ['0'] => pure 0
    | '0' :: 'b' :: digits => (intOfBase 2 digits).map Int.ofNat
    | '0' :: 'x' :: digits => (intOfBase 16 digits).map Int.ofNat
    | '0' :: _ => (intOfBase 8 bare).map Int.ofNat
    | _ =>
      if bare.contains ':' then do
        let parts ← (Kind.partsBy ':' bare).mapM decimalInt
        pure (sexagesimal 0 60 parts)
      else decimalInt bare
  return if isNegative text then -size else size

/-- Reads a double. -/
def decimalFloat (text : List Char) : Except Fault Float :=
  match readFloat? text with
  | some x => .ok x
  | none => .error (.number s!"could not convert string to float: '{String.ofList text}'")

/-- The double that a text stands for. -/
def floatValue (text : List Char) : Except Fault Float := do
  let text := (text.filter (· != '_')).map Char.toLower
  let bare := Kind.unsigned text
  let size ← match String.ofList bare with
    | ".inf" => pure infinity
    | ".nan" => pure notANumber
    | _ =>
      if bare.contains ':' then do
        let parts ← (Kind.partsBy ':' bare).mapM decimalFloat
        pure (sexagesimal 0 60 parts)
      else decimalFloat bare
  return if isNegative text then -size else size

/-! ### Values -/

/-- A value. -/
inductive Value where
  | scalar (j : Json)
  /-- A value without a counterpart in JSON. -/
  | other
  | list (items : List Value)
  | map (members : List (Value × Value))

/-- The kind that a tag asks for. -/
def Kind.ofTag? (tag : String) (text : List Char) : Option Kind :=
  match tag with
  | "tag:yaml.org,2002:str" => some .text
  | "tag:yaml.org,2002:int" => some .int
  | "tag:yaml.org,2002:float" => some .float
  | "tag:yaml.org,2002:null" => some .null
  | "tag:yaml.org,2002:timestamp" => some .date
  | "tag:yaml.org,2002:binary" => some .date
  | "tag:yaml.org,2002:bool" =>
    (lookupPair (Kind.flagWords.filter fun w => w.1.all Char.isLower)
      (String.ofList (text.map Char.toLower))).map .flag
  | _ => none

/-- The value of a scalar of a kind. -/
def Kind.value (kind : Kind) (text : List Char) : Except Fault Value :=
  match kind with
  | .text => .ok (.scalar (.string (String.ofList text)))
  | .null => .ok (.scalar .null)
  | .flag b => .ok (.scalar (.bool b))
  | .int => (intValue text).map fun n => .scalar (.number (.int n))
  | .float => (floatValue text).map fun x => .scalar (.number (.float x))
  | .date => .ok .other
  | .merge => .error .construction
  | .default => .error .construction

/-- The value of a scalar node. -/
def scalarValue (tag : Option String) (isPlain : Bool) (text : List Char) : Except Fault Value :=
  match tag with
  | some name => match Kind.ofTag? name text with
    | some kind => kind.value text
    | none => .error .construction
  | none => (if isPlain then Kind.ofPlain text else .text).value text

/-- Whether a node is the key of a merge. -/
def Node.isMerge : Node → Bool
  | .scalar none true text => Kind.ofPlain text = .merge
  | _ => false

/-- Whether a node is the key of a default. -/
def Node.isDefault : Node → Bool
  | .scalar none true text => Kind.ofPlain text = .default
  | _ => false

/-- Whether a tag fits a collection. -/
def fits (tag : Option String) (name : String) : Bool :=
  tag.all (· == "tag:yaml.org,2002:" ++ name)

/-- The members of the mappings that a merge names. -/
def mergedMembers : Value → Except Fault (List (Value × Value))
  | .map members => .ok members
  | .list items => do
    let parts ← items.reverse.mapM fun item => match item with
      | .map members => .ok members
      | _ => .error .construction
    return parts.flatten
  | _ => .error .construction

/-- Whether a value may be a key. -/
def Value.isKey : Value → Bool
  | .list _ => false
  | .map _ => false
  | _ => true

mutual

/-- The value of a node. -/
def Node.value : Node → Except Fault Value
  | .scalar tag isPlain text => scalarValue tag isPlain text
  | .sequence tag items =>
    if fits tag "seq" then (itemValues items).map .list else .error .construction
  | .mapping tag members =>
    if fits tag "map" then (memberValues members).map fun (merged, own) => .map (merged ++ own)
    else .error .construction

/-- The values of items. -/
def itemValues : List Node → Except Fault (List Value)
  | [] => .ok []
  | n :: rest => do
    let v ← n.value
    return v :: (← itemValues rest)

/-- The members that are merged, and those that are written. -/
def memberValues : List (Node × Node) → Except Fault (List (Value × Value) × List (Value × Value))
  | [] => .ok ([], [])
  | (key, n) :: rest => do
    let v ← n.value
    if key.isMerge then
      let more ← mergedMembers v
      let (merged, own) ← memberValues rest
      return (more ++ merged, own)
    else
      let k ← if key.isDefault then pure (.scalar (.string "=")) else key.value
      if !k.isKey then throw .construction
      let (merged, own) ← memberValues rest
      return (merged, (k, v) :: own)

end

mutual

/-- The value as JSON. Of two members with the same key the second one counts. -/
def Value.json : Value → Json
  | .scalar j => j
  | .other => .array [.null]
  | .list items => .array (itemsJson items)
  | .map members => .object (membersJson members [])

/-- The items as JSON. -/
def itemsJson : List Value → List Json
  | [] => []
  | v :: rest => v.json :: itemsJson rest

/-- The members as JSON, after those that were put there before. -/
def membersJson : List (Value × Value) → List (String × Json) → List (String × Json)
  | [], done => done
  | (.scalar (.string key), v) :: rest, done => membersJson rest (putPair done key v.json)
  | _ :: rest, done => membersJson rest done

end

/-- Whether a member of a value has a key that is no text. -/
def Value.hasOtherKeys : Value → Bool
  | .map members => members.any fun (key, _) => match key with
    | .scalar (.string _) => false
    | _ => true
  | _ => false

/-- The value of a text; one without a document holds nothing. -/
def read (text : String) : Except Fault Value := do
  match ← Node.ofTokens (tokensOf text.toList) with
  | some n => n.value
  | none => return .scalar .null

end Coach.Yaml
