import Coach.Json.Basic
import Coach.Number.Reading

/-!
# Values checked against a shape

Replies of models, stored state and settings come as JSON values that somebody else wrote. A reader
takes such a value and gives a typed one, or says everything that is wrong with it: the issues of the
members of an object are gathered in the order in which the members are asked for.

Readers are lenient about scalars. A number may be written as text, a truth value as a word, and a
whole double counts as an integer; a text is never read off anything but a string.

## Main definitions

* `Issue`: what is wrong, and where
* `Checked`: a value or its issues, and how several are gathered
* `Reader`, and the readers `text`, `integer`, `double`, `flag`, `oneOf`, `listOf`, `optional`
* `fields`, `required`, `withDefault`: objects

## Design notes

`Checked` is applicative and not a monad: a later member is read even when an earlier one is wrong.
-/

namespace Coach.Schema

open Coach.Text

/-- What is wrong with a value. -/
inductive IssueKind where
  | missing
  | textType
  | textTooShort
  | textTooLong
  | intType
  | intParsing
  | intParsingSize
  | intFromFloat
  | finiteNumber
  | floatType
  | floatParsing
  | flagType
  | flagParsing
  | listType
  | listTooLong
  | objectType
  | memberType
  | literal
  | greaterThan
  | greaterThanEqual
  | lessThanEqual
  | custom
  | pathType
  | timeType
  deriving DecidableEq, Repr

/-- The name of a kind of issue. -/
def IssueKind.name : IssueKind → String
  | .missing => "missing"
  | .textType => "string_type"
  | .textTooShort => "string_too_short"
  | .textTooLong => "string_too_long"
  | .intType => "int_type"
  | .intParsing => "int_parsing"
  | .intParsingSize => "int_parsing_size"
  | .intFromFloat => "int_from_float"
  | .finiteNumber => "finite_number"
  | .floatType => "float_type"
  | .floatParsing => "float_parsing"
  | .flagType => "bool_type"
  | .flagParsing => "bool_parsing"
  | .listType => "list_type"
  | .listTooLong => "too_long"
  | .objectType => "model_type"
  | .memberType => "dict_type"
  | .literal => "literal_error"
  | .greaterThan => "greater_than"
  | .greaterThanEqual => "greater_than_equal"
  | .lessThanEqual => "less_than_equal"
  | .custom => "value_error"
  | .pathType => "path_type"
  | .timeType => "datetime_type"

/-- An issue with the place of the value, from the outermost member inwards. -/
structure Issue where
  place : List String
  kind : IssueKind
  deriving DecidableEq, Repr

/-- A value, or everything that is wrong with it. -/
inductive Checked (α : Type) where
  | valid (a : α)
  | invalid (issues : List Issue)

namespace Checked

variable {α β : Type}

/-- Applies a function to a value. -/
def map (f : α → β) : Checked α → Checked β
  | .valid a => .valid (f a)
  | .invalid issues => .invalid issues

/-- Applies one checked value to another; the issues of both are gathered. -/
def seq (f : Checked (α → β)) (x : Unit → Checked α) : Checked β :=
  match f, x () with
  | .valid f, .valid a => .valid (f a)
  | .valid _, .invalid issues => .invalid issues
  | .invalid issues, .valid _ => .invalid issues
  | .invalid issues, .invalid more => .invalid (issues ++ more)

instance : Applicative Checked where
  pure := .valid
  map := map
  seq := seq

/-- A single issue with the value itself. -/
def refuse (kind : IssueKind) : Checked α := .invalid [{ place := [], kind }]

/-- Places the issues below a member. -/
def under (key : String) : Checked α → Checked α
  | .valid a => .valid a
  | .invalid issues => .invalid (issues.map fun i => { i with place := key :: i.place })

/-- Checks a value that is valid so far once more. -/
def andThen (x : Checked α) (f : α → Checked β) : Checked β :=
  match x with
  | .valid a => f a
  | .invalid issues => .invalid issues

/-- The value, if it is valid. -/
def toOption : Checked α → Option α
  | .valid a => some a
  | .invalid _ => none

/-- The value or its issues. -/
def toExcept : Checked α → Except (List Issue) α
  | .valid a => .ok a
  | .invalid issues => .error issues

end Checked

/-- Reads a typed value off a JSON value. -/
abbrev Reader (α : Type) := Json → Checked α

/-! ### Text -/

/-- A string. -/
def text : Reader String
  | .string s => .valid s
  | _ => .refuse .textType

/-- A string of at least so many characters. -/
def textAtLeast (least : Nat) (r : Reader String) : Reader String := fun j =>
  (r j).andThen fun s => if s.length < least then .refuse .textTooShort else .valid s

/-- A string of at most so many characters. -/
def textAtMost (most : Nat) (r : Reader String) : Reader String := fun j =>
  (r j).andThen fun s => if most < s.length then .refuse .textTooLong else .valid s

/-- One of the given words. -/
def oneOf {α : Type} (ofName? : String → Option α) : Reader α
  | .string s => match ofName? s with
    | some a => .valid a
    | none => .refuse .literal
  | _ => .refuse .literal

/-! ### Numbers -/

/-- Drops the zeros before a number: what is left begins with its first other digit, or with the
last zero. Nothing when the text does not begin like a number. -/
def dropLeadingZeros : List Char → Option (List Char)
  | [] => none
  | '0' :: rest => after '0' rest
  | c :: rest => if c.isDigit || c = '-' then some (c :: rest) else none
where
  /-- The same behind a zero, or behind an underscore that follows one. -/
  after (last : Char) : List Char → Option (List Char)
    | [] => some [last]
    | c :: rest =>
      if c = '0' || c = '_' then after c rest
      else if c.isDigit then some (c :: rest)
      else if c = '.' then some (last :: c :: rest)
      else none

/-- Drops a point with nothing but zeros behind it. -/
def dropZeroPlaces (s : List Char) : List Char :=
  match breakOn? ['.'] s with
  | some (whole, places) => if places.all (· == '0') then whole else s
  | none => s

/-- Whether underscores stand only between other characters, and never two together. -/
def spacedByUnderscores (s : List Char) : Bool :=
  s.contains '_' && s.head? != some '_' && s.getLast? != some '_' && !contains s ['_', '_']

/-- Drops underscores that stand between other characters. -/
def dropUnderscores (s : List Char) : List Char :=
  if spacedByUnderscores s then s.filter (· != '_') else s

/-- An integer written as text. White space around it, a plus sign, leading zeros, single underscores
between digits and a point with zeros are allowed. -/
def integerOfText (s : List Char) : Except IssueKind Int :=
  let body := stripBy isNumberBlank s
  let unsigned := match body with
    | '+' :: '-' :: _ => none
    | '+' :: rest => some rest
    | rest => some rest
  match unsigned.bind dropLeadingZeros with
  | none => .error .intParsing
  | some body =>
    let digits := dropUnderscores (dropZeroPlaces body)
    if digitLimit < digits.length then .error .intParsingSize
    else
      let (negative, magnitude) := match digits with
        | '-' :: rest => (true, rest)
        | rest => (false, rest)
      if magnitude.isEmpty || !magnitude.all Char.isDigit then .error .intParsing
      else
        let n : Int := ofNatDigits magnitude
        .ok (if negative then -n else n)

/-- A double as an integer: whole, and of less than 64 bits. -/
def integerOfFloat (x : Float) : Except IssueKind Int :=
  match truncate x with
  | .error _ => .error .finiteNumber
  | .ok n =>
    if Number.same (.int n) (.float x) then
      if -(twoTo 63 : Int) < n ∧ n < twoTo 63 then .ok n else .error .intParsingSize
    else .error .intFromFloat

/-- What a conversion gives, or its issue. -/
def checkedOf {α : Type} : Except IssueKind α → Checked α
  | .ok a => .valid a
  | .error kind => .refuse kind

/-- An integer. -/
def integer : Reader Int
  | .number (.int n) => .valid n
  | .number (.float x) => checkedOf (integerOfFloat x)
  | .bool b => .valid (if b then 1 else 0)
  | .string s => checkedOf (integerOfText s.toList)
  | _ => .refuse .intType

/-- Whether a text has only characters of plain numbers: no white space and no underscore. -/
def isPlainNumber (s : List Char) : Bool :=
  s.all fun c => c.toNat < 128 && !isSpace c && c != '_'

/-- A double written as text. White space around it is allowed, or else single underscores. -/
def doubleOfText? (s : List Char) : Option Float :=
  let body := stripBy isNumberBlank s
  if isPlainNumber body then readFloat? body
  else if spacedByUnderscores s && isPlainNumber (s.filter (· != '_')) then
    readFloat? (s.filter (· != '_'))
  else none

/-- A double. -/
def double : Reader Float
  | .number n => match n.toFloat? with
    | some x => .valid x
    | none => .refuse .floatType
  | .bool b => .valid (if b then 1 else 0)
  | .string s => match doubleOfText? s.toList with
    | some x => .valid x
    | none => .refuse .floatParsing
  | _ => .refuse .floatType

/-- An integer from `least` on. -/
def integerFrom (least : Int) (r : Reader Int) : Reader Int := fun j =>
  (r j).andThen fun n => if least ≤ n then .valid n else .refuse .greaterThanEqual

/-- An integer up to `most`. -/
def integerTo (most : Int) (r : Reader Int) : Reader Int := fun j =>
  (r j).andThen fun n => if n ≤ most then .valid n else .refuse .lessThanEqual

/-- A double from `least` on. -/
def doubleFrom (least : Float) (r : Reader Float) : Reader Float := fun j =>
  (r j).andThen fun x => if least ≤ x then .valid x else .refuse .greaterThanEqual

/-- A double above `least`. -/
def doubleAbove (least : Float) (r : Reader Float) : Reader Float := fun j =>
  (r j).andThen fun x => if least < x then .valid x else .refuse .greaterThan

/-- A double up to `most`. -/
def doubleTo (most : Float) (r : Reader Float) : Reader Float := fun j =>
  (r j).andThen fun x => if x ≤ most then .valid x else .refuse .lessThanEqual

/-! ### Truth values -/

/-- The truth value of a word. -/
def flagOfText? (s : String) : Option Bool :=
  let word := s.map Char.toLower
  if ["true", "t", "yes", "y", "on", "1"].contains word then some true
  else if ["false", "f", "no", "n", "off", "0"].contains word then some false
  else none

/-- The truth value of a number. -/
def flagOfInt? (n : Int) : Option Bool :=
  if n = 1 then some true else if n = 0 then some false else none

/-- A truth value that may be missing from what it was read off. -/
def flagOf : Option Bool → Checked Bool
  | some b => .valid b
  | none => .refuse .flagParsing

/-- A truth value. A number past 64 bits is no truth value at all. -/
def flag : Reader Bool
  | .bool b => .valid b
  | .string s => flagOf (flagOfText? s)
  | .number (.int n) =>
    if -(twoTo 63 : Int) ≤ n ∧ n < twoTo 63 then flagOf (flagOfInt? n) else .refuse .flagType
  | .number (.float x) => match integerOfFloat x with
    | .ok n => flagOf (flagOfInt? n)
    | .error _ => .refuse .flagType
  | _ => .refuse .flagType

/-! ### Lists, options and objects -/

/-- The items from a position on, each read. -/
def readItems {α : Type} (r : Reader α) (position : Nat) : List Json → Checked (List α)
  | [] => .valid []
  | j :: items =>
    List.cons <$> (r j).under (String.ofList (natDigits position)) <*>
      readItems r (position + 1) items

/-- A list of at most `most` items. -/
def listOf {α : Type} (most : Option Nat) (r : Reader α) : Reader (List α)
  | .array items =>
    if most.any (· < items.length) then .refuse .listTooLong else readItems r 0 items
  | _ => .refuse .listType

/-- A value or `null`. -/
def optional {α : Type} (r : Reader α) : Reader (Option α)
  | .null => .valid none
  | j => (r j).map some

/-- An object, by its members. -/
def fields {α : Type} (r : List (String × Json) → Checked α) : Reader α
  | .object members => r members
  | _ => .refuse .objectType

/-- The first of the given names that a member has. -/
def lookupAny (members : List (String × Json)) : List String → Option Json
  | [] => none
  | key :: keys => match lookupPair members key with
    | some j => some j
    | none => lookupAny members keys

/-- A member that has to be there. -/
def required {α : Type} (members : List (String × Json)) (key : String) (r : Reader α)
    (others : List String := []) : Checked α :=
  match lookupAny members (key :: others) with
  | some j => (r j).under key
  | none => (Checked.refuse .missing).under key

/-- A member that may be missing. -/
def withDefault {α : Type} (members : List (String × Json)) (key : String) (default : α)
    (r : Reader α) (others : List String := []) : Checked α :=
  match lookupAny members (key :: others) with
  | some j => (r j).under key
  | none => .valid default

end Coach.Schema
