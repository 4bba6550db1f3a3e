import Coach.Json.Basic
import Coach.Number.Decimal
import Coach.Text.Quoted

/-!
# Values shown to people

How a JSON value reads when it turns up inside a message: words with capital letters, strings between
single quotes inside lists and bare on their own.

## Main definitions

* `Json.isEmptyLike`: whether a value counts as absent
* `Json.shown`: a value inside a message
-/

namespace Coach.Json

open Coach.Text

/-- Whether a value counts as absent: `null`, `false`, a zero, and whatever has nothing in it. -/
def isEmptyLike : Json → Bool
  | .null => true
  | .bool b => !b
  | .number n => n.same (.int 0)
  | .string s => s.isEmpty
  | .array items => items.isEmpty
  | .object members => members.isEmpty

mutual

/-- A value inside a list or an object. -/
def shownInside : Json → List Char
  | .null => "None".toList
  | .bool b => if b then "True".toList else "False".toList
  | .number (.int n) => intText n
  | .number (.float x) => floatText x
  | .string s => quoted s.toList
  | .array items => '[' :: shownItems items ++ [']']
  | .object members => '\x7b' :: shownMembers members ++ ['\x7d']

/-- Items with commas between them. -/
def shownItems : List Json → List Char
  | [] => []
  | [item] => shownInside item
  | item :: next :: items => shownInside item ++ ", ".toList ++ shownItems (next :: items)

/-- Members with commas between them. -/
def shownMembers : List (String × Json) → List Char
  | [] => []
  | [(name, value)] => quoted name.toList ++ ": ".toList ++ shownInside value
  | (name, value) :: next :: members =>
    quoted name.toList ++ ": ".toList ++ shownInside value ++ ", ".toList ++
      shownMembers (next :: members)

end

/-- A value inside a message. -/
def shown : Json → String
  | .string s => s
  | j => String.ofList (shownInside j)

/-- A value inside a message, or another text when it counts as absent. -/
def shownOr (j : Json) (other : String) : String := if j.isEmptyLike then other else j.shown

end Coach.Json
