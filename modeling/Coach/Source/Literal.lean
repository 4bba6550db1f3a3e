import Coach.Text.Basic

/-!
# String and character literals in source text

Where a literal that has been opened ends. A literal runs to its closing quote or, when it has none,
to the end of its line or of the text; a backslash takes the next character along, whatever it is.

## Main definitions

* `isQuote`
* `takeLiteral`: the rest of a literal behind its opening quote, and what follows it
* `isClosed`: whether a literal's last character is its opening quote again
-/

namespace Coach.Source

/-- A quote that opens a literal. -/
def isQuote (c : Char) : Bool := c == '"' || c == '\''

/-- Behind an opening quote: what belongs to the literal, its closing quote included, and the rest. -/
def takeLiteral (quote : Char) : List Char → List Char × List Char
  | [] => ([], [])
  | [c] => if c = '\n' then ([], [c]) else ([c], [])
  | c :: d :: rest =>
    if c = quote then ([c], d :: rest)
    else if c = '\n' then ([], c :: d :: rest)
    else if c = '\\' then
      let (body, after) := takeLiteral quote rest
      (c :: d :: body, after)
    else
      let (body, after) := takeLiteral quote (d :: rest)
      (c :: body, after)

/-- A literal and the rest of the text are the text. -/
theorem takeLiteral_append (quote : Char) (text : List Char) :
    (takeLiteral quote text).1 ++ (takeLiteral quote text).2 = text := by
  fun_induction takeLiteral quote text <;> simp_all

theorem length_takeLiteral_le (quote : Char) (text : List Char) :
    (takeLiteral quote text).2.length ≤ text.length := by
  have h := congrArg List.length (takeLiteral_append quote text)
  simp only [List.length_append] at h
  omega

/-- Whether the body behind an opening quote ends with that quote. -/
def isClosed (quote : Char) (body : List Char) : Bool := body.getLast? == some quote

end Coach.Source
