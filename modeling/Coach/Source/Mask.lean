import Coach.Source.Literal

/-!
# Blanking comments and literals

Source text with its comments, and if so asked the insides of its literals, replaced by blanks.
Newlines stay, so that every character keeps its line and its column.

## Main definitions

* `blank`: a text with everything but newlines replaced
* `takeLine`, `takeBlockComment`: the two kinds of comment behind their opening
* `maskWith`: blanks comments, and passes each literal through a function
* `mask`, `maskComments`: comments and literals, comments alone
-/

namespace Coach.Source

/-- Blanks for everything but newlines. -/
def blank (text : List Char) : List Char := text.map fun c => if c = '\n' then c else ' '

/-- A comment up to the end of its line, and the rest. -/
def takeLine (text : List Char) : List Char × List Char :=
  (text.takeWhile (· != '\n'), text.dropWhile (· != '\n'))

/-- A comment up to and with its closing mark, or to the end of the text, and the rest. -/
def takeBlockComment : List Char → List Char × List Char
  | [] => ([], [])
  | '*' :: '/' :: rest => (['*', '/'], rest)
  | c :: rest =>
    let (body, after) := takeBlockComment rest
    (c :: body, after)

theorem length_takeLine_le (text : List Char) : (takeLine text).2.length ≤ text.length :=
  length_dropWhile_le _ _
where
  length_dropWhile_le (p : Char → Bool) (text : List Char) :
      (text.dropWhile p).length ≤ text.length := (List.dropWhile_suffix p).length_le

theorem length_takeBlockComment_le (text : List Char) :
    (takeBlockComment text).2.length ≤ text.length := by
  fun_induction takeBlockComment text <;> simp_all <;> omega

/-- A literal with everything between its quotes blanked. The body is what stands behind the opening
quote; its last character counts as a closing quote when it is that quote. -/
def blankLiteral (quote : Char) (body : List Char) : List Char :=
  if isClosed quote body then quote :: blank body.dropLast ++ [quote] else quote :: blank body

/-- Blanks comments and passes each literal, given by its quote and its body, through `literal`. -/
def maskWith (literal : Char → List Char → List Char) (text : List Char) : List Char :=
  match text with
  | [] => []
  | '/' :: '/' :: rest =>
    blank ('/' :: '/' :: (takeLine rest).1) ++ maskWith literal (takeLine rest).2
  | '/' :: '*' :: rest =>
    blank ('/' :: '*' :: (takeBlockComment rest).1) ++ maskWith literal (takeBlockComment rest).2
  | c :: rest =>
    if isQuote c then literal c (takeLiteral c rest).1 ++ maskWith literal (takeLiteral c rest).2
    else c :: maskWith literal rest
termination_by text.length
decreasing_by
  · have := length_takeLine_le rest; simp only [List.length_cons]; omega
  · have := length_takeBlockComment_le rest; simp only [List.length_cons]; omega
  · have := length_takeLiteral_le c rest; simp only [List.length_cons]; omega
  · simp

/-- Blanks comments and the insides of literals. -/
def mask (text : List Char) : List Char := maskWith blankLiteral text

/-- Blanks comments and keeps literals. -/
def maskComments (text : List Char) : List Char := maskWith (fun quote body => quote :: body) text

end Coach.Source
