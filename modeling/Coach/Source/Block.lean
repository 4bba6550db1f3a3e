import Coach.Source.Literal

/-!
# Blocks, statements and declarators

Cutting a source text, whose comments have been blanked, at its top level: at the brace that closes
another, at semicolons and blocks, at commas. Literals are passed over everywhere.

## Main definitions

* `takeBlock`: a block up to and with its closing brace
* `Piece`, `pieces`: the statements of a body, plain and compound
* `splitTopLevel`: the parts between commas outside all brackets
-/

namespace Coach.Source

open Coach.Text

/-- From an opening brace on: the text up to and with the brace that brings the depth, which is
`depth` before the first character, back to zero, and the rest. A text that never closes is taken
whole. -/
def takeBlock (depth : Nat) (text : List Char) : List Char × List Char :=
  match text with
  | [] => ([], [])
  | c :: rest =>
    if isQuote c then
      let (block, after) := takeBlock depth (takeLiteral c rest).2
      (c :: (takeLiteral c rest).1 ++ block, after)
    else if c = '\x7d' ∧ depth ≤ 1 then ([c], rest)
    else
      let depth := if c = '\x7b' then depth + 1 else if c = '\x7d' then depth - 1 else depth
      let (block, after) := takeBlock depth rest
      (c :: block, after)
termination_by text.length
decreasing_by
  · have := length_takeLiteral_le c rest; simp only [List.length_cons]; omega
  · simp

/-- A block and the rest of the text are the text. -/
theorem takeBlock_append (depth : Nat) (text : List Char) :
    (takeBlock depth text).1 ++ (takeBlock depth text).2 = text := by
  fun_induction takeBlock depth text with
  | case1 => rfl
  | case2 depth c rest hq block after heq ih =>
    rw [heq] at ih
    simp only [List.cons_append, List.append_assoc, List.cons.injEq, true_and]
    rw [show block ++ after = (takeLiteral c rest).2 from ih]
    exact takeLiteral_append c rest
  | case3 => rfl
  | case4 depth c rest hq hc depth' block after heq ih =>
    rw [heq] at ih
    simp only [List.cons_append, List.cons.injEq, true_and]
    exact ih

theorem length_takeBlock_le (depth : Nat) (text : List Char) :
    (takeBlock depth text).2.length ≤ text.length := by
  have h := congrArg List.length (takeBlock_append depth text)
  simp only [List.length_append] at h
  omega

/-- A block takes at least the character it begins with. -/
theorem length_takeBlock_cons_lt (depth : Nat) (c : Char) (rest : List Char) :
    (takeBlock depth (c :: rest)).2.length < (c :: rest).length := by
  rw [takeBlock]
  split
  · have h₁ := length_takeBlock_le depth (takeLiteral c rest).2
    have h₂ := length_takeLiteral_le c rest
    simp only [List.length_cons]
    omega
  · split
    · simp
    · have h₁ := length_takeBlock_le
        (if c = '\x7b' then depth + 1 else if c = '\x7d' then depth - 1 else depth) rest
      simp only [List.length_cons]
      omega

/-! ### Statements -/

/-- A statement of a body: plain, up to its semicolon, or compound, with its block. What stands behind
the last semicolon counts as compound. -/
inductive Piece where
  | plain (text : List Char)
  | compound (text : List Char)
  deriving DecidableEq, Repr

namespace Piece

/-- The text of a piece. -/
def text : Piece → List Char
  | .plain t => t
  | .compound t => t

/-- Whether the piece is compound. -/
def isCompound : Piece → Bool
  | .plain _ => false
  | .compound _ => true

end Piece

/-- Whether a block that follows belongs to the statement: an array initialiser or a lambda body. -/
def opensValue (head : List Char) : Bool :=
  endsWith head ['='] || endsWith head [']'] || endsWith head ['-', '>']

/-- The pieces of a body from a point on, at which `buffer` has been read since the last piece and
`parens` parentheses are open. -/
def piecesFrom (buffer : List Char) (parens : Int) (text : List Char) : List Piece :=
  match text with
  | [] =>
    let last := strip buffer
    if last.isEmpty then [] else [.compound last]
  | c :: rest =>
    if isQuote c then
      piecesFrom (buffer ++ c :: (takeLiteral c rest).1) parens (takeLiteral c rest).2
    else if c = '(' then piecesFrom (buffer ++ [c]) (parens + 1) rest
    else if c = ')' then piecesFrom (buffer ++ [c]) (parens - 1) rest
    else if c = ';' ∧ parens ≤ 0 then
      let statement := strip buffer
      if statement.isEmpty then piecesFrom [] parens rest
      else .plain statement :: piecesFrom [] parens rest
    else if c = '\x7b' ∧ parens ≤ 0 then
      let head := strip buffer
      let block := (takeBlock 0 (c :: rest)).1
      if opensValue head then piecesFrom (buffer ++ block) parens (takeBlock 0 (c :: rest)).2
      else .compound (head ++ block) :: piecesFrom [] parens (takeBlock 0 (c :: rest)).2
    else if c = '\x7d' then piecesFrom buffer parens rest
    else piecesFrom (buffer ++ [c]) parens rest
termination_by text.length
decreasing_by
  · have := length_takeLiteral_le c rest; simp only [List.length_cons]; omega
  · simp
  · simp
  · simp
  · simp
  · exact length_takeBlock_cons_lt 0 c rest
  · exact length_takeBlock_cons_lt 0 c rest
  · simp
  · simp

/-- The statements of a body. -/
def pieces (body : List Char) : List Piece := piecesFrom [] 0 body

/-! ### Parts between commas -/

/-- The parts from a point on, at which `buffer` has been read since the last comma and `depth`
brackets are open. -/
def splitTopLevelFrom (buffer : List Char) (depth : Int) (text : List Char) : List (List Char) :=
  match text with
  | [] => [strip buffer]
  | c :: rest =>
    if isQuote c then
      splitTopLevelFrom (buffer ++ c :: (takeLiteral c rest).1) depth (takeLiteral c rest).2
    else if c = '(' ∨ c = '[' ∨ c = '\x7b' then splitTopLevelFrom (buffer ++ [c]) (depth + 1) rest
    else if c = ')' ∨ c = ']' ∨ c = '\x7d' then splitTopLevelFrom (buffer ++ [c]) (depth - 1) rest
    else if c = ',' ∧ depth = 0 then strip buffer :: splitTopLevelFrom [] depth rest
    else splitTopLevelFrom (buffer ++ [c]) depth rest
termination_by text.length
decreasing_by
  · have := length_takeLiteral_le c rest; simp only [List.length_cons]; omega
  · simp
  · simp
  · simp
  · simp

/-- The parts of a text between its commas outside brackets and literals, trimmed. -/
def splitTopLevel (text : List Char) : List (List Char) := splitTopLevelFrom [] 0 text

end Coach.Source
