import Coach.Finding.Allocation
import Coach.Finding.Rule
import Coach.Number.Power

/-!
# The catalog of rules

Bug signatures of learners' Java programs: loops, arithmetic, assignments and references, arrays of a
fixed size.

## Main definitions

* `catalog`: all rules, in the order in which they report
* `catalogRules`: the rules of some names
-/

namespace Coach.Finding

open Coach.Text

/-! ### Answers of matchers -/

/-- A message at the line under scan when a condition holds. -/
def Context.report (c : Context) (holds : Bool) (message : String) : Hits :=
  some (if holds then [(c.lineNumber, message)] else [])

/-- A pattern for the characters of a name. -/
def named (name : List Char) : Pattern := .chars name

/-- The text of some characters. -/
def shown (text : List Char) : String := String.ofList text

/-- Patterns with possible white space between each two. -/
def spaced (ps : List Pattern) : Pattern := .all (ps.intersperse .space)

/-! ### Loops -/

/-- A loop header without a condition that could fail. -/
def endlessHeader : Pattern :=
  .alt (spaced [.text "while", .char '(', .text "true", .char ')'])
    (spaced [.text "for", .char '(', .char ';', .char ';', .char ')'])

/-- The word `break`. -/
def breakWord : Pattern := .all [.boundary, .text "break", .boundary]

/-- A loop without a condition and without a `break` in the rest of the document. -/
def infiniteLoop (c : Context) : Hits :=
  c.report (endlessHeader.occursIn c.line && !breakWord.occursIn (joinWith ['\n'] c.fromHere))
    ("Potential infinite loop detected. 'while(true)' or 'for(;;)' logic " ++
      "with no obvious break.")

/-- A loop header with a semicolon behind it; its keyword is group 1. -/
def emptyLoop : Pattern :=
  .all [.boundary, .group 1 (.alt (.text "for") (.text "while")), .space, .char '(',
    .star (.one (· != ')')), .char ')', .space, .char ';']

/-- A loop with an empty body, unless it is the end of a `do` loop. -/
def loopSemicolon (c : Context) : Hits :=
  match emptyLoop.search? c.line with
  | none => some []
  | some m =>
    let stripped := strip c.line
    let endsDo := startsWith stripped ['d', 'o'] || startsWith stripped ['\x7d']
    c.report (!endsDo)
      (s!"Possible logical error: Semicolon after '{shown (m.group 1)}' loop. " ++
        "This makes the loop body empty.")

/-- A counting loop that starts at one. -/
def countFromOneHeader : Pattern :=
  .all [.text "for", .space, .char '(', .space, .text "int", .space1, .word, .space, .char '=',
    .space, .char '1', .space, .char ';']

/-- A loop over an array that starts at one. -/
def loopFromOne (c : Context) : Hits :=
  c.report (countFromOneHeader.occursIn c.line && contains c.line ".length".toList)
    ("Loop starts at index 1. Arrays in Java are 0-indexed. " ++
      "You might be skipping the first element.")

/-- A loop while a number has several digits. -/
def severalDigits : Pattern :=
  spaced [.text "while", .char '(', .word, .char '>', .char '9', .char ')']

/-- A remainder by ten. -/
def modTen : Pattern := .all [.char '%', .space, .text "10", .boundary]

/-- A loop over digits that leaves the last one out. -/
def digitLoop (c : Context) : Hits :=
  c.report (severalDigits.occursIn c.line && modTen.occursIn c.code)
    ("Logical Error in Loop detected. 'while(n > 9)' will skip the last digit " ++
      "processing. Use 'while(n > 0)' or 'while(n != 0)'.")

/-- A loop while one name is less than another, groups 1 and 2. -/
def lessLoop : Pattern :=
  spaced [.text "while", .char '(', .group 1 .word, .char '<', .group 2 .word, .char ')']

/-- A division by two. -/
def halving : Pattern := .all [.char '/', .space, .char '2', .boundary]

/-- An assignment of zero to a name. -/
def setToZero (name : List Char) : Pattern :=
  .all [.boundary, named name, .space, .char '=', .space, .char '0', .boundary]

/-- An assignment to a name. -/
def plainlySet (name : List Char) : Pattern :=
  .all [.boundary, named name, .space, .char '=', .notBefore (· == '=')]

/-- A binary search that stops before its last element. -/
def binarySearch (c : Context) : Hits :=
  match lessLoop.search? c.line with
  | none => some []
  | some m =>
    let low := m.group 1
    let high := m.group 2
    c.report ((setToZero low).occursIn c.code && (plainlySet high).occursIn c.code &&
        halving.occursIn c.code)
      (s!"Binary Search Logic: 'while({shown low} < {shown high})' determines the loop. " ++
        s!"Usually '{shown low} <= {shown high}' is required to check the last element.")

/-- A product that is built up in a variable `fact`. -/
def factorialUpdate : Pattern :=
  .alt (.all [spaced [.text "fact", .char '=', .text "fact", .char '*', .char 'i'], .boundary])
    (.all [spaced [.text "fact", .text "*=", .char 'i'], .boundary])

/-- A loop of `i` up to below `n`. -/
def factorialHeader : Pattern :=
  .all [.text "for", .space, .char '(', .plus (.one (· != ';')), .char ';', .space, .char 'i', .space,
    .char '<', .space, .char 'n', .boundary]

/-- A factorial that leaves its last factor out, reported at the first such loop. -/
def factorialRange (c : Context) : Hits :=
  c.report (factorialHeader.occursIn c.line && factorialUpdate.occursIn c.code &&
      c.firstIndex? factorialHeader.occursIn == some c.index)
    ("Potential loop range error for Factorial. 'i < n' stops before 'n'. " ++
      "Usually Factorial includes 'n' (i <= n).")

/-- A condition that sets a flag, group 1. -/
def flagSet : Pattern :=
  .all [.text "if", .space, .char '(', .lineRest, .char ')', .space, .optional (.char '\x7b'), .space,
    .group 1 .word, .space, .char '=', .space, .text "true", .boundary]

/-- An assignment of `false` to a name. -/
def flagReset (name : List Char) : Pattern :=
  .all [.boundary, named name, .space, .char '=', .space, .text "false", .boundary]

/-- A flag that is set and reset by turns, on the line and the two after it. -/
def sortedFlag (c : Context) : Hits :=
  match flagSet.search? c.line with
  | none => some []
  | some m =>
    let reset := flagReset (m.group 1)
    c.report ([m.rest, c.peek 1, c.peek 2].any reset.occursIn)
      ("Flawed 'Is Sorted' Logic. Setting flag to true/false inside loop overwrites " ++
        "previous mismatch. Once 'false' is found, you should break or return.")

/-! ### Arithmetic -/

/-- A division or a remainder by a literal zero; the operator is group 1. -/
def byZero : Pattern :=
  .all [.notAfter fun c => c == '/' || c == '*', .group 1 (.anyOf "/%"), .space, .char '0',
    .notBefore fun c => c == '.' || isWord c]

/-- A division by a literal zero. -/
def divisionByZero (c : Context) : Hits :=
  match byZero.search? c.line with
  | none => some []
  | some m =>
    let what := if m.group 1 = ['/'] then "Division" else "Modulo"
    c.report true s!"{what} by zero detected."

/-- A parenthesis divided by an integer literal. -/
def parenthesisDivided : Pattern :=
  .all [.char '(', .plus (.one (· != ')')), .char ')', .space, .char '/', .space, .digits,
    .notBefore fun c => c == '.' || isDecimal c || c == 'f' || c == 'F' || c == 'd' || c == 'D']

/-- The name of a floating type. -/
def floatingType : Pattern := .alt (.text "double") (.text "float")

/-- An integer division whose value goes to a floating variable. -/
def integerDivision (c : Context) : Hits :=
  c.report (parenthesisDivided.occursIn c.line &&
      (Pattern.all [.boundary, floatingType, .boundary]).occursIn c.line &&
      !(spaced [.char '(', floatingType, .char ')']).occursIn c.line)
    ("Potential integer division loss. If operands are integers, the decimal part " ++
      "will be truncated before assigning to double/float. Use '2.0' or cast to double.")

/-- A half compared with zero. -/
def halfIsZero : Pattern := spaced [.char '/', .char '2', .text "==", .char '0']

/-- A test for even numbers by a division. -/
def evenOdd (c : Context) : Hits :=
  c.report (halfIsZero.occursIn c.line)
    ("Logic Error: Using division '/ 2' checks if half the number is 0. " ++
      "To check for Even/Odd, use modulus '% 2'.")

/-- The sum formula with one added at the end. -/
def sumPlusOne : Pattern :=
  spaced [.char '*', .char '(', .word, .char '+', .char '1', .char ')', .char '/', .char '2', .char '+',
    .char '1']

/-- A sum formula with one too many. -/
def sumFormula (c : Context) : Hits :=
  c.report (sumPlusOne.occursIn c.line)
    ("Formula Error. Sum of natural numbers is n*(n+1)/2. " ++
      "You added an extra '+ 1' at the end.")

/-- A base that grows by eight. -/
def baseTimesEight : Pattern :=
  .alt (.all [spaced [.text "base", .char '=', .text "base", .char '*', .char '8'], .boundary])
    (.all [spaced [.text "base", .text "*=", .char '8'], .boundary])

/-- A binary conversion in base eight. -/
def binaryBase (c : Context) : Hits :=
  c.report (baseTimesEight.occursIn c.line && (Pattern.textAnyCase "bin").occursIn c.code)
    ("Binary Conversion Error. Input is Binary (Base 2) but you are multiplying " ++
      "base by 8 (Octal). Use 'base * 2'.")

/-- A counter that starts at one. -/
def countFromOne : Pattern :=
  .all [.text "int", .space1, spaced [.text "count", .char '=', .char '1', .char ';']]

/-- A division by ten. -/
def overTen : Pattern := .all [.char '/', .space, .text "10", .boundary]

/-- A count of digits that starts at one. -/
def digitCount (c : Context) : Hits :=
  c.report (countFromOne.occursIn c.line && overTen.occursIn c.code)
    ("Initialization Error. 'count' starts at 1. If the loop counts digits, " ++
      "it might result in an extra count. Usually start from 0.")

/-- A sum of squared digits. -/
def squareSum : Pattern :=
  spaced [.text "sum", .char '=', .text "sum", .char '+', .char 'd', .char '*', .char 'd', .char ';']

/-- A cube sum that squares. -/
def armstrongSquare (c : Context) : Hits :=
  c.report (squareSum.occursIn c.line)
    ("Logic Error: Armstrong number check usually requires cubing digits (d*d*d) " ++
      "for 3-digit numbers, or Math.pow().")

/-- An element over the length, added up. -/
def averageInLoop : Pattern :=
  .all [.text "+=", .space, .word, .char '[', .word, .char ']', .space, .char '/', .space, .word,
    .text ".length"]

/-- An average that divides each element as an integer. -/
def precisionLoss (c : Context) : Hits :=
  c.report (averageInLoop.occursIn c.line && !contains c.line "double".toList)
    ("Precision Loss in Loop. Integer division 'a[i] / length' often results in 0. " ++
      "Sum all elements first, then divide the total sum by length.")

/-- A product of integer literals, group 1. -/
def literalProduct : Pattern :=
  .all [.notAfter fun c => isWord c || c == '.',
    .group 1 (.all [.digits, .plus (.all [.space, .char '*', .space, .digits])]),
    .notBefore fun c => isWord c || c == '.']

/-- A long literal or a cast to long. -/
def longOperand : Pattern :=
  .alt (.all [.boundary, .digits, .anyOf "lL", .boundary])
    (spaced [.char '(', .text "long", .char ')'])

/-- The greatest 32-bit integer. -/
def intMax : Nat := twoTo 31 - 1

/-- The message about a product of literals, if it overflows although each factor fits. -/
def productMessage (text : List Char) : Option (Option String) := do
  let factors ← ((splitOn '*' text).map strip).mapM readNatural
  let product := factors.foldl (· * ·) 1
  if product > intMax && factors.all (· ≤ intMax) then
    let shownProduct ← intText? product
    return some (s!"Integer overflow. {shown text} = {shown shownProduct} does not fit in a 32-bit " ++
      s!"int (max {intMax}). Use a long literal such as {factors.headD 0}L.")
  else return none

/-- The first overflowing product among some texts. -/
def firstProduct (number : Nat) : List (List Char) → Hits
  | [] => some []
  | text :: rest => match productMessage text with
    | none => none
    | some (some message) => some [(number, message)]
    | some none => firstProduct number rest

/-- A product of integer literals that overflows. -/
def integerOverflow (c : Context) : Hits :=
  if longOperand.occursIn c.line then some []
  else firstProduct c.lineNumber ((literalProduct.searchAll c.line).map fun m => m.group 1)

/-! ### Assignment and references -/

/-- The name of a primitive type. -/
def primitiveWord : Pattern :=
  .all [.boundary, .anyPattern (["int", "boolean", "char", "double", "float", "long", "short",
    "byte"].map .text), .boundary]

/-- A declaration of a string. -/
def stringDeclaration : Pattern := .all [.boundary, .text "String", .space1, .word]

/-- A string literal on one side of an equality sign. -/
def equalsLiteral : Pattern :=
  .anyPattern [
    spaced [.char '"', .text "==", .char '"'],
    spaced [.word, .text "==", .char '"'],
    spaced [.char '"', .text "==", .one isWord]]

/-- Strings compared by reference. -/
def stringEquality (c : Context) : Hits :=
  let line := c.line
  c.report (line.contains '"' && contains line ['=', '='] && !primitiveWord.occursIn line &&
      (stringDeclaration.occursIn c.code || equalsLiteral.occursIn line))
    ("String comparison using '=='. In Java, '==' compares object references. " ++
      "Use '.equals()' to compare string content.")

/-- One name set to another, groups 1 and 2. -/
def plainAssignment : Pattern :=
  .all [.boundary, .group 1 .word, .space,
    .notAfter fun c => c == '=' || c == '!' || c == '<' || c == '>',
    .char '=', .notBefore (· == '='), .space, .group 2 .word, .space, .char ';']

/-- The second of two names set to the sum of both. -/
def sumOfBoth (first second : List Char) : Pattern :=
  let plus (a b : List Char) := spaced [named a, .char '+', named b]
  .all [.boundary, named second, .space, .char '=', .space,
    .alt (plus first second) (plus second first), .boundary]

/-- Two values of a sequence moved on without a temporary variable, reported at the second step. -/
def swapWithoutTemp (c : Context) : Hits :=
  match plainAssignment.search? c.line with
  | none => some []
  | some m =>
    let a := m.group 1
    let b := m.group 2
    if (sumOfBoth a b).occursIn (c.peek 1) then
      some [(c.lineNumber + 1,
        s!"Fibonacci Logic Error. You updated '{shown a}' before calculating '{shown b}', " ++
          s!"so '{shown b}' is using the WRONG '{shown a}'. Use a temporary variable.")]
    else some []

/-- A name between brackets, bound to a group. -/
def indexGroup (number : Nat) : Pattern := .all [.char '[', .group number .word, .char ']']

/-- The name of a group between brackets. -/
def indexAgain (number : Nat) : Pattern := .all [.char '[', .again number, .char ']']

/-- A sum of matrices with the second transposed: result, row, column and the two operands are groups
1 to 5. -/
def transposedSum : Pattern :=
  .all [.group 1 .word, indexGroup 2, indexGroup 3, .space, .char '=', .space,
    .group 4 .word, indexAgain 2, indexAgain 3, .space, .char '+', .space,
    .group 5 .word, indexAgain 3, indexAgain 2]

/-- A sum of matrices that adds a transpose. -/
def matrixTranspose (c : Context) : Hits :=
  match transposedSum.search? c.line with
  | none => some []
  | some m =>
    let i := shown (m.group 2)
    let j := shown (m.group 3)
    let a := shown (m.group 4)
    let b := shown (m.group 5)
    c.report true
      (s!"Matrix Addition Logic Error. You are adding '{a}[{i}][{j}]' with " ++
        s!"'{b}[{j}][{i}]'. This adds the Transpose of {b}, not {b} itself. " ++
        s!"Use '{b}[{i}][{j}]'.")

/-- An array variable set to a name, group 2. -/
def arrayAlias : Pattern :=
  .all [.boundary, .word, .space, .char '[', .space, .char ']', .space1, .group 1 .word, .space,
    .char '=', .space,
    .group 2 (.seq (.one fun c => (c.toNat < 0x80 && c.isAlpha) || c == '_') (.star (.one isWord))),
    .space, .char ';']

/-- An array that is copied by reference. -/
def shallowCopy (c : Context) : Hits :=
  match arrayAlias.search? c.line with
  | none => some []
  | some m =>
    c.report (m.group 2 ≠ "null".toList)
      ("Shallow Copy Detected. Array assignment copies the reference, not the values. " ++
        "Modifying one will modify the other. Use 'val.clone()' or 'System.arraycopy'.")

/-- A class that runs as a thread. -/
def threadClass : Pattern :=
  .alt
    (.all [.text "class", .space1, .word, .space1, .text "extends", .space1, .text "Thread", .boundary])
    (.all [.text "implements", .space1, .text "Runnable", .boundary])

/-- A static integer; its name is group 1. -/
def staticInt : Pattern :=
  .all [.boundary, .text "static", .space1, .optional (.seq (.text "volatile") .space1), .text "int",
    .space1, .group 1 .word]

/-- An increment of a name. -/
def incremented (name : List Char) : Pattern :=
  .alt (.all [.boundary, named name, .space, .text "++"])
    (.all [.text "++", .space, named name, .boundary])

/-- A shared variable that a thread increments without a guard. -/
def threadRace (c : Context) : Hits :=
  c.report (contains c.line ['+', '+'] && threadClass.occursIn c.code &&
      !contains c.code "AtomicInteger".toList &&
      !contains c.line "synchronized".toList && !contains (c.peek (-1)) "synchronized".toList &&
      (staticInt.searchAll c.code).any fun m => (incremented (m.group 1)).occursIn c.line)
    ("Potential Race Condition. Modifying shared static variable in a Thread " ++
      "without 'synchronized' or 'AtomicInteger' leads to unpredictable results.")

/-- A map with a mutable key type, group 1. -/
def mutableKey : Pattern :=
  .all [.text "Map", .space, .char '<', .space,
    .group 1 (.anyPattern (["StringBuilder", "StringBuffer", "int[]", "ArrayList"].map .text))]

/-- A map whose keys can change. -/
def mutableMapKey (c : Context) : Hits :=
  match mutableKey.search? c.line with
  | none => some []
  | some m =>
    c.report true
      (s!"Mutable Map Key Detected. Using mutable objects ({shown (m.group 1)}) as Map keys " ++
        "is dangerous. If the object changes, the hash code changes, making retrieval " ++
        "impossible.")

/-- A recursive call with `mid` as an argument between two others. -/
def recursionWithMid : Pattern :=
  .all [.text "return", .space1, .word, .space, .char '(', .lineRest, .char ',', .space, .text "mid",
    .space, .char ',', .lineRest, .char ')']

/-- The middle moved by one. -/
def midMoved : Pattern := spaced [.text "mid", .anyOf "+-", .char '1']

/-- A binary search that does not shrink its range. -/
def recursiveMid (c : Context) : Hits :=
  c.report (recursionWithMid.occursIn c.line && !midMoved.occursIn c.line)
    ("Potential Infinite Recursion. Recursive call uses 'mid' directly. Usually " ++
      "Binary Search requires 'mid + 1' or 'mid - 1' to reduce the range.")

/-- A reference set to null; its name is group 1. -/
def nullInit : Pattern :=
  .all [.boundary, .one (fun c => 'A' ≤ c && c ≤ 'Z'), .star (.one isWord),
    .optional (.all [.char '<', .star (.one (· != '>')), .char '>']), .optional (.text "[]"), .space1,
    .group 1 .word, .space, .char '=', .space, .text "null", .space, .char ';']

/-- A comparison of a name with null. -/
def comparedWithNull (name : List Char) : Pattern :=
  .all [.boundary, named name, .space, .anyOf "!=", .char '=', .space, .text "null", .boundary]

/-- A member of a name. -/
def memberOf (name : List Char) : Pattern :=
  .all [.boundary, named name, .space, .char '.', .space, .word]

/-- The first use of a null reference among some lines, unless a guard or an assignment comes
first. -/
def firstNullUse (name : List Char) : List (Nat × List Char) → List Hit
  | [] => []
  | (number, text) :: rest =>
    if (comparedWithNull name).occursIn text then []
    else if (memberOf name).occursIn text then
      [(number, s!"Null Pointer Risk. '{shown name}' was initialised to null and is " ++
        "used here before being assigned an object.")]
    else if (plainlySet name).occursIn text then []
    else firstNullUse name rest

/-- A reference that is used while it is null. -/
def nullDereference (c : Context) : Hits :=
  match nullInit.search? c.line with
  | none => some []
  | some m => some (firstNullUse (m.group 1) c.following)

/-! ### Arrays of a fixed size -/

/-- The rest of the allocating line and the lines after it. -/
def afterAllocation (c : Context) (a : Allocation) : List (Nat × List Char) :=
  (c.lineNumber, a.rest) :: c.following

/-- A loop up to and with the size of an array. -/
def inclusiveBound (a : Allocation) : Pattern :=
  .all [.text "for", .space, .char '(', .star (.one (· != ';')), .char ';', .space, .word, .space,
    .text "<=", .space,
    .alt (.chars (natDigits a.size)) (.seq (named a.name) (.text ".length")), .space, .char ';']

/-- A loop that runs one index too far. -/
def arrayLoopBound (c : Context) : Hits :=
  (allocation c.line).map fun found =>
    match found with
    | none => []
    | some a =>
      (afterAllocation c a).filterMap fun (number, text) =>
        if (inclusiveBound a).occursIn text then
          some (number,
            s!"Potential off-by-one error. Loop runs up to index {a.size} (inclusive), " ++
              s!"but array size is {a.size}. Last index is {(a.size : Int) - 1}.")
        else none

/-- An access to an array at a literal index, group 1. -/
def literalAccess (name : List Char) : Pattern :=
  .all [.boundary, named name, .space, .char '[', .space, .group 1 .digits, .space, .char ']']

/-- The first index that is past the size among some, unless one before it has too many digits. -/
def firstPast (size : Nat) : List (List Char) → Option (Option Nat)
  | [] => some none
  | digits :: rest => do
    let index ← readNatural digits
    if size ≤ index then return some index else firstPast size rest

/-- Accesses past the end of an array, at most one a line. -/
def arrayLiteralIndex (c : Context) : Hits := do
  match ← allocation c.line with
  | none => return []
  | some a =>
    let found ← (afterAllocation c a).mapM fun (number, text) => do
      let index ← firstPast a.size (((literalAccess a.name).searchAll text).map fun m => m.group 1)
      return index.map fun (index : Nat) =>
        ((number, s!"Array index out of bounds. Array size {a.size}, accessed index {index}.") : Hit)
    return found.filterMap id

/-! ### The catalog -/

/-- All rules, in the order in which they report. -/
def catalog : List Rule := [
  ⟨"infinite-loop", .context, .infiniteRecursion, .warning, infiniteLoop⟩,
  ⟨"division-by-zero", .line, .divisionByZero, .error, divisionByZero⟩,
  ⟨"string-equality", .document, .stringEquality, .warning, stringEquality⟩,
  ⟨"integer-division", .line, .otherLogical, .warning, integerDivision⟩,
  ⟨"loop-semicolon", .line, .otherLogical, .warning, loopSemicolon⟩,
  ⟨"loop-from-one", .line, .offByOne, .warning, loopFromOne⟩,
  ⟨"even-odd-division", .line, .otherLogical, .warning, evenOdd⟩,
  ⟨"digit-loop", .document, .offByOne, .warning, digitLoop⟩,
  ⟨"swap-without-temp", .context, .otherLogical, .error, swapWithoutTemp⟩,
  ⟨"binary-search-bound", .document, .offByOne, .warning, binarySearch⟩,
  ⟨"matrix-transpose", .line, .otherLogical, .error, matrixTranspose⟩,
  ⟨"sum-formula", .line, .otherLogical, .warning, sumFormula⟩,
  ⟨"binary-base", .document, .otherLogical, .error, binaryBase⟩,
  ⟨"digit-count", .document, .offByOne, .warning, digitCount⟩,
  ⟨"array-loop-bound", .context, .offByOne, .warning, arrayLoopBound⟩,
  ⟨"array-literal-index", .context, .arrayIndexOutOfBounds, .error, arrayLiteralIndex⟩,
  ⟨"factorial-range", .document, .offByOne, .warning, factorialRange⟩,
  ⟨"armstrong-square", .line, .otherLogical, .warning, armstrongSquare⟩,
  ⟨"shallow-copy", .line, .otherLogical, .warning, shallowCopy⟩,
  ⟨"sorted-flag", .context, .otherLogical, .warning, sortedFlag⟩,
  ⟨"thread-race", .document, .otherLogical, .warning, threadRace⟩,
  ⟨"mutable-map-key", .line, .otherLogical, .error, mutableMapKey⟩,
  ⟨"recursive-mid", .line, .infiniteRecursion, .error, recursiveMid⟩,
  ⟨"precision-loss", .line, .otherLogical, .warning, precisionLoss⟩,
  ⟨"integer-overflow", .line, .integerOverflow, .warning, integerOverflow⟩,
  ⟨"null-dereference", .context, .nullPointer, .error, nullDereference⟩]

/-- The rules of some names, in the order of the names; a name that is not known gives none. -/
def catalogRules (names : List String) : List Rule :=
  names.filterMap fun name => catalog.find? (·.name == name)

end Coach.Finding
