import Coach.Text.Character

/-!
# Texts as lists of characters

Trimming, splitting, searching and replacing on `List Char`. Every function here is plain recursion
on the text, so that later statements about texts can follow it.

## Main definitions

* `strip`, `stripLeft`, `stripRight`: white space off the ends
* `splitOn`, `joinWith`: pieces between one character, and back
* `splitLines`: pieces between line breaks of any kind
* `words`, `nextWord`: runs without white space
* `find?`, `contains`, `replaceAll`: occurrences of a text in a text
-/

namespace Coach.Text

/-! ### Trimming -/

/-- Drops the characters of a class from the end. -/
def dropRightWhile (p : Char → Bool) (text : List Char) : List Char :=
  (text.reverse.dropWhile p).reverse

/-- Drops white space from the beginning. -/
def stripLeft (text : List Char) : List Char := text.dropWhile isSpace

/-- Drops white space from the end. -/
def stripRight (text : List Char) : List Char := dropRightWhile isSpace text

/-- Drops white space from both ends. -/
def strip (text : List Char) : List Char := stripRight (stripLeft text)

/-- Drops the characters of a class from both ends. -/
def stripBy (p : Char → Bool) (text : List Char) : List Char :=
  dropRightWhile p (text.dropWhile p)

/-! ### Splitting and joining -/

/-- The pieces between the occurrences of one character; there is always at least one. -/
def splitOn (separator : Char) : List Char → List (List Char)
  | [] => [[]]
  | c :: rest =>
    if c = separator then [] :: splitOn separator rest
    else match splitOn separator rest with
      | [] => [[c]]
      | piece :: pieces => (c :: piece) :: pieces

/-- The pieces one after another, with `separator` between two of them. -/
def joinWith (separator : List Char) : List (List Char) → List Char
  | [] => []
  | [piece] => piece
  | piece :: next :: pieces => piece ++ separator ++ joinWith separator (next :: pieces)

/-- Whether a character ends a line. -/
def isLineBreak (c : Char) : Bool :=
  let n := c.toNat
  (10 ≤ n && n ≤ 13) || (28 ≤ n && n ≤ 30) || n == 0x85 || n == 0x2028 || n == 0x2029

/-- The lines of a text with the line break that ends each, which is empty at most for the last. A
carriage return and a newline are one break together, and a break at the very end opens no further
line. -/
def linesWithBreaks : List Char → List (List Char × List Char)
  | [] => []
  | '\r' :: '\n' :: rest => ([], ['\r', '\n']) :: linesWithBreaks rest
  | c :: rest =>
    if isLineBreak c then ([], [c]) :: linesWithBreaks rest
    else match linesWithBreaks rest with
      | [] => [([c], [])]
      | (line, ending) :: lines => (c :: line, ending) :: lines

/-- The lines of a text without their breaks. -/
def splitLines (text : List Char) : List (List Char) := (linesWithBreaks text).map (·.1)

/-- The first run of characters without white space and what follows the white space after it. -/
def nextWord? (text : List Char) : Option (List Char × List Char) :=
  match stripLeft text with
  | [] => none
  | c :: rest =>
    some (c :: rest.takeWhile (!isSpace ·), stripLeft (rest.dropWhile (!isSpace ·)))

theorem length_dropWhile_le (p : Char → Bool) (text : List Char) :
    (text.dropWhile p).length ≤ text.length :=
  (List.dropWhile_suffix p).length_le

theorem length_of_nextWord? {text word rest : List Char} (h : nextWord? text = some (word, rest)) :
    rest.length < text.length := by
  unfold nextWord? at h
  split at h
  · simp at h
  · next c tail heq =>
    simp only [Option.some.injEq, Prod.mk.injEq] at h
    have h₁ := length_dropWhile_le isSpace text
    have h₂ := length_dropWhile_le (!isSpace ·) tail
    have h₃ := length_dropWhile_le isSpace (tail.dropWhile (!isSpace ·))
    have h₄ : (stripLeft text).length = tail.length + 1 := by rw [heq]; simp
    rw [← h.2]
    simp only [stripLeft] at *
    omega

/-- The runs of characters without white space. -/
def words (text : List Char) : List (List Char) :=
  match _h : nextWord? text with
  | none => []
  | some (word, rest) => word :: words rest
termination_by text.length
decreasing_by exact length_of_nextWord? _h

/-! ### Searching and replacing -/

/-- The text after `start`, when the text begins with it. -/
def dropStart? : List Char → List Char → Option (List Char)
  | [], text => some text
  | _ :: _, [] => none
  | s :: start, c :: text => if s = c then dropStart? start text else none

/-- Whether the text begins with `start`. -/
def startsWith (text start : List Char) : Bool := (dropStart? start text).isSome

/-- Whether the text ends with `ending`. -/
def endsWith (text ending : List Char) : Bool := startsWith text.reverse ending.reverse

/-- The parts before and after the first occurrence of `part`. -/
def breakOn? (part : List Char) : List Char → Option (List Char × List Char)
  | [] => if part.isEmpty then some ([], []) else none
  | c :: rest =>
    match dropStart? part (c :: rest) with
    | some after => some ([], after)
    | none => (breakOn? part rest).map fun (before, after) => (c :: before, after)

/-- The index of the first occurrence of `part`. -/
def find? (part text : List Char) : Option Nat := (breakOn? part text).map (·.1.length)

/-- Whether `part` occurs in the text. -/
def contains (text part : List Char) : Bool := (breakOn? part text).isSome

/-- Replaces the occurrences of `old` from left to right, `skip` characters of one being left to pass
over. -/
def replaceFrom (old new : List Char) : Nat → List Char → List Char
  | _, [] => []
  | skip + 1, _ :: rest => replaceFrom old new skip rest
  | 0, c :: rest =>
    if startsWith (c :: rest) old then new ++ replaceFrom old new (old.length - 1) rest
    else c :: replaceFrom old new 0 rest

/-- Replaces every occurrence of a non-empty text, from left to right. -/
def replaceAll (old new text : List Char) : List Char := replaceFrom old new 0 text

/-- How often a character occurs. -/
def count (c : Char) (text : List Char) : Nat := text.count c

end Coach.Text
