import Coach.Number.Decimal
import Coach.Text.Pattern

/-!
# Patterns read from text

A small notation for patterns that are added by hand: a character stands for itself, `[...]` is a
class of characters and ranges, and a count in braces repeats what stands before it.

## Main definitions

* `PatternFault`: why a text is not a pattern
* `Pattern.ofText`: reads a pattern
-/

namespace Coach.Text

/-- Why a text is not a pattern, with the position of the bracket that is not closed. -/
inductive PatternFault where
  | openGroup (position : Nat)
  | openClass (position : Nat)
  deriving DecidableEq, Repr

/-- The wording of a fault. -/
def PatternFault.message : PatternFault → String
  | .openGroup position => s!"missing ), unterminated subpattern at position {position}"
  | .openClass position => s!"unterminated character set at position {position}"

/-- The ranges of a class up to its closing bracket, with what follows it. -/
def classRanges : List Char → Option (List (Char × Char) × List Char)
  | [] => none
  | ']' :: rest => some ([], rest)
  | first :: '-' :: last :: rest =>
    if last = ']' then some ([(first, first), ('-', '-')], rest)
    else (classRanges rest).map fun (ranges, rest) => ((first, last) :: ranges, rest)
  | c :: rest => (classRanges rest).map fun (ranges, rest) => ((c, c) :: ranges, rest)

/-- Whether a character is in one of the ranges. -/
def inClass (ranges : List (Char × Char)) (c : Char) : Bool :=
  ranges.any fun (first, last) => first ≤ c && c ≤ last

/-- The characters of a range. -/
def rangeLetters (first last : Char) : List Char :=
  (List.range (last.toNat + 1 - first.toNat)).map fun i => Char.ofNat (first.toNat + i)

/-- Whether a character is a letter of one of the ranges, whatever its case. -/
def inClassAnyCase (ranges : List (Char × Char)) (c : Char) : Bool :=
  ranges.any fun (first, last) => (rangeLetters first last).any fun letter => sameLetter letter.toLower c

/-- A count in braces and what follows it. -/
def countText? : List Char → Option (Nat × List Char)
  | '\x7b' :: rest =>
    match rest.dropWhile Char.isDigit with
    | '\x7d' :: tail =>
      let digits := rest.takeWhile Char.isDigit
      if digits.isEmpty then none else some (ofNatDigits digits, tail)
    | _ => none
  | _ => none

/-- Reads patterns one after another, the first at a position; `bound` is at least the number of
characters. -/
def patternFrom (anyCase : Bool) (position : Nat) : Nat → List Char → Except PatternFault Pattern
  | 0, _ => .ok .empty
  | _, [] => .ok .empty
  | bound + 1, c :: rest => do
    let (item, tail) ←
      if c = '(' then .error (.openGroup position)
      else if c = '[' then
        match classRanges rest with
        | none => .error (.openClass position)
        | some (ranges, tail) =>
          .ok (Pattern.one (if anyCase then inClassAnyCase ranges else inClass ranges), tail)
      else .ok (Pattern.one (if anyCase then sameLetter c.toLower else (· == c)), rest)
    let (times, tail) := (countText? tail).getD (1, tail)
    let others ← patternFrom anyCase (position + (rest.length + 1 - tail.length)) bound tail
    return .seq (Pattern.times times item) others

/-- Reads a pattern. -/
def Pattern.ofText (source : String) (anyCase : Bool) : Except PatternFault Pattern :=
  patternFrom anyCase 0 source.toList.length source.toList

end Coach.Text
