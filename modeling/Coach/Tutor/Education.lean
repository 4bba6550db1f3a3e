import Coach.Finding.Diagnostic

/-!
# Teaching material

What is taught about each category of error.

## Main definitions

* `Lesson`: the material for one category
* `lesson`
-/

namespace Coach.Tutor

open Coach.Finding

/-- Teaching material for one category. -/
structure Lesson where
  title : String
  whatsWrong : String
  whyItMatters : String
  concept : String
  prevention : String
  relatedTopics : List String
  deriving DecidableEq, Repr

/-- The material for a category. -/
def lesson : Category → Lesson
  | .integerOverflow =>
    { title := "Integer Overflow Error"
      whatsWrong :=
        "A calculation produced a value larger than the variable type can hold, so it " ++
          "wrapped around to a wrong, possibly negative, number."
      whyItMatters :=
        "Results are silently wrong. Nothing crashes to warn you."
      concept :=
        "Fixed-Width Integer Limits"
      prevention :=
        "Use 'long' (with an L suffix on literals) or check bounds before multiplying."
      relatedTopics := ["Binary Representation", "Two's Complement", "Data Types"] }
  | .nullPointer =>
    { title := "Null Pointer Dereference"
      whatsWrong :=
        "A method or field was used on a reference that is still null."
      whyItMatters :=
        "The program stops with a NullPointerException at that line."
      concept :=
        "References and Object Initialization"
      prevention :=
        "Assign a real object before use, or check 'if (x != null)' first."
      relatedTopics := ["Objects", "References", "Defensive Checks"] }
  | .arrayIndexOutOfBounds =>
    { title := "Array Index Out of Bounds"
      whatsWrong :=
        "An array is accessed outside its allocated size."
      whyItMatters :=
        "Java throws ArrayIndexOutOfBoundsException. In C the same bug silently corrupts " ++
          "neighbouring memory."
      concept :=
        "Array Boundaries"
      prevention :=
        "Valid indexes run from 0 to length - 1. Loop with 'i < arr.length', not '<='."
      relatedTopics := ["Arrays", "0-based Indexing", "Buffer Overflow"] }
  | .infiniteRecursion =>
    { title := "Infinite Loop or Recursion"
      whatsWrong :=
        "A loop never reaches its exit condition, or a recursive method calls itself " ++
          "without ever hitting a base case."
      whyItMatters :=
        "The program hangs, or fills the call stack and dies with StackOverflowError."
      concept :=
        "Termination and Base Cases"
      prevention :=
        "Make sure every loop changes its condition and every recursion shrinks toward a " ++
          "base case."
      relatedTopics := ["Recursion", "Loop Invariants", "Stack Frames"] }
  | .offByOne =>
    { title := "Off-by-One Error"
      whatsWrong :=
        "A loop runs one time too many or too few, e.g. iterating 0 to N inclusive over " ++
          "an array of size N."
      whyItMatters :=
        "You either touch an element that does not exist or miss the last one."
      concept :=
        "0-based Indexing"
      prevention :=
        "The standard loop is 'for (int i = 0; i < n; i++)'."
      relatedTopics := ["Loop Invariants", "Arrays"] }
  | .divisionByZero =>
    { title := "Division by Zero"
      whatsWrong :=
        "A number is divided by zero, which is undefined."
      whyItMatters :=
        "Integer division by zero throws ArithmeticException and stops the program."
      concept :=
        "Arithmetic Exceptions"
      prevention :=
        "Check 'if (divisor != 0)' before dividing."
      relatedTopics := ["Arithmetic Operations"] }
  | .stringEquality =>
    { title := "String Compared with =="
      whatsWrong :=
        "'==' checks whether two references point to the same object, not whether the " ++
          "text is equal."
      whyItMatters :=
        "Equal-looking strings can compare as different, so branches go the wrong way."
      concept :=
        "Reference vs Value Equality"
      prevention :=
        "Compare text with 'a.equals(b)'."
      relatedTopics := ["Strings", "Object Equality"] }
  | .otherLogical =>
    { title := "Logical Warning"
      whatsWrong :=
        "The code compiles but does something that is likely incorrect."
      whyItMatters :=
        "May lead to unexpected behavior or wrong results."
      concept :=
        "Program Logic"
      prevention :=
        "Trace the logic by hand with a small input."
      relatedTopics := ["Debugging", "Code Review"] }

end Coach.Tutor
