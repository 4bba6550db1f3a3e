import Coach.Program.Machine
import Coach.Source.Block
import Coach.Source.Mask
import Coach.Text.Pattern

/-!
# The shape of a program

Checks on a whole source before it is run: which language it is in, whether it has the class and the
main function that a program needs, whether a print statement lacks its semicolon, whether its braces
close. What is found is reported in the words of a compiler.

## Main definitions

* `dialectOf`: the language of a source
* `ShapeError`, `ShapeError.message`: what is missing, and where
* `checkShape`: the first thing that is missing
* `mainBody?`: the body of the main function
-/

namespace Coach.Program

open Coach.Text Coach.Source

/-! ### Patterns -/

/-- A class declaration. -/
def classHeader : Pattern := .all [.boundary, .text "class", .space1, .word]

/-- The header of a Java main function, up to its closing parenthesis. -/
def javaMain : Pattern :=
  .all [.boundary,
    .alt (.all [.text "public", .space1, .text "static"]) (.all [.text "static", .space1, .text "public"]),
    .space1, .text "void", .space1, .text "main", .space, .char '(', .space,
    .optional (.seq (.text "final") .space1), .text "String", .space,
    .anyPattern [
      .all [.char '[', .space, .char ']', .space, .word],
      .all [.word, .space, .char '[', .space, .char ']'],
      .all [.text "...", .space, .word]],
    .space, .char ')']

/-- The header of a C main function, up to its closing parenthesis. -/
def cMain : Pattern :=
  .all [.boundary, .alt (.text "int") (.text "void"), .space1, .text "main", .space, .char '(',
    .star (.one (· != ')')), .char ')']

/-- A line that includes a header file. -/
def includeLine : Pattern :=
  .all [.atLineStart, .space, .char '#', .space, .text "include", .boundary]

/-- A line that is a Java print statement without its semicolon. -/
def openJavaPrint : Pattern :=
  .all [.space, .text "System", .space, .char '.', .space, .text "out", .space, .char '.', .space,
    .text "print", .optional (.alt (.text "ln") (.text "f")), .space, .char '(', .lineRest, .char ')',
    .space, .atLastLineEnd]

/-- A line that is a C print statement without its semicolon. -/
def openCPrint : Pattern :=
  .all [.space, .alt (.text "printf") (.text "puts"), .space, .char '(', .lineRest, .char ')', .space,
    .atLastLineEnd]

/-! ### Language -/

/-- C when a header is included or there is a C main function, unless there is a class. -/
def dialectOf (code : List Char) : Dialect :=
  let masked := mask code
  if classHeader.occursIn masked then .java
  else if includeLine.occursIn code || cMain.occursIn masked then .c
  else .java

/-- The header of the main function in a language. -/
def mainHeader : Dialect → Pattern
  | .java => javaMain
  | .c => cMain

/-! ### Checks -/

/-- What is wrong with the shape of a program. -/
inductive ShapeError where
  | noClass
  | noMain
  | undefinedMain
  | missingSemicolon (dialect : Dialect) (line : Nat)
  | unclosedBrace (dialect : Dialect) (line : Nat)
  deriving DecidableEq, Repr

/-- The name a compiler shows for a source. -/
def fileName : Dialect → String
  | .java => "Main.java"
  | .c => "main.c"

/-- The wording of a compiler or a launcher. -/
def ShapeError.message : ShapeError → String
  | .noClass =>
    "Error: Could not find or load main class. Ensure you have a 'public class Main'."
  | .noMain =>
    "Error: Main method not found in class. " ++
      "Please define 'public static void main(String[] args)'."
  | .undefinedMain => s!"{fileName .c}: error: undefined reference to 'main'"
  | .missingSemicolon .java line => s!"{fileName .java}:{line}: error: ';' expected"
  | .missingSemicolon .c line => s!"{fileName .c}:{line}: error: expected ';'"
  | .unclosedBrace .java line =>
    s!"{fileName .java}:{line}: error: reached end of file while parsing"
  | .unclosedBrace .c line =>
    s!"{fileName .c}:{line}: error: expected declaration or statement at end of input"

/-- The number of the first line that matches a pattern from its beginning, from one on. -/
def firstLine? (p : Pattern) : Nat → List (List Char) → Option Nat
  | _, [] => none
  | number, line :: rest =>
    if (p.match? line).isSome then some number else firstLine? p (number + 1) rest

/-- What lacks a header, if anything. -/
def checkHeaders (dialect : Dialect) (masked : List Char) : Option ShapeError :=
  match dialect with
  | .java =>
    if !classHeader.occursIn masked then some .noClass
    else if !javaMain.occursIn masked then some .noMain
    else none
  | .c => if !cMain.occursIn masked then some .undefinedMain else none

/-- The first print statement without a semicolon. -/
def checkSemicolons (dialect : Dialect) (masked : List Char) : Option ShapeError :=
  let p := match dialect with
    | .java => openJavaPrint
    | .c => openCPrint
  (firstLine? p 1 (splitOn '\n' masked)).map (.missingSemicolon dialect)

/-- Braces that do not close, reported at the last line. -/
def checkBraces (dialect : Dialect) (code masked : List Char) : Option ShapeError :=
  if masked.count '\x7d' < masked.count '\x7b' then
    some (.unclosedBrace dialect (code.count '\n' + 1))
  else none

/-- The first thing that is wrong with the shape of a program in a language. -/
def checkShape (code : List Char) (dialect : Dialect) : Option ShapeError :=
  let masked := mask code
  match checkHeaders dialect masked with
  | some e => some e
  | none => match checkSemicolons dialect masked with
    | some e => some e
    | none => checkBraces dialect code masked

/-! ### The main function -/

/-- The body of the main function, comments blanked: what stands between its braces. Of a body that
never closes the last character is left out. -/
def mainBody? (code : List Char) (dialect : Dialect) : Option (List Char) :=
  let masked := mask code
  ((mainHeader dialect).search? masked).bind fun m =>
    let gap := m.rest.takeWhile (· != '\x7b')
    if gap.length = m.rest.length then none
    else
      let start := m.before.length + m.taken.length + gap.length
      let block := (takeBlock 0 ((maskComments code).drop start)).1
      some (block.drop 1).dropLast

end Coach.Program
