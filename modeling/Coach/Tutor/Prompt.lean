import Coach.Execution.Result
import Coach.Json.Writer
import Coach.Model.Message
import Coach.Source.Document

/-!
# Prompts

The conversations that open a question to a model: an analysis of a run that failed, an audit of one
that did not, a simulated compilation, and a translation.

## Main definitions

* `explainMessages`: a failed or flagged run is analysed, any other is audited
* `simulateMessages`, `translateMessages`
-/

namespace Coach.Tutor

open Coach.Execution Coach.Finding Coach.Model Coach.Source Coach.Text

/-- Lines as one text. -/
def asLines (lines : List String) : String := "\n".intercalate lines

/-- The analysis of a run that failed or was flagged. -/
def failurePrompt (code output diagnostics : String) : String :=
  asLines [
    "You are a helpful Java programming tutor. Analyze the following Java code and compiler output.",
    "",
    "CODE:",
    code,
    "",
    "COMPILER/RUNTIME OUTPUT:",
    output,
    "",
    "LOGICAL ERRORS DETECTED:",
    diagnostics,
    "",
    "Provide a JSON response with the following structure:",
    "\x7b",
    "    \"summary\": \"Short summary of the issue(s)\",",
    "    \"detailed_explanation\": \"What went wrong and why\",",
    "    \"fix_summary\": \"One sentence on how to fix it\",",
    "    \"corrected_code\": \"The full corrected Java code\",",
    "    \"minimal_fix_patches\": [",
    "        \x7b\"line_start\": 1, \"line_end\": 1, \"replacement\": \"The replacement lines only\"\x7d",
    "    ],",
    "    \"root_cause_lines\": [1],",
    "    \"hints\": [\"hint\"],",
    "    \"confidence\": 0.9",
    "\x7d",
    "",
    "IMPORTANT:",
    "- Identify ALL issues (syntax, logical, runtime).",
    "- minimal_fix_patches must fix ALL identified issues.",
    "- Line numbers are 1-indexed and line_end is inclusive."]

/-- The audit of a run that went well. -/
def auditPrompt (className code output : String) : String :=
  asLines [
    "The code ran successfully (exit code 0). Verify its LOGIC.",
    "",
    "The class name is \"" ++ className ++ "\". The code must do what that name implies",
    "(a class named \"Largest\" must find the largest number, \"Prime\" must check primes correctly).",
    "",
    "CODE:",
    code,
    "",
    "OUTPUT:",
    output,
    "",
    "Check for semantic errors against the class name, wrong formulas or operator",
    "precedence, wrong conditions, unreachable code, loop range and termination errors.",
    "",
    "If the logic is correct, return \"minimal_fix_patches\": [] and \"summary\": " ++
      "\"Code works perfectly\".",
    "Otherwise provide the fix.",
    "",
    "Provide a JSON response:",
    "\x7b",
    "    \"summary\": \"Summary of the logical flaw\",",
    "    \"detailed_explanation\": \"Why the logic is wrong\",",
    "    \"fix_summary\": \"Correction\",",
    "    \"corrected_code\": \"Full corrected code\",",
    "    \"minimal_fix_patches\": [\x7b\"line_start\": 1, \"line_end\": 1, \"replacement\": " ++
      "\"string\"\x7d],",
    "    \"confidence\": 0.9",
    "\x7d"]

/-- The simulation of a compiler and of the program. -/
def simulatePrompt (code inputs categories : String) : String :=
  asLines [
    "You are a standard Java compiler (javac + java) runner.",
    "",
    "STEP 1: DETECT LANGUAGE",
    "Decide whether the code below is valid Java.",
    "If it is clearly C, Python, JavaScript or another language, stop and return:",
    "\x7b",
    "    \"output\": \"Detected [Language] code. This compiler only supports Java.\",",
    "    \"exitCode\": 1,",
    "    \"logicalErrors\": [],",
    "    \"isForeignLanguage\": true,",
    "    \"detectedLanguage\": \"[Language]\"",
    "\x7d",
    "",
    "STEP 2: COMPILE AND EXECUTE",
    "CODE:",
    code,
    "",
    inputs,
    "",
    "INSTRUCTIONS:",
    "1. Simulate javac. Report syntax errors exactly as javac would.",
    "2. If it compiles, simulate java strictly.",
    "3. Be careful with integer division.",
    "4. Capture standard output (System.out.print/println/printf).",
    "5. Detect logical errors such as null pointer exceptions or array index out of bounds.",
    "",
    "RETURN JSON:",
    "\x7b",
    "    \"output\": \"The exact stdout or compiler error message\",",
    "    \"exitCode\": 0,",
    "    \"logicalErrors\": [",
    "        \x7b",
    "            \"line\": 1,",
    "            \"message\": \"Description\",",
    "            \"severity\": \"warning\" or \"error\",",
    "            \"errorType\": \"" ++ categories ++ "\"",
    "        \x7d",
    "    ]",
    "\x7d"]

/-- The translation of a program. -/
def translatePrompt (language code : String) : String :=
  asLines [
    "Convert the following " ++ language ++ " code to valid, standard Java code.",
    "Use a 'public class Main' and 'public static void main'.",
    "Return ONLY the Java code. No markdown, no explanations.",
    "",
    "CODE:",
    code]

/-- A system prompt and a question. -/
def conversation (system question : String) : List Message :=
  [{ role := .system, content := system }, { role := .user, content := question }]

/-- A finding as a model gets to see it. -/
def findingJson (d : Diagnostic) : Json :=
  .object [("line", .int d.line), ("message", .string d.message),
    ("severity", .string d.severity.name), ("errorType", .string d.category.name)]

/-- The word behind the keyword for a class, as group 1. -/
def classNamePattern : Pattern := .all [.text "class", .space1, .group 1 .word]

/-- The name of the first class in a text. -/
def className (code : String) : String :=
  match classNamePattern.search? code.toList with
  | some m => String.ofList (m.group 1)
  | none => "Unknown"

/-- The conversation about a run. -/
def explainMessages (code : String) (result : RunResult) : List Message :=
  if result.exitCode ≠ 0 || !result.diagnostics.isEmpty then
    conversation "You are a Java programming expert. Always reply in JSON."
      (failurePrompt code result.output (Json.array (result.diagnostics.map findingJson)).line)
  else
    conversation
      ("You are a Senior Java Code Auditor. You verify if the code matches the " ++
        "Class Name intent. JSON only.")
      (auditPrompt (className code) code result.output)

/-- What a model is told about the input. -/
def inputNote (stdin : List String) : String :=
  if stdin.isEmpty then "No user inputs provided."
  else "User Inputs: " ++ (Json.array (stdin.map .string)).line

/-- The conversation of a simulated run. -/
def simulateMessages (code : String) (stdin : List String) : List Message :=
  conversation "You are a precise Java compiler simulator. JSON only."
    (simulatePrompt code (inputNote stdin) ("\" | \"".intercalate (Category.all.map Category.name)))

/-- The conversation about a translation. -/
def translateMessages (code language : String) : List Message :=
  conversation "You are a code translator. Output only Java code." (translatePrompt language code)

end Coach.Tutor
