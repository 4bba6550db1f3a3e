import Coach.Program.Value
import Coach.Source.Block
import Coach.Text.Pattern

/-!
# Statements

What a plain statement is, judged by the shape of its text. The kinds are tried in a fixed order, and
what fits none is an expression.

## Main definitions

* `Statement`
* `Statement.ofText`: the kind of a statement
* `Declarator.ofText?`: a name with its initial value
* `scanConversions`: the conversions in a format of `scanf`
-/

namespace Coach.Program

open Coach.Text Coach.Source

/-- How a print statement ends its text. -/
inductive PrintKind where
  | line
  | plain
  | formatted
  deriving DecidableEq, Repr

/-- A plain statement. Operands are source text still. -/
inductive Statement where
  | control
  | print (kind : PrintKind) (args : List Char)
  | puts (arg : List Char)
  | scanf (format targets : List Char)
  | scanner (name : String)
  | leave (value : List Char)
  | exit (code : List Char)
  | declaration (kind : Kind) (declarators : List (List Char))
  | step (name : String) (up : Bool)
  | assignment (name : String) (op : Option Value.Operator) (value : List Char)
  | expression (text : List Char)

namespace Statement

/-! ### Patterns -/

/-- A name. -/
def identifier : Pattern :=
  .seq (.one fun c => (c.toNat < 0x80 && c.isAlpha) || c == '_' || c == '$')
    (.star (.one fun c => isWord c || c == '$'))

/-- Any characters, as many as possible. -/
def anything : Pattern := .star (.one fun _ => true)

/-- A word that begins a control statement. -/
def controlWord : Pattern :=
  .seq (.anyPattern (["if", "else", "for", "while", "do", "switch", "try", "catch", "finally",
    "case", "default", "break", "continue", "synchronized", "throw", "goto"].map .text)) .boundary

/-- Words with dots between them, and an opening parenthesis. -/
def dotted (words : List Pattern) : Pattern :=
  .all ((words.intersperse (.all [.space, .char '.', .space])) ++ [.space, .char '('])

/-- The operand between the parentheses of a call that ends the statement, as group 1. -/
def callRest : Pattern := .all [.group 1 anything, .char ')', .atLastLineEnd]

/-- `System.out.println(…)` and its kin; the method is group 2. -/
def outputCall : Pattern :=
  .seq (dotted [.text "System", .text "out",
    .group 2 (.anyPattern [.text "println", .text "print", .text "printf", .text "format"])]) callRest

/-- `printf(…)`. -/
def printfCall : Pattern := .seq (dotted [.text "printf"]) callRest

/-- `puts(…)`. -/
def putsCall : Pattern := .seq (dotted [.text "puts"]) callRest

/-- `System.exit(…)`. -/
def exitCall : Pattern := .seq (dotted [.text "System", .text "exit"]) callRest

/-- `scanf("…", &x, …)`; the format is group 1 and the targets are group 2. -/
def scanfCall : Pattern :=
  .all [dotted [.text "scanf"], .space,
    .group 1 (.all [.char '"',
      .star (.alt (.noneOf "\"\\") (.seq (.char '\\') (.one (· != '\n')))), .char '"']),
    .space,
    .group 2 (.star (.all [.char ',', .space, .optional (.char '&'), .space, .word, .space])),
    .char ')', .atLastLineEnd]

/-- `Scanner sc = new Scanner(System.in)`; the name is group 1. -/
def scannerDeclaration : Pattern :=
  let package := Pattern.optional (.text "java.util.")
  .all [package, .text "Scanner", .space1, .group 1 .word, .space, .char '=', .space, .text "new",
    .space1, package, .text "Scanner", .space, .char '(', .space, .text "System", .space, .char '.',
    .space, .text "in", .space, .char ')', .atLastLineEnd]

/-- `return` with its value as group 1. -/
def returnStatement : Pattern :=
  .all [.text "return", .boundary, .space, .group 1 anything]

/-- A declared type. -/
def declaredType : Pattern :=
  .seq (.optional (.alt (.seq (.text "unsigned") .space1) (.seq (.text "signed") .space1)))
    (.anyPattern [
      .all [.text "long", .space1, .text "long", .optional (.seq .space1 (.text "int"))],
      .all [.text "long", .space1, .text "int"],
      .all [.text "short", .space1, .text "int"],
      .text "int", .text "long", .text "short", .text "byte", .text "double", .text "float",
      .text "char", .text "boolean", .text "bool", .text "String", .text "unsigned"])

/-- A declaration; the type is group 1 and what follows it is group 2. -/
def declarationStatement : Pattern :=
  .all [
    .star (.seq (.anyPattern [.text "final", .text "const", .text "static"]) .space1),
    .group 1 declaredType, .space1, .group 2 (.plus (.one fun _ => true))]

/-- `++x` or `--x`; the sign is group 1 and the name is group 2. -/
def stepBefore : Pattern :=
  .all [.group 1 (.alt (.text "++") (.text "--")), .space, .group 2 .word, .atLastLineEnd]

/-- `x++` or `x--`. -/
def stepAfter : Pattern :=
  .all [.group 2 .word, .space, .group 1 (.alt (.text "++") (.text "--")), .atLastLineEnd]

/-- An assignment; name, sign and value are groups 1 to 3. -/
def assignmentStatement : Pattern :=
  .all [.group 1 identifier, .space, .group 2 (.seq (.optional (.anyOf "-+*/%")) (.char '=')),
    .notBefore (· == '='), .space, .group 3 (.plus (.one fun _ => true))]

/-! ### Kinds -/

/-- The type that the words of a declared type name. -/
def kindOfWords (words : List String) : Kind :=
  if words.contains "String" then .string
  else if words.contains "long" then .long
  else if words.contains "short" then .short
  else if words.contains "bool" || words.contains "boolean" then .boolean
  else if words.contains "byte" then .byte
  else if words.contains "double" then .double
  else if words.contains "float" then .float
  else if words.contains "char" then .char
  else .int

/-- The operator of a compound assignment. -/
def compoundOperator? (sign : List Char) : Option Value.Operator :=
  match sign with
  | '+' :: _ => some .add
  | '-' :: _ => some .sub
  | '*' :: _ => some .mul
  | '/' :: _ => some .div
  | '%' :: _ => some .mod
  | _ => none

/-- Whether a print method ends the line, leaves it open, or formats. -/
def printKind (method : List Char) : PrintKind :=
  if method = "println".toList then .line
  else if method = "print".toList then .plain
  else .formatted

/-- The first answer of a list of attempts. -/
def firstOf {α : Type} : List (Unit → Option α) → Option α
  | [] => none
  | attempt :: rest => match attempt () with
    | some answer => some answer
    | none => firstOf rest

/-- The kind of a statement. -/
def ofText (text : List Char) : Statement :=
  let on (p : Pattern) (f : Match → Statement) : Unit → Option Statement :=
    fun _ => (p.match? text).map f
  (firstOf [
    on controlWord fun _ => .control,
    on outputCall fun m => .print (printKind (m.group 2)) (m.group 1),
    on printfCall fun m => .print .formatted (m.group 1),
    on putsCall fun m => .puts (m.group 1),
    on scanfCall fun m => .scanf (m.group 1) (m.group 2),
    on scannerDeclaration fun m => .scanner (String.ofList (m.group 1)),
    on returnStatement fun m => .leave (strip (m.group 1)),
    on exitCall fun m => .exit (m.group 1),
    on declarationStatement fun m =>
      .declaration (kindOfWords ((words (m.group 1)).map String.ofList))
        (splitTopLevel (m.group 2)),
    on (.alt stepBefore stepAfter) fun m =>
      .step (String.ofList (m.group 2)) (m.group 1 == ['+', '+']),
    on assignmentStatement fun m =>
      .assignment (String.ofList (m.group 1)) (compoundOperator? (m.group 2)) (m.group 3)]).getD
    (.expression text)

end Statement

/-! ### Parts of statements -/

/-- A declared name with its initial value. -/
structure Declarator where
  name : String
  value : Option (List Char)

namespace Declarator

/-- A name, and possibly an equals sign with a value. -/
def pattern : Pattern :=
  .all [.group 1 Statement.identifier, .space,
    .optional (.all [.char '=', .space, .group 2 (.plus (.one fun _ => true))]), .atLastLineEnd]

/-- The declarator of a text. -/
def ofText? (text : List Char) : Option Declarator :=
  (pattern.match? text).map fun m =>
    { name := String.ofList (m.group 1), value := m.group? 2 }

end Declarator

/-- What a conversion of `scanf` reads. -/
inductive ScanKind where
  | integer
  | real
  | character
  | word
  deriving DecidableEq, Repr

/-- A conversion in a format of `scanf`; its letter is group 1. -/
def scanConversion : Pattern :=
  .all [.char '%', .optional .digits,
    .optional (.anyPattern [.text "hh", .text "h", .text "ll", .text "l", .text "L"]),
    .group 1 (.anyOf "diufFeEgGsc")]

/-- The conversions in a format of `scanf`. -/
def scanConversions (format : List Char) : List ScanKind :=
  (scanConversion.searchAll format).map fun m =>
    match m.group 1 with
    | ['s'] => .word
    | ['c'] => .character
    | ['d'] => .integer
    | ['i'] => .integer
    | ['u'] => .integer
    | _ => .real

/-- The names that `scanf` stores to. -/
def scanTargets (text : List Char) : List String :=
  ((splitOn ',' text).filter fun t => !(strip t).isEmpty).map fun t =>
    String.ofList (strip ((strip t).dropWhile (· == '&')))

end Coach.Program
