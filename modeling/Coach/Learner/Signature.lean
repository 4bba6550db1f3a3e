import Coach.Text.Pattern

/-!
# Signatures of mistakes

How a compiler reports that a symbol is missing. Every symbol has a pattern; a pattern matches a report
wherever in the text it stands, once or many times.

## Main definitions

* `Signature`, `signatures`
* `symbolsIn`: the symbols that a text reports as missing
-/

namespace Coach.Learner

open Coach.Text

/-- A symbol and the pattern of its reports. -/
structure Signature where
  symbol : String
  report : Pattern

/-- A report in either order: the quoted symbol before "expected", or the symbol or one of its names
behind "expected" or "missing". -/
def Signature.expected (symbol : String) (names : List String) : Signature :=
  let quotedSymbol := Pattern.text ("'" ++ symbol ++ "'")
  { symbol
    report := .alt
      (.all [quotedSymbol, .space, .textAnyCase "expected"])
      (.all [.alt (.textAnyCase "expected") (.textAnyCase "missing"), .space,
        .anyPattern (quotedSymbol :: names.map .textAnyCase)]) }

/-- A text that is not closed, or that is no statement. -/
def openText : Pattern :=
  .alt
    (.all [.anyPattern (["missing terminating", "expected", "unclosed"].map .textAnyCase), .space,
      .anyPattern (["string", "literal", "quote", "\""].map .textAnyCase)])
    (.textAnyCase "not a statement")

/-- The signatures of all symbols that are watched. -/
def signatures : List Signature :=
  [.expected ";" ["semicolon"],
    .expected "\x7d" ["brace", "curly"],
    .expected "\x7b" [],
    .expected ")" ["parenthesis"],
    .expected "(" [],
    { symbol := "\"", report := openText },
    .expected "[" ["bracket"],
    .expected "]" ["bracket"],
    { symbol := "#", report := .textAnyCase "preprocessor directive missing '#'" }]

/-- The symbols that a text reports as missing, each once. -/
def symbolsIn (signatures : List Signature) (text : String) : List String :=
  (signatures.filter fun s => s.report.occursIn text.toList).map (·.symbol)

end Coach.Learner
