import Coach.Text.Basic

/-!
# Words of a command line

A command line is a list of words. Some are options, some are the values that options ask for, and the
others are operands.

## Main definitions

* `Switch`, `Entry`: an option, and how it is written
* `Word`, `readWord`: a word by the options that may stand in its place
* `Item`, `itemsOf`: the options with their values, and the operands
* `Gathered`, `gather`: what a command line says, unless it stops early

## Design notes

A long option may be shortened as long as it stays the only one that fits. Short options without
values may share a word, and the last option of a word may have its value in the same word. Behind
a word of two hyphens all words are operands, and so are negative numbers and words with a blank unless
they name an option. Such a divider has to stand next to the first operand.

Items come in order, so that whoever reads them meets the first fault before anything behind it. Only
a short form of several options is found out before.
-/

namespace Coach.Command

open Coach.Text

/-- An option. -/
inductive Switch where
  | help
  | version
  | config
  | debug
  | logForm
  | forgetful
  | metrics
  | stdin
  | explain
  | fix
  | language
  | symbol
  | everything
  | clear
  deriving DecidableEq, Repr

/-- How an option is written, whether it takes a value, and which values it takes if not all. -/
structure Entry where
  switch : Switch
  short : Option Char := none
  long : String
  takesValue : Bool := false
  choices : List String := []
  deriving Repr

/-- A word. -/
inductive Word where
  | operand
  | divider
  /-- Options of one word; the last one may still want a value. -/
  | switches (given : List (Entry × String)) (last : Option Entry)
  /-- Options of one word with one behind them that is not known. -/
  | partly (given : List (Entry × String))
  /-- An option that is not known. -/
  | stranger
  /-- A short form of several options. -/
  | ambiguous
  /-- An option that is written in a way that cannot be meant. -/
  | misuse
  deriving Repr

/-- Why a command line is not carried out. -/
inductive Stop where
  | help
  | version
  | misuse
  deriving DecidableEq, Repr

/-! ### Reading a word -/

/-- The entry of a short option. -/
def shortEntry? (table : List Entry) (c : Char) : Option Entry := table.find? (·.short = some c)

/-- Short options behind one hyphen, of which the first one is known. The text behind an option is its
value if it takes one, and more options otherwise. -/
def readCluster (table : List Entry) (given : List (Entry × String)) (e : Entry) :
    List Char → Word
  | [] => if e.takesValue then .switches given (some e) else .switches (given ++ [(e, "")]) none
  | '=' :: tail =>
    if e.takesValue then .switches (given ++ [(e, String.ofList tail)]) none else .misuse
  | c :: tail =>
    if e.takesValue then .switches (given ++ [(e, String.ofList (c :: tail))]) none
    else match shortEntry? table c with
      | some next => readCluster table (given ++ [(e, "")]) next tail
      | none => .partly (given ++ [(e, "")])

/-- The entries that a long option may mean: the one of that very name, or all that begin so. -/
def longEntries (table : List Entry) (name : List Char) : List Entry :=
  match table.find? (·.long.toList = name) with
  | some e => [e]
  | none => table.filter fun e => startsWith e.long.toList name

/-- The text before the first equals sign, and the text behind it if there is one. -/
def splitValue (text : List Char) : List Char × Option (List Char) :=
  match breakOn? ['='] text with
  | some (name, value) => (name, some value)
  | none => (text, none)

/-- Whether a text is a negative number: digits, with a point before the last of them or without. A
newline at its end does not count. -/
def isNegativeNumber : List Char → Bool
  | '-' :: text =>
    let text := if text.getLast? = some '\n' then text.dropLast else text
    match text.dropWhile isDecimal with
    | '.' :: digits => !digits.isEmpty && digits.all isDecimal
    | rest => rest.isEmpty && !text.isEmpty
  | _ => false

/-- A word that begins with a hyphen and is no known option. -/
def readUnknown (text : List Char) : Word :=
  if isNegativeNumber text || text.contains ' ' then .operand else .stranger

/-- A word as it stands before the divider. -/
def readWord (table : List Entry) (text : List Char) : Word :=
  match text with
  | ['-', '-'] => .divider
  | '-' :: '-' :: long =>
    let (name, value) := splitValue long
    match longEntries table name, value with
    | [], _ => readUnknown text
    | [e], none => if e.takesValue then .switches [] (some e) else .switches [(e, "")] none
    | [e], some v => if e.takesValue then .switches [(e, String.ofList v)] none else .misuse
    | _, _ => .ambiguous
  | '-' :: c :: tail => match shortEntry? table c with
    | some e => readCluster table [] e tail
    | none => readUnknown text
  | _ => .operand

/-- The words with their texts. Behind the divider there are operands only. -/
def readWords (table : List Entry) : List String → List (String × Word)
  | [] => []
  | text :: rest => match readWord table text.toList with
    | .divider => (text, .divider) :: rest.map fun text => (text, .operand)
    | word => (text, word) :: readWords table rest

/-! ### Items -/

/-- What a command line says, one item at a time. -/
inductive Item where
  | switch (switch : Switch) (value : String)
  /-- An operand, with the words behind it. -/
  | operand (text : String) (rest : List String)
  | divider
  | stranger
  | misuse
  deriving Repr

/-- An option with its value, which must be one of its choices. -/
def Entry.item (e : Entry) (value : String) : Item :=
  if e.choices.isEmpty || e.choices.contains value then .switch e.switch value else .misuse

/-- The items of options with their values. -/
def givenItems (given : List (Entry × String)) : List Item := given.map fun (e, v) => e.item v

/-- The items of words. An option that wants a value takes the operand behind it, and a divider right
behind an operand says nothing. -/
def itemsOf : List (String × Word) → List Item
  | [] => []
  | (_, .switches given (some e)) :: (value, .operand) :: rest =>
    givenItems given ++ e.item value :: itemsOf rest
  | (_, .switches _ (some _)) :: _ => [.misuse]
  | (_, .switches given none) :: rest => givenItems given ++ itemsOf rest
  | (_, .partly given) :: rest => givenItems given ++ .stranger :: itemsOf rest
  | (text, .operand) :: (d, .divider) :: rest =>
    .operand text (d :: rest.map (·.1)) :: itemsOf rest
  | (text, .operand) :: rest => .operand text (rest.map (·.1)) :: itemsOf rest
  | (_, .divider) :: rest => .divider :: itemsOf rest
  | (_, .stranger) :: rest => .stranger :: itemsOf rest
  | (_, .ambiguous) :: _ => [.misuse]
  | (_, .misuse) :: _ => [.misuse]

/-- Whether a word is a short form of several options. -/
def Word.isAmbiguous : Word → Bool
  | .ambiguous => true
  | _ => false

/-- The items of a command line. A short form of several options spoils all of them. -/
def itemsIn (table : List Entry) (words : List String) : List Item :=
  let words := readWords table words
  if words.any (·.2.isAmbiguous) then [.misuse] else itemsOf words

/-- The items before the first operand, and that operand with the words behind it. -/
def untilOperand : List Item → List Item × Option (String × List String)
  | [] => ([], none)
  | .operand text rest :: _ => ([], some (text, rest))
  | item :: items => let (before, found) := untilOperand items; (item :: before, found)

/-! ### What items say together -/

/-- What a command line says: options and operands, whether there was a word that has no place, and
whether there was a divider without an operand yet. -/
structure Gathered where
  switches : List (Switch × String) := []
  operands : List String := []
  hasStranger : Bool := false
  isDivided : Bool := false
  deriving Repr

namespace Gathered

/-- Whether an option is there. -/
def has (g : Gathered) (s : Switch) : Bool := g.switches.any (·.1 = s)

/-- The values of an option, in order. -/
def values (g : Gathered) (s : Switch) : List String :=
  (g.switches.filter (·.1 = s)).map (·.2)

/-- The value of an option that was given last. -/
def value? (g : Gathered) (s : Switch) : Option String := (g.values s).getLast?

/-- Whether an option excludes one that is there already. -/
def excludes (g : Gathered) (s : Switch) : Bool :=
  (s = .symbol && g.has .everything) || (s = .everything && g.has .symbol)

end Gathered

/-- Gathers items, and stops where one asks for help or for the version or cannot be meant. -/
def gather (g : Gathered) : List Item → Except Stop Gathered
  | [] => .ok g
  | .switch .help _ :: _ => .error .help
  | .switch .version _ :: _ => .error .version
  | .switch s value :: rest =>
    if g.excludes s then .error .misuse
    else gather { g with switches := g.switches ++ [(s, value)] } rest
  | .operand text _ :: rest =>
    gather { g with operands := g.operands ++ [text], isDivided := false } rest
  | .divider :: rest =>
    gather (if g.operands.isEmpty then { g with isDivided := true }
      else { g with hasStranger := true }) rest
  | .stranger :: rest => gather { g with hasStranger := true } rest
  | .misuse :: _ => .error .misuse

end Coach.Command
