import Coach.Text.Basic
import Coach.Text.Case

/-!
# Patterns over text

A small language of patterns with ordered choice, greedy repetition, groups and tests of the
surroundings, and its matcher. A pattern is data; `Pattern.run` tries the ways in which it matches
from a cursor on, in order of preference, and hands each to a continuation until one is accepted.

## Main definitions

* `Pattern`, and the derived forms `text`, `orElse`, `optional`, `many`, `many1`, `times`
* `Cursor`: a place in a text with its surroundings and the groups bound so far
* `Pattern.matchAt?`, `Pattern.search?`, `Pattern.searchAll`: one match here, the first, all
* `Match`: what a match took, what stands before and after it, and its groups

## Design notes

The matcher is structural in the pattern, and a repetition is bounded by the text that is left, so it
is total without fuel in sight. A test sees the character before the cursor and the whole rest, which
covers word boundaries, line ends and looking one character back or any number ahead.
-/

namespace Coach.Text

/-- A pattern. -/
inductive Pattern where
  /-- Matches the empty text. -/
  | empty
  /-- Matches one character of a class. -/
  | one (p : Char → Bool)
  /-- Matches the one pattern and then the other. -/
  | seq (first second : Pattern)
  /-- Matches the one pattern or, failing that, the other. -/
  | alt (first second : Pattern)
  /-- Matches a pattern any number of times, as often as possible. -/
  | star (body : Pattern)
  /-- Binds what a pattern matches to a number. -/
  | group (number : Nat) (body : Pattern)
  /-- Matches the text that is bound to a number. -/
  | again (number : Nat)
  /-- Matches the empty text where a test of the character before and of the rest holds. -/
  | test (holds : Option Char → List Char → Bool)

/-- The binding of a group, as the text from its beginning on and the text behind its end. -/
structure Binding where
  number : Nat
  start : List Char
  stop : List Char

/-- The text that a group is bound to. -/
def Binding.text (b : Binding) : List Char := b.start.take (b.start.length - b.stop.length)

/-- A place in a text: the character before it, the rest, and the groups bound so far, the last
bound first. -/
structure Cursor where
  last : Option Char
  rest : List Char
  groups : List Binding := []

namespace Cursor

/-- The text bound to a group. -/
def group? (c : Cursor) (number : Nat) : Option (List Char) :=
  (c.groups.find? (·.number == number)).map (·.text)

/-- Moves over `n` characters, or to the end. -/
def advance : Nat → Cursor → Cursor
  | 0, c => c
  | n + 1, c => match c.rest with
    | [] => c
    | x :: rest => advance n { c with last := some x, rest }

end Cursor

namespace Pattern

variable {α : Type}

/-- Tries a step as often as possible, at most as often as `bound` is long. -/
def repeatStep (step : (Cursor → Option α) → Cursor → Option α) (k : Cursor → Option α) :
    List Char → Cursor → Option α
  | [], c => k c
  | _ :: bound, c => match step (repeatStep step k bound) c with
    | some answer => some answer
    | none => k c

/-- Tries the ways in which the pattern matches at the cursor, and answers what the continuation
makes of the first that it accepts. -/
def run : Pattern → (Cursor → Option α) → Cursor → Option α
  | .empty, k, c => k c
  | .one p, k, c => match c.rest with
    | [] => none
    | x :: rest => if p x then k { c with last := some x, rest } else none
  | .seq first second, k, c => first.run (fun c' => second.run k c') c
  | .alt first second, k, c => match first.run k c with
    | some answer => some answer
    | none => second.run k c
  | .star body, k, c => repeatStep (fun k' c' => body.run k' c') k c.rest c
  | .group number body, k, c =>
    body.run (fun c' =>
      k { c' with groups := { number, start := c.rest, stop := c'.rest } :: c'.groups }) c
  | .again number, k, c => match c.group? number with
    | none => none
    | some bound => match dropStart? bound c.rest with
      | none => none
      | some _ => k (c.advance bound.length)
  | .test holds, k, c => if holds c.last c.rest then k c else none

/-! ### Derived forms -/

/-- One given character. -/
def char (c : Char) : Pattern := .one (· == c)

/-- One of some characters. -/
def anyOf (chars : String) : Pattern := .one fun c => chars.toList.contains c

/-- One character that is none of some. -/
def noneOf (chars : String) : Pattern := .one fun c => !chars.toList.contains c

/-- A given list of characters. -/
def chars : List Char → Pattern
  | [] => .empty
  | c :: rest => .seq (char c) (chars rest)

/-- A given text. -/
def text (s : String) : Pattern := chars s.toList

/-- A given text up to case. The text is to be in lower case. -/
def textAnyCase (s : String) : Pattern :=
  s.toList.foldr (fun c p => .seq (.one (if c.isAlpha then sameLetter c else (· == c))) p) .empty

/-- One after another. -/
def all : List Pattern → Pattern
  | [] => .empty
  | [p] => p
  | p :: next :: ps => .seq p (all (next :: ps))

/-- The first that matches. -/
def anyPattern : List Pattern → Pattern
  | [] => .test fun _ _ => false
  | [p] => p
  | p :: next :: ps => .alt p (anyPattern (next :: ps))

/-- A pattern, or else nothing. -/
def optional (p : Pattern) : Pattern := .alt p .empty

/-- At least once. -/
def plus (p : Pattern) : Pattern := .seq p (.star p)

/-- A given number of times. -/
def times : Nat → Pattern → Pattern
  | 0, _ => .empty
  | n + 1, p => .seq p (times n p)

/-- At least a given number of times. -/
def atLeast (n : Nat) (p : Pattern) : Pattern := .seq (times n p) (.star p)

/-- At most a given number of times, as often as possible. -/
def upTo : Nat → Pattern → Pattern
  | 0, _ => .empty
  | n + 1, p => optional (.seq p (upTo n p))

/-! ### Common classes and tests -/

/-- White space, possibly none. -/
def space : Pattern := .star (.one isSpace)

/-- White space, at least one character. -/
def space1 : Pattern := plus (.one isSpace)

/-- A run of word characters. -/
def word : Pattern := plus (.one isWord)

/-- A run of decimal digits. -/
def digits : Pattern := plus (.one isDecimal)

/-- Any characters of one line. -/
def lineRest : Pattern := .star (.one (· != '\n'))

/-- Between a word character and another or an end. -/
def boundary : Pattern := .test fun last rest =>
  (last.elim false isWord) != (rest.head?.elim false isWord)

/-- Where the next character, if there is one, is not of a class. -/
def notBefore (p : Char → Bool) : Pattern := .test fun _ rest => !(rest.head?.elim false p)

/-- Where the previous character, if there is one, is not of a class. -/
def notAfter (p : Char → Bool) : Pattern := .test fun last _ => !(last.elim false p)

/-- At the end of the text. -/
def atEnd : Pattern := .test fun _ rest => rest.isEmpty

/-- At the end of the text or before a newline that ends it. -/
def atLastLineEnd : Pattern := .test fun _ rest => rest.isEmpty || rest == ['\n']

/-- At the end of a line. -/
def atLineEnd : Pattern := .test fun _ rest => rest.isEmpty || rest.head? == some '\n'

/-- At the beginning of a line. -/
def atLineStart : Pattern := .test fun last _ => last.isNone || last == some '\n'

end Pattern

/-! ### Matches -/

/-- A match: what it took, what stands before it (from the point at which the search began) and after
it, and its groups. -/
structure Match where
  before : List Char
  taken : List Char
  after : Cursor

namespace Match

/-- The text of a group that took part in the match. -/
def group? (m : Match) (number : Nat) : Option (List Char) := m.after.group? number

/-- The text of a group, empty when it took no part. -/
def group (m : Match) (number : Nat) : List Char := (m.group? number).getD []

/-- What follows the match. -/
def rest (m : Match) : List Char := m.after.rest

end Match

namespace Pattern

/-- The match at a cursor that the pattern prefers. -/
def matchAt? (p : Pattern) (c : Cursor) : Option Match :=
  (p.run some c).map fun after =>
    { before := [], taken := c.rest.take (c.rest.length - after.rest.length), after }

/-- The match at the beginning of a text. -/
def match? (p : Pattern) (text : List Char) : Option Match := p.matchAt? { last := none, rest := text }

/-- The match of a whole text. -/
def fullMatch? (p : Pattern) (text : List Char) : Option Match := (Pattern.seq p atEnd).match? text

/-- The first match in the text that follows a character. -/
def searchFrom? (p : Pattern) (last : Option Char) : List Char → Option Match
  | [] => p.matchAt? { last, rest := [] }
  | x :: rest =>
    match p.matchAt? { last, rest := x :: rest } with
    | some m => some m
    | none => (p.searchFrom? (some x) rest).map fun m => { m with before := x :: m.before }

/-- The first match in a text. -/
def search? (p : Pattern) (text : List Char) : Option Match := p.searchFrom? none text

/-- Whether the pattern matches somewhere in a text. -/
def occursIn (p : Pattern) (text : List Char) : Bool := (p.search? text).isSome

/-- The matches after a cursor that do not overlap, at most as many as `bound` is long and one. After
an empty match the search moves on by one character. -/
def searchAllFrom (p : Pattern) : List Char → Option Char → List Char → List Match
  | bound, last, text =>
    match p.searchFrom? last text with
    | none => []
    | some m =>
      match bound with
      | [] => [m]
      | _ :: bound =>
        if m.taken.isEmpty then
          match m.after.rest with
          | [] => [m]
          | x :: rest =>
            m :: match searchAllFrom p bound (some x) rest with
              | [] => []
              | next :: more => { next with before := x :: next.before } :: more
        else m :: searchAllFrom p bound m.after.last m.after.rest

/-- The matches in a text from left to right; the `before` of each reaches back to the end of the one
before it. -/
def searchAll (p : Pattern) (text : List Char) : List Match := p.searchAllFrom text none text

/-- Replaces every match by what a function makes of it. -/
def replace (p : Pattern) (f : Match → List Char) (text : List Char) : List Char :=
  match (p.searchAll text).getLast? with
  | none => text
  | some final => (p.searchAll text).flatMap (fun m => m.before ++ f m) ++ final.rest

/-- Replaces every match from left to right, with a state that is handed on and may fail. -/
def replaceM {m : Type → Type} [Monad m] (p : Pattern) (f : Match → m (List Char))
    (text : List Char) : m (List Char) := do
  let found := p.searchAll text
  let pieces ← found.mapM fun x => do return x.before ++ (← f x)
  return pieces.flatten ++ (found.getLast?.elim text (·.rest))

end Pattern

end Coach.Text
