import Coach.Number.Decimal
import Coach.Text.Case

/-!
# Strings of simulated programs

What a simulated program's strings hold: code points, single halves of surrogate pairs included,
because a learner's program can write and take apart such pairs. Texts of the library itself are lists
of characters, and become strings of programs without loss.

## Main definitions

* `Str`, with `Str.ofChars` and `Str.ofString`
* `Str.toChars`: the characters, halves that belong together joined
* `Str.upper`, `Str.lower`, `Str.trim`, `Str.indexOf?`
* `unescape`: the string that the inside of a literal stands for
-/

namespace Coach.Program

open Coach.Text

/-- A string of a simulated program, as code points. -/
abbrev Str := List Nat

namespace Str

/-- The string of some characters. -/
def ofChars (text : List Char) : Str := text.map Char.toNat

/-- The string of a text. -/
def ofString (s : String) : Str := ofChars s.toList

/-- A high half of a surrogate pair. -/
def isHighHalf (n : Nat) : Bool := 0xD800 ≤ n && n ≤ 0xDBFF

/-- A low half of a surrogate pair. -/
def isLowHalf (n : Nat) : Bool := 0xDC00 ≤ n && n ≤ 0xDFFF

/-- The characters of a string. Two halves of a pair next to each other are one character; a half
alone shows as the replacement character. -/
def toChars : Str → List Char
  | [] => []
  | [n] => [if isHighHalf n || isLowHalf n then Char.ofNat 0xFFFD else Char.ofNat n]
  | n :: m :: rest =>
    if isHighHalf n && isLowHalf m then
      Char.ofNat (0x10000 + (n - 0xD800) * 0x400 + (m - 0xDC00)) :: toChars rest
    else
      (if isHighHalf n || isLowHalf n then Char.ofNat 0xFFFD else Char.ofNat n) :: toChars (m :: rest)

/-- The text of a string. -/
def toText (s : Str) : String := String.ofList (toChars s)

/-- Upper case. -/
def upper (s : Str) : Str := upperCodes s

/-- Lower case. -/
def lower (s : Str) : Str := lowerCodes s

/-- A blank, a tab or a line break. -/
def isTrimmed (n : Nat) : Bool := n == 32 || n == 9 || n == 10 || n == 13

/-- Drops blanks, tabs and line breaks from both ends. -/
def trim (s : Str) : Str := ((s.dropWhile isTrimmed).reverse.dropWhile isTrimmed).reverse

/-- The index of the first occurrence of a string. -/
def indexOf? (part : Str) : Str → Option Nat
  | [] => if part.isEmpty then some 0 else none
  | n :: rest =>
    if part.isPrefixOf (n :: rest) then some 0 else (indexOf? part rest).map (· + 1)

end Str

/-- The code point of a one-letter escape; other characters stand for themselves. -/
def escapeCode (c : Char) : Nat :=
  match c with
  | 'n' => 10
  | 't' => 9
  | 'r' => 13
  | 'b' => 8
  | 'f' => 12
  | '0' => 0
  | c => c.toNat

/-- The string that the inside of a literal stands for: a backslash with `u` and four hexadecimal
digits is that code point, one before any other character but a newline that character's escape. -/
def unescape : List Char → Str
  | [] => []
  | '\\' :: 'u' :: a :: b :: c :: d :: rest =>
    if isHexDigit a && isHexDigit b && isHexDigit c && isHexDigit d then
      (((hexValue a * 16 + hexValue b) * 16 + hexValue c) * 16 + hexValue d) :: unescape rest
    else 'u'.toNat :: unescape (a :: b :: c :: d :: rest)
  | '\\' :: e :: rest =>
    if e = '\n' then 92 :: 10 :: unescape rest else escapeCode e :: unescape rest
  | c :: rest => c.toNat :: unescape rest

end Coach.Program
