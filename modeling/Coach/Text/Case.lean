import Coach.Text.Character

/-!
# Upper and lower case

The full case mappings of Unicode on lists of code points. A character may have several characters
as its upper case, and a sigma at the end of a word has a lower case of its own.

Code points are plain numbers here, so that the mappings serve texts of characters and texts that
may hold surrogates alike.

## Main definitions

* `lowerCodes`, `upperCodes`: the mappings on code points
* `lower`, `upper`: the same on characters
* `sameLetter`: equality of an ASCII letter and a character up to case
-/

namespace Coach.Text

/-- The shift that the runs of a case mapping give to a code point. -/
def caseShift (runs : List (Nat × Nat × Nat × Int)) (n : Nat) : Int :=
  match runs.find? fun (first, last, step, _) =>
      first ≤ n && n ≤ last && (n - first) % step == 0 with
  | some (_, _, _, shift) => shift
  | none => 0

/-- The upper case of one code point. -/
def upperCode (n : Nat) : List Nat :=
  if n < 0x80 then [if 0x61 ≤ n && n ≤ 0x7A then n - 0x20 else n]
  else match Tables.upperExpansions.find? (·.1 == n) with
    | some (_, expansion) => expansion
    | none => [(n + caseShift Tables.upperRuns n).toNat]

/-- The lower case of one code point outside a word's end. -/
def lowerCode (n : Nat) : List Nat :=
  if n < 0x80 then [if 0x41 ≤ n && n ≤ 0x5A then n + 0x20 else n]
  else if n == 0x130 then [0x69, 0x307]
  else [(n + caseShift Tables.lowerRuns n).toNat]

/-- Whether the next code point that is not looked past has a case. -/
def meetsCased : List Nat → Bool
  | [] => false
  | n :: rest =>
    if inRanges Tables.casedRanges n then true
    else if inRanges Tables.caseIgnorableRanges n then meetsCased rest
    else false

/-- The lower case of a text whose reversed beginning is `seen`. -/
def lowerAfter (seen : List Nat) : List Nat → List Nat
  | [] => []
  | n :: rest =>
    let here :=
      if n == 0x3A3 then [if meetsCased seen && !meetsCased rest then 0x3C2 else 0x3C3]
      else lowerCode n
    here ++ lowerAfter (n :: seen) rest

/-- The upper case of a text of code points. -/
def upperCodes (text : List Nat) : List Nat := text.flatMap upperCode

/-- The lower case of a text of code points. -/
def lowerCodes (text : List Nat) : List Nat := lowerAfter [] text

/-- The upper case of a text. -/
def upper (text : List Char) : List Char := (upperCodes (text.map Char.toNat)).map Char.ofNat

/-- The lower case of a text. -/
def lower (text : List Char) : List Char := (lowerCodes (text.map Char.toNat)).map Char.ofNat

/-- Whether `c` is the ASCII letter `letter`, given in lower case, up to case. The long s, the
Kelvin sign and the two Turkish letters count as an `s`, a `k` and an `i`. -/
def sameLetter (letter c : Char) : Bool :=
  c == letter || c.toLower == letter ||
    (letter == 's' && c.toNat == 0x17F) || (letter == 'k' && c.toNat == 0x212A) ||
    (letter == 'i' && (c.toNat == 0x130 || c.toNat == 0x131))

end Coach.Text
