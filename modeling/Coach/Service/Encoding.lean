/-!
# Encodings of documents

A document comes as bytes.  It is a text of UTF-8, or of UTF-16 or UTF-32, which are told by the zeros among
its first bytes.  Here the bytes are those of a text of UTF-8, which may be read in the other ways.

## Main definitions

* `Encoding`, with `Encoding.detect`: how bytes are read
* `DecodingFault`, with `DecodingFault.message`: why they are not
* `documentText`: the text of a document
-/

namespace Coach.Service

/-- How bytes stand for characters. -/
inductive Encoding where
  | utf8
  | utf16 (bigEndian : Bool)
  | utf32 (bigEndian : Bool)
  deriving DecidableEq, Repr

/-- The encoding of a document. -/
def Encoding.detect : List UInt8 → Encoding
  | a :: b :: c :: d :: _ =>
    if a = 0 then (if b = 0 then .utf32 true else .utf16 true)
    else if b = 0 then (if c = 0 ∧ d = 0 then .utf32 false else .utf16 false)
    else .utf8
  | [a, b] => if a = 0 then .utf16 true else if b = 0 then .utf16 false else .utf8
  | _ => .utf8

/-- What is wrong with bytes. -/
inductive DecodingCause where
  | truncated
  | outOfRange
  deriving DecidableEq, Repr

/-- The wording of a cause. -/
def DecodingCause.text : DecodingCause → String
  | .truncated => "truncated data"
  | .outOfRange => "code point not in range(0x110000)"

/-- Why bytes are no text: those from a position on do not stand for a character. -/
structure DecodingFault where
  /-- The width of a character in bits. -/
  width : Nat
  bigEndian : Bool
  position : Nat
  bytes : List UInt8
  cause : DecodingCause
  deriving DecidableEq, Repr

/-- Two hexadecimal digits. -/
def hexByte (b : UInt8) : String :=
  String.ofList [Nat.digitChar (b.toNat / 16), Nat.digitChar (b.toNat % 16)]

/-- The wording of a fault. -/
def DecodingFault.message (fault : DecodingFault) : String :=
  let order := if fault.bigEndian then "be" else "le"
  let place := match fault.bytes with
    | [b] => s!"byte 0x{hexByte b} in position {fault.position}"
    | bytes => s!"bytes in position {fault.position}-{fault.position + bytes.length - 1}"
  s!"'utf-{fault.width}-{order}' codec can't decode {place}: {fault.cause.text}"

/-- The number that bytes spell. -/
def numberOf (bigEndian : Bool) (bytes : List UInt8) : Nat :=
  (if bigEndian then bytes else bytes.reverse).foldl (fun n b => n * 256 + b.toNat) 0

/-- The character of a code point; a half of a pair is none, and stands as U+FFFD. -/
def scalarOf (n : Nat) : Char := if 0xD800 ≤ n ∧ n ≤ 0xDFFF then '\ufffd' else Char.ofNat n

/-- The numbers of two bytes each, from a position on. -/
def unitsFrom (bigEndian : Bool) : Nat → List UInt8 → Except DecodingFault (List Nat)
  | position, a :: b :: rest => do
    return numberOf bigEndian [a, b] :: (← unitsFrom bigEndian (position + 2) rest)
  | _, [] => .ok []
  | position, left => .error { width := 16, bigEndian, position, bytes := left, cause := .truncated }

/-- The characters of numbers of two bytes, of which two halves make up one beyond the first plane. -/
def joinHalves : List Nat → List Char
  | [] => []
  | n :: rest => match rest with
    | [] => [scalarOf n]
    | low :: tail =>
      if 0xD800 ≤ n ∧ n ≤ 0xDBFF ∧ 0xDC00 ≤ low ∧ low ≤ 0xDFFF then
        Char.ofNat (0x10000 + (n - 0xD800) * 0x400 + (low - 0xDC00)) :: joinHalves tail
      else scalarOf n :: joinHalves (low :: tail)

/-- The characters of four bytes each, from a position on. -/
def scalarsFrom (bigEndian : Bool) : Nat → List UInt8 → Except DecodingFault (List Char)
  | position, a :: b :: c :: d :: rest =>
    let n := numberOf bigEndian [a, b, c, d]
    if 0x110000 ≤ n then
      .error { width := 32, bigEndian, position, bytes := [a, b, c, d], cause := .outOfRange }
    else do return scalarOf n :: (← scalarsFrom bigEndian (position + 4) rest)
  | _, [] => .ok []
  | position, left => .error { width := 32, bigEndian, position, bytes := left, cause := .truncated }

/-- The text of a document of these characters, without the byte order mark of UTF-8. -/
def documentText (body : List Char) : Except DecodingFault (List Char) :=
  let bytes := body.flatMap String.utf8EncodeChar
  match Encoding.detect bytes with
  | .utf8 => match body with
    | '\ufeff' :: rest => .ok rest
    | body => .ok body
  | .utf16 bigEndian => do return joinHalves (← unitsFrom bigEndian 0 bytes)
  | .utf32 bigEndian => scalarsFrom bigEndian 0 bytes

end Coach.Service
