import Coach.Number.Decimal
import Coach.Text.Basic

/-!
# Service addresses

Whether a configured address is a plain web address: a known scheme and a host.

## Main definitions

* `isNumericHost`: a host in brackets is an address of eight groups
* `isServiceAddress`
-/

namespace Coach.Security

open Coach.Text

/-- Whether a character may stand in a scheme. -/
def isSchemeChar (c : Char) : Bool := c.isAlpha || c.isDigit || c == '+' || c == '-' || c == '.'

/-- Drops leading controls and blanks, and tabs and line breaks anywhere. -/
def cleanAddress (address : List Char) : List Char :=
  (address.dropWhile fun c => c.toNat ≤ 32).filter fun c => c != '\t' && c != '\r' && c != '\n'

/-- Splits a scheme off, in lower case. -/
def splitScheme (address : List Char) : List Char × List Char :=
  match breakOn? [':'] address with
  | some (scheme, rest) =>
    match scheme with
    | first :: _ =>
      if first.isAlpha && scheme.all isSchemeChar then (scheme.map Char.toLower, rest)
      else ([], address)
    | [] => ([], address)
  | none => ([], address)

/-- The location behind two slashes, up to the path. -/
def location (rest : List Char) : List Char :=
  match rest with
  | '/' :: '/' :: rest => rest.takeWhile fun c => c != '/' && c != '?' && c != '#'
  | _ => []

/-- What follows the last occurrence of a character, or the whole text. -/
def afterLast (c : Char) (text : List Char) : List Char :=
  (text.reverse.takeWhile (· != c)).reverse

/-- The characters of compatibility forms that stand for a separator of addresses. -/
def isDisguisedSeparator (c : Char) : Bool :=
  [0x2048, 0x2047, 0x2049, 0x2100, 0x2101, 0x2105, 0x2106, 0x2A74, 0xFE13, 0xFE16, 0xFE55, 0xFE56,
    0xFE5F, 0xFE6B, 0xFF03, 0xFF0F, 0xFF1A, 0xFF1F, 0xFF20].contains c.toNat

/-- A byte in decimal without leading zeros. -/
def isByteText (text : List Char) : Bool :=
  !text.isEmpty && text.all Char.isDigit && text.length ≤ 3 && (text.head? != some '0' || text == ['0']) &&
    ofNatDigits text ≤ 255

/-- Four bytes between points. -/
def isFourBytes (text : List Char) : Bool :=
  let parts := splitOn '.' text
  parts.length == 4 && parts.all isByteText

/-- One to four hexadecimal digits. -/
def isHexGroup (text : List Char) : Bool :=
  !text.isEmpty && text.all isHexDigit && text.length ≤ 4

/-- Groups of an address, with four bytes at its end counted as two groups. -/
def addressGroups? (text : List Char) : Option (List (List Char)) :=
  let parts := splitOn ':' text
  if parts.length < 3 then none
  else match parts.getLast? with
    | some final =>
      if final.contains '.' then
        if isFourBytes final then some (parts.dropLast ++ [['0'], ['0']]) else none
      else some parts
    | none => none

/-- Whether the groups before and after a gap are sound. An empty group stands at most at the outer
end, next to the gap. -/
def areSoundAround (before after : List (List Char)) : Bool :=
  let high := if before.head? == some [] then before.tail else before
  let low := if after.getLast? == some [] then after.dropLast else after
  (before.head? != some [] || high.isEmpty) && (after.getLast? != some [] || low.isEmpty) &&
    high.length + low.length < 8 && high.all isHexGroup && low.all isHexGroup

/-- Whether groups make up an address: eight of them, or fewer around one gap. -/
def areAddressGroups (parts : List (List Char)) : Bool :=
  let inner := parts.tail.dropLast
  if 9 < parts.length then false
  else match inner.findIdx? List.isEmpty with
    | none => parts.length == 8 && parts.all isHexGroup
    | some i =>
      !(inner.drop (i + 1)).any List.isEmpty && areSoundAround (parts.take (i + 1)) (parts.drop (i + 2))

/-- Whether a host in brackets is an address in groups, possibly with a zone, or names its own
version. -/
def isNumericHost (text : List Char) : Bool :=
  match text with
  | 'v' :: rest =>
    let digits := rest.takeWhile isHexDigit
    match rest.dropWhile isHexDigit with
    | '.' :: _ :: _ => !digits.isEmpty
    | _ => false
  | _ =>
    let (body, zoneIsSound) := match breakOn? ['%'] text with
      | some (body, zone) => (body, !zone.isEmpty && !zone.contains '%')
      | none => (text, true)
    zoneIsSound && !text.contains '/' && (addressGroups? body).any areAddressGroups

/-- The text in the first pair of brackets. -/
def bracketed (place : List Char) : List Char :=
  match breakOn? ['['] place with
  | some (_, inner) => inner.takeWhile (· != ']')
  | none => []

/-- Whether a location may be taken apart: its brackets go in pairs around an address, and no
character disguises a separator. -/
def isSoundLocation (place : List Char) : Bool :=
  place.contains '[' == place.contains ']' &&
    (!place.contains '[' || isNumericHost (bracketed place)) && !place.any isDisguisedSeparator

/-- The host of a location: behind the credentials, in front of the port. -/
def host (place : List Char) : List Char :=
  let behind := afterLast '@' place
  match breakOn? ['['] behind with
  | some (_, inner) => inner.takeWhile (· != ']')
  | none => behind.takeWhile (· != ':')

/-- Whether an address has the scheme of the web and a host. -/
def isServiceAddress (address : String) : Bool :=
  let (scheme, rest) := splitScheme (cleanAddress address.toList)
  let place := location rest
  (scheme == "http".toList || scheme == "https".toList) && isSoundLocation place &&
    !(host place).isEmpty

end Coach.Security
