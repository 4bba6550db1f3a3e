import Coach.Number.Binary64
import Coach.Number.Decimal
import Coach.Schema.Basic

/-!
# Points in time

Points in time with a date, a time of day to the microsecond and, unless the time is a local one, the
distance from universal time. They are written in two ways and read off texts and off the seconds
since 1970.

## Main definitions

* `Stamp`, `Stamp.ofMicroseconds`
* `Stamp.text`, `Stamp.zuluText`: the two written forms
* `stamp`: reads a point in time
* `Clock`: a source of points in time

## Design notes

Days are counted in eras of 400 years that begin with March, so that a leap day ends its year. A count
of seconds that is past the year 2600 is taken for milliseconds.
-/

namespace Coach.Time

open Coach.Schema Coach.Text

/-- A point in time. The offset says by how many seconds it is ahead of universal time. -/
structure Stamp where
  year : Nat
  month : Nat
  day : Nat
  hour : Nat := 0
  minute : Nat := 0
  second : Nat := 0
  microsecond : Nat := 0
  offset : Option Int := none
  deriving DecidableEq, Repr

/-- Whether a year has a leap day. -/
def isLeapYear (year : Nat) : Bool := year % 4 == 0 && (year % 100 != 0 || year % 400 == 0)

/-- The number of days of a month. -/
def daysOfMonth (year month : Nat) : Nat :=
  if month = 2 then (if isLeapYear year then 29 else 28)
  else if [4, 6, 9, 11].contains month then 30
  else 31

namespace Stamp

/-! ### Days and seconds -/

/-- The date of a day, counted from the first of January 1970. -/
def dateOfDay (day : Int) : Nat × Nat × Nat :=
  let shifted := day + 719468
  let era := shifted / 146097
  let inEra := (shifted % 146097).toNat
  let yearOfEra := (inEra - inEra / 1460 + inEra / 36524 - inEra / 146096) / 365
  let inYear := inEra - (365 * yearOfEra + yearOfEra / 4 - yearOfEra / 100)
  let monthFromMarch := (5 * inYear + 2) / 153
  let day := inYear - (153 * monthFromMarch + 2) / 5 + 1
  let month := if monthFromMarch < 10 then monthFromMarch + 3 else monthFromMarch - 9
  let year := (era * 400).toNat + yearOfEra + (if month ≤ 2 then 1 else 0)
  (year, month, day)

/-- The point in time that is some microseconds after the beginning of 1970, in universal time. -/
def ofMicroseconds (count : Int) : Stamp :=
  let seconds := count / 1000000
  let (year, month, day) := dateOfDay (seconds / 86400)
  let ofDay := (seconds % 86400).toNat
  { year, month, day, hour := ofDay / 3600, minute := ofDay / 60 % 60, second := ofDay % 60
    microsecond := (count % 1000000).toNat, offset := some 0 }

/-! ### Writing -/

/-- A number with leading zeros. -/
def padded (width n : Nat) : String :=
  let digits := natDigits n
  String.ofList (List.replicate (width - digits.length) '0' ++ digits)

/-- The date and the time of day; a fraction of a second has six places. -/
def localText (s : Stamp) : String :=
  s!"{padded 4 s.year}-{padded 2 s.month}-{padded 2 s.day}T" ++
    s!"{padded 2 s.hour}:{padded 2 s.minute}:{padded 2 s.second}" ++
    (if s.microsecond = 0 then "" else s!".{padded 6 s.microsecond}")

/-- An offset in hours and minutes behind its sign. -/
def offsetText (offset : Int) : String :=
  let minutes := offset.natAbs / 60
  let sign := if offset < 0 then "-" else "+"
  s!"{sign}{padded 2 (minutes / 60)}:{padded 2 (minutes % 60)}"

/-- The written form with the offset in hours and minutes. -/
def text (s : Stamp) : String := s.localText ++ s.offset.elim "" offsetText

/-- The written form in which universal time is a `Z`. An offset of less than an hour has no sign of
its own and is written as one ahead. -/
def zuluText (s : Stamp) : String :=
  s.localText ++ s.offset.elim "" fun offset =>
    if offset = 0 then "Z"
    else if offset.natAbs < 3600 then offsetText offset.natAbs else offsetText offset

/-! ### Reading -/

/-- A number of exactly some digits. -/
def number? (width : Nat) (text : List Char) : Option (Nat × List Char) :=
  let digits := text.take width
  if digits.length = width && digits.all Char.isDigit then some (ofNatDigits digits, text.drop width)
  else none

/-- Passes over a given character. -/
def skip? (c : Char) : List Char → Option (List Char)
  | x :: rest => if x = c then some rest else none
  | [] => none

/-- Reads a date. -/
def date? (text : List Char) : Option (Stamp × List Char) := do
  let (year, rest) ← number? 4 text
  let (month, rest) ← number? 2 (← skip? '-' rest)
  let (day, rest) ← number? 2 (← skip? '-' rest)
  if 1 ≤ year && 1 ≤ month && month ≤ 12 && 1 ≤ day && day ≤ daysOfMonth year month then
    some ({ year, month, day }, rest)
  else none

/-- Reads a fraction of a second as microseconds; digits past the sixth do not count. -/
def fraction? (text : List Char) : Option (Nat × List Char) :=
  let digits := text.takeWhile Char.isDigit
  if digits.isEmpty then none
  else
    let places := digits.take 6
    some (ofNatDigits places * tenTo (6 - places.length), text.dropWhile Char.isDigit)

/-- Reads the seconds of a time of day, which may be missing. -/
def seconds? : List Char → Option ((Nat × Nat) × List Char)
  | ':' :: rest => do
    let (second, rest) ← number? 2 rest
    if second > 59 then none
    else match rest with
      | c :: tail =>
        if c = '.' || c = ',' then (fraction? tail).map fun (micro, rest) => ((second, micro), rest)
        else some ((second, 0), rest)
      | [] => some ((second, 0), [])
  | rest => some ((0, 0), rest)

/-- Reads the hours and minutes of an offset. -/
def offsetOf? (sign : Int) (text : List Char) : Option (Int × List Char) := do
  let (hours, rest) ← number? 2 text
  let (minutes, rest) ← number? 2 ((skip? ':' rest).getD rest)
  let seconds := hours * 3600 + minutes * 60
  if minutes < 60 && seconds < 86400 then some (sign * seconds, rest) else none

/-- Reads an offset, which may be missing. -/
def offset? : List Char → Option (Option Int × List Char)
  | [] => some (none, [])
  | c :: rest =>
    if c = 'Z' || c = 'z' then some (some 0, rest)
    else if c = '+' then (offsetOf? 1 rest).map fun (o, rest) => (some o, rest)
    else if c = '-' || c = '−' then (offsetOf? (-1) rest).map fun (o, rest) => (some o, rest)
    else none

/-- Reads a date with a time of day. -/
def dateTime? (text : List Char) : Option Stamp := do
  let (date, rest) ← date? text
  match rest with
  | c :: rest =>
    if ['T', 't', ' ', '_'].contains c then do
      let (hour, rest) ← number? 2 rest
      let (minute, rest) ← number? 2 (← skip? ':' rest)
      let ((second, microsecond), rest) ← seconds? rest
      let (offset, rest) ← offset? rest
      if hour < 24 && minute < 60 && rest.isEmpty then
        some { date with hour, minute, second, microsecond, offset }
      else none
    else none
  | [] => none

/-- The point in time some seconds and microseconds after the beginning of 1970; a large count is one
of milliseconds. -/
def ofCount? (count : Int) (micro : Nat) : Option Stamp :=
  let whole := if count.natAbs ≤ 20000000000 then count * 1000000 + micro else count * 1000 + micro
  let seconds := whole / 1000000
  if -11676096000 ≤ seconds && seconds ≤ 253402300799 then some (ofMicroseconds whole) else none

/-- The point in time of an integer of 64 bits. -/
def ofInt? (count : Int) : Option Stamp :=
  if -(twoTo 63 : Int) ≤ count && count < twoTo 63 then ofCount? count 0 else none

/-- The point in time of a double. The fraction counts forward from the floor even when the count is
negative. -/
def ofFloat? (count : Float) : Option Stamp :=
  match truncate count, floor count with
  | .ok whole, .ok below =>
    let fraction := (count - (Number.int whole).toFloat?.getD 0).abs
    match truncate (fraction * 1000000 + 0.5) with
    | .ok micro => ofCount? below micro.toNat
    | .error _ => none
  | _, _ => none

/-- The point in time of a count written as text. -/
def ofCountText? (text : List Char) : Option Stamp :=
  let (negative, digits) := match text with
    | '-' :: rest => (true, rest)
    | '+' :: rest => (false, rest)
    | rest => (false, rest)
  if !digits.isEmpty && digits.all Char.isDigit then
    let n : Int := ofNatDigits digits
    ofInt? (if negative then -n else n)
  else if digits.head?.any Char.isDigit && digits.all (fun c => c.isDigit || c = '.') then
    (readFloat? text).bind ofFloat?
  else none

/-- The point in time that a text names: a date with a time of day, a count, or a bare date. -/
def ofText? (text : List Char) : Option Stamp :=
  match dateTime? text with
  | some s => some s
  | none => match ofCountText? text with
    | some s => some s
    | none => match date? text with
      | some (s, []) => some s
      | _ => none

end Stamp

/-- What a conversion gives, or its issue. -/
def stampOf : Option Stamp → Checked Stamp
  | some s => .valid s
  | none => .refuse .timeType

/-- Reads a point in time. -/
def stamp : Reader Stamp
  | .string s => stampOf (Stamp.ofText? s.toList)
  | .number (.int n) => stampOf (Stamp.ofInt? n)
  | .number (.float x) => stampOf (Stamp.ofFloat? x)
  | _ => .refuse .timeType

/-! ### Clocks -/

/-- A clock that is known by its next reading, in microseconds since 1970, and by how much it moves on
from one reading to the next. -/
structure Clock where
  next : Int
  step : Int := 1000000
  deriving DecidableEq, Repr

/-- Reads the clock. -/
def Clock.read (c : Clock) : Stamp × Clock := (Stamp.ofMicroseconds c.next, { c with next := c.next + c.step })

end Coach.Time
