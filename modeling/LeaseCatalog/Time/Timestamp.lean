import LeaseCatalog.Decimal.Digits
import LeaseCatalog.Time.Instant

/-!
# Written instants

Instants are written in the form of RFC 3339. Rows hold the form of `encode?`: always microseconds,
always UTC, always four digits for the year, so that all of them have the same length and their
order as texts is their order in time. It exists for the years 0 to 9999 only. Documents hold the
form of `document`, with as many fractional digits as the instant needs, and messages the form of
`plain`.

`decode` reads what a row holds. It takes any RFC 3339 text, whatever its offset and precision, and
says what is wrong with one that is none.
-/

namespace LeaseCatalog.Timestamp

open Decimal

/-! ## Writing -/

/-- A year: four digits from 0 to 9999, else a sign and at least four digits. -/
def yearText (year : Int) : List Char :=
  if 0 ≤ year ∧ year ≤ 9999 then padded 4 year.toNat
  else
    let digits := if year.natAbs < 10000 then padded 4 year.natAbs else ofNat year.natAbs
    (if year < 0 then '-' else '+') :: digits

/-- Year, month and day. -/
def dateText (d : Date) : List Char :=
  yearText d.year ++ '-' :: padded 2 d.month ++ '-' :: padded 2 d.day

/-- Hour, minute and second; the second that a leap second prolongs is the 60th. -/
def timeText (t : Instant) : List Char :=
  let s := t.secondOfDay
  let second := s % 60 + if 1000000000 ≤ t.nanos then 1 else 0
  padded 2 (s / 3600) ++ ':' :: padded 2 (s / 60 % 60) ++ ':' :: padded 2 second

/-- A fraction of a second, in microseconds. -/
def microsText (t : Instant) : List Char := '.' :: padded 6 (t.nanos % 1000000000 / 1000)

/-- A fraction of a second with none, three, six or nine digits, whichever is the least that loses
nothing. -/
def fractionText (t : Instant) : List Char :=
  let n := t.nanos % 1000000000
  if n = 0 then []
  else if n % 1000000 = 0 then '.' :: padded 3 (n / 1000000)
  else if n % 1000 = 0 then '.' :: padded 6 (n / 1000)
  else '.' :: padded 9 n

/-- The form of a row, of an instant in the years 0 to 9999. -/
def encode? (t : Instant) : Option String :=
  if 0 ≤ t.date.year ∧ t.date.year ≤ 9999 then
    some (String.ofList (dateText t.date ++ 'T' :: timeText t ++ microsText t ++ ['Z']))
  else none

/-- The form of a document. -/
def document (t : Instant) : String :=
  String.ofList
    (dateText t.date ++ 'T' :: timeText t ++ fractionText t ++ ['+', '0', '0', ':', '0', '0'])

/-- The form of a message. -/
def plain (t : Instant) : String :=
  String.ofList (dateText t.date ++ ' ' :: timeText t ++ fractionText t ++ [' ', 'U', 'T', 'C'])

/-! ## Reading -/

/-- What is wrong with a text that is read as an instant. -/
inductive Fault where
  /-- It ends too early. -/
  | short
  /-- It has a character that cannot stand where it stands. -/
  | invalid
  /-- It has a number that is too large or too small, or a day that its month does not have. -/
  | outOfRange
  /-- It goes on after an instant. -/
  | trailing
deriving DecidableEq

/-- A fault in words. -/
def Fault.message : Fault → String
  | .short => "premature end of input"
  | .invalid => "input contains invalid characters"
  | .outOfRange => "input is out of range"
  | .trailing => "trailing input"

/-- The number of bytes of a text in UTF-8. -/
def byteLength : List Char → Nat
  | [] => 0
  | c :: rest => c.utf8Size + byteLength rest

/-- Reads a number of exactly `width` digits. A text that has not as many bytes left is too short,
whatever it holds. -/
def readNumber (width : Nat) (text : List Char) : Except Fault (Nat × List Char) :=
  if byteLength text < width then .error .short
  else if (text.take width).all Char.isDigit then
    .ok (value (text.take width), text.drop width)
  else .error .invalid

/-- Reads one of a set of characters. -/
def readOneOf (allowed : List Char) : List Char → Except Fault (List Char)
  | [] => .error .short
  | c :: rest => if c ∈ allowed then .ok rest else .error .invalid

/-- Reads the fraction of a second in nanoseconds, if there is one. Digits after the ninth are
passed over. -/
def readFraction : List Char → Except Fault (Nat × List Char)
  | '.' :: rest =>
    let digits := rest.takeWhile Char.isDigit
    match rest with
    | [] => .error .short
    | _ =>
      if digits = [] then .error .invalid
      else
        let kept := digits.take 9
        .ok (value kept * Nat.pow 10 (9 - kept.length), rest.dropWhile Char.isDigit)
  | text => .ok (0, text)

/-- Reads an offset from UTC in seconds: a `Z`, or a sign, hours and minutes. The minus sign may be
the hyphen or the mathematical one. -/
def readOffset : List Char → Except Fault (Int × List Char)
  | [] => .error .short
  | c :: rest =>
    if c = 'Z' ∨ c = 'z' then .ok (0, rest)
    else if c = '+' ∨ c = '-' ∨ c = '\u2212' then do
      let (hours, rest) ← readNumber 2 rest
      let rest ← readOneOf [':'] rest
      let (minutes, rest) ← readNumber 2 rest
      let seconds : Nat := hours * 3600 + minutes * 60
      if minutes ≤ 59 then .ok (if c = '+' then (seconds : Int) else -(seconds : Int), rest)
      else .error .outOfRange
    else .error .invalid

/-- Reads a day, which must exist. -/
def readDate (text : List Char) : Except Fault (Date × List Char) := do
  let (year, rest) ← readNumber 4 text
  let rest ← readOneOf ['-'] rest
  let (month, rest) ← readNumber 2 rest
  let rest ← readOneOf ['-'] rest
  let (day, rest) ← readNumber 2 rest
  let date : Date := ⟨year, month, day⟩
  if date.exists? then .ok (date, rest) else .error .outOfRange

/-- A time of day: the seconds since midnight, and the nanoseconds in the last of them. -/
abbrev TimeOfDay := Nat × Nat

/-- The time of day that hours, minutes, seconds and nanoseconds make. The 60th second is a leap
second: it prolongs the one before it. -/
def timeOfDay? (hour minute second nanos : Nat) : Option TimeOfDay :=
  if hour ≤ 23 ∧ minute ≤ 59 ∧ second ≤ 60 then
    if second = 60 then some (hour * 3600 + minute * 60 + 59, nanos + 1000000000)
    else some (hour * 3600 + minute * 60 + second, nanos)
  else none

/-- Reads a time of day. -/
def readTime (text : List Char) : Except Fault (TimeOfDay × List Char) := do
  let (hour, rest) ← readNumber 2 text
  let rest ← readOneOf [':'] rest
  let (minute, rest) ← readNumber 2 rest
  let rest ← readOneOf [':'] rest
  let (second, rest) ← readNumber 2 rest
  let (nanos, rest) ← readFraction rest
  match timeOfDay? hour minute second nanos with
  | some time => .ok (time, rest)
  | none => .error .outOfRange

/-- The instant that a day, a time of day and an offset from UTC name. An offset is shorter than a
day. -/
def instantOf (date : Date) (time : TimeOfDay) (offset : Int) : Except Fault Instant :=
  if 86400 ≤ offset.natAbs then .error .outOfRange
  else
    match Instant.ofParts? (date.toDays * 86400 + time.1 - offset) time.2 with
    | some t => .ok t
    | none => .error .outOfRange

/-- The bytes of the shortest text that goes on to an offset: a day, the sign between day and time,
and a time in whole seconds. -/
def minBytes : Nat := 19

/-- Reads an instant. A text that cannot hold a day and a time is too short, whatever it holds; all
other faults are found from left to right. -/
def decode (text : String) : Except Fault Instant :=
  if byteLength text.toList < minBytes then .error .short
  else do
    let (date, rest) ← readDate text.toList
    let rest ← readOneOf ['T', 't', ' '] rest
    let (time, rest) ← readTime rest
    let (offset, rest) ← readOffset rest
    if rest = [] then instantOf date time offset else .error .trailing

end LeaseCatalog.Timestamp
