import LeaseCatalog.Decimal.Digits
import LeaseCatalog.Toml.Item
import LeaseCatalog.Time.Calendar
import LeaseCatalog.Text.Hexadecimal

/-!
# Plain values of configuration files

A value that is no text, list or table is a run of letters, digits and a few signs. `Item.ofRun?`
decides what such a run is: a truth value, a number in one of the notations of TOML, a date or a
time. A run that is none of these is a fault of the file.
-/

namespace LeaseCatalog.Toml

open Decimal

/-- Whether a character can belong to a plain value. -/
def inRun (c : Char) : Bool :=
  c.isAlphanum || c == '+' || c == '-' || c == '_' || c == '.' || c == ':'

/-- The digits of a number in which underscores may stand between digits. -/
def digits? (isDigit : Char → Bool) : List Char → Option (List Char)
  | [] => none
  | [c] => if isDigit c then some [c] else none
  | c :: '_' :: rest => if isDigit c then (digits? isDigit rest).map (c :: ·) else none
  | c :: rest => if isDigit c then (digits? isDigit rest).map (c :: ·) else none

/-- The value of digits in a base. -/
def valueIn (base : Nat) (digits : List Char) : Nat :=
  digits.foldl (fun n c => base * n + (Text.hexValue? c).getD 0) 0

/-- A whole number, if 64 bits hold it. -/
def integer? (n : Int) : Option Item :=
  if -9223372036854775808 ≤ n ∧ n ≤ 9223372036854775807 then some (.integer n) else none

/-- The sign of a run and what follows it. -/
def splitSign : List Char → Bool × List Char
  | '-' :: rest => (true, rest)
  | '+' :: rest => (false, rest)
  | rest => (false, rest)

/-- The decimal digits before a point or an exponent: only a lone zero starts with a zero. -/
def wholeDigits? (run : List Char) : Option (List Char) :=
  if run.head? = some '0' ∧ run ≠ ['0'] then none else digits? Char.isDigit run

/-- A whole number in one of the four bases. -/
def readInteger? (run : List Char) : Option Item :=
  match run with
  | '0' :: 'x' :: rest =>
    (digits? (fun c => (Text.hexValue? c).isSome) rest).bind fun ds => integer? (valueIn 16 ds)
  | '0' :: 'o' :: rest =>
    (digits? (fun c => 48 ≤ c.toNat && c.toNat ≤ 55) rest).bind fun ds => integer? (valueIn 8 ds)
  | '0' :: 'b' :: rest =>
    (digits? (fun c => c == '0' || c == '1') rest).bind fun ds => integer? (valueIn 2 ds)
  | run =>
    let (negative, rest) := splitSign run
    (wholeDigits? rest).bind fun ds =>
      integer? (if negative then -(value ds : Int) else value ds)

/-- The digits and the exponent of the part of a number that starts with the mark of an exponent. -/
def exponent? : List Char → Option Int
  | mark :: rest =>
    if mark = 'e' ∨ mark = 'E' then
      let (negative, digits) := splitSign rest
      (digits? Char.isDigit digits).map fun ds => if negative then -(value ds : Int) else value ds
    else none
  | [] => none

/-- A floating-point number. A number too large for a double is a fault unless it is negative. -/
def readReal? (run : List Char) : Option Item :=
  let (negative, rest) := splitSign run
  if rest = ['i', 'n', 'f'] then some (.real (.infinite negative))
  else if rest = ['n', 'a', 'n'] then some (.real .nan)
  else
    let inDigits (c : Char) : Bool := c.isDigit || c == '_'
    match wholeDigits? (rest.takeWhile inDigits) with
    | none => none
    | some whole =>
      let parts : Option (List Char × Int) :=
        match rest.dropWhile inDigits with
        | '.' :: rest =>
          (digits? Char.isDigit (rest.takeWhile inDigits)).bind fun fraction =>
            match rest.dropWhile inDigits with
            | [] => some (fraction, 0)
            | rest => (exponent? rest).map (fraction, ·)
        | rest => (exponent? rest).map ([], ·)
      match parts with
      | none => none
      | some (fraction, exponent) =>
        match Real.ofDecimal negative (value (whole ++ fraction)) (exponent - fraction.length) with
        | .infinite false => none
        | x => some (.real x)

/-- A number of two digits up to a bound. -/
def twoDigits? (low high : Nat) : List Char → Option (List Char)
  | a :: b :: rest =>
    if a.isDigit ∧ b.isDigit ∧ low ≤ value [a, b] ∧ value [a, b] ≤ high then some rest else none
  | _ => none

/-- The text behind a character. -/
def skip? (allowed : List Char) : List Char → Option (List Char)
  | c :: rest => if c ∈ allowed then some rest else none
  | [] => none

/-- The text behind a date that exists. -/
def skipDate? (text : List Char) : Option (List Char) :=
  let year := text.take 4
  if year.length = 4 ∧ year.all Char.isDigit then do
    let afterYear ← skip? ['-'] (text.drop 4)
    let afterMonth ← (twoDigits? 1 12 afterYear).bind (skip? ['-'])
    let rest ← twoDigits? 1 31 afterMonth
    if value (afterMonth.take 2) ≤ Date.daysInMonth (value year) (value (afterYear.take 2)) then
      some rest
    else none
  else none

/-- The text behind a time of day. -/
def skipTime? (text : List Char) : Option (List Char) := do
  let minute ← (twoDigits? 0 23 text).bind (skip? [':'])
  let second ← (twoDigits? 0 59 minute).bind (skip? [':'])
  let rest ← twoDigits? 0 60 second
  match rest with
  | '.' :: rest =>
    if (rest.takeWhile Char.isDigit) = [] then none else some (rest.dropWhile Char.isDigit)
  | rest => some rest

/-- Whether a text is nothing or an offset from UTC. -/
def isOffset (text : List Char) : Bool :=
  text == [] || text == ['Z'] || text == ['z'] ||
    ((skip? ['+', '-'] text).bind (twoDigits? 0 23 ·) |>.bind (skip? [':'] ·)
      |>.bind (twoDigits? 0 59 ·)) == some []

/-- Whether a run is a date, a time or both. -/
def isDatetime (run : List Char) : Bool :=
  match skipDate? run with
  | some [] => true
  | some rest =>
    match (skip? ['T', 't', ' '] rest).bind skipTime? with
    | some offset => isOffset offset
    | none => false
  | none => skipTime? run == some []

/-- The value of a run, if it is one. -/
def Item.ofRun? (run : List Char) : Option Item :=
  if run = ['t', 'r', 'u', 'e'] then some (.boolean true)
  else if run = ['f', 'a', 'l', 's', 'e'] then some (.boolean false)
  else if isDatetime run then some .datetime
  else (readInteger? run).or (readReal? run)

end LeaseCatalog.Toml
