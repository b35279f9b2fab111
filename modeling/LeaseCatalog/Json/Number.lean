import LeaseCatalog.Decimal.Shortest

/-!
# Numbers of documents

A number of a document is a whole number between -2^63 and 2^64 - 1, kept exactly, or a double.
`NumberText` is a number as it is written, split by the grammar of RFC 8259; `Number.ofText?` gives
it its value. A whole number outside the range, one with a fraction or an exponent, and `-0` are
doubles, and a number too large for a finite double has no value.

The double is not the nearest one to the written number: at most twenty significant digits are
collected in a whole number of 64 bits, which is then scaled by a power of ten, and the double is
rounded at each of these steps.
-/

namespace LeaseCatalog

/-- A number of a document. -/
inductive Number where
  /-- A whole number. -/
  | int (n : Int)
  /-- A double. -/
  | double (x : Binary64)
deriving DecidableEq

/-- A number as it is written. -/
structure NumberText where
  /-- Whether a minus sign comes first. -/
  negative : Bool
  /-- The digits before the point. -/
  whole : List Char
  /-- The digits after the point, none if there is no point. -/
  fraction : List Char
  /-- The exponent, if there is one: whether it is negative, and its digits. -/
  exponent : Option (Bool × List Char)
deriving DecidableEq

namespace NumberText

/-- Splits an exponent and nothing else. -/
def readExponent? : List Char → Option (Option (Bool × List Char))
  | [] => some none
  | mark :: rest =>
    if mark = 'e' ∨ mark = 'E' then
      let (negative, digits) :=
        match rest with
        | '-' :: digits => (true, digits)
        | '+' :: digits => (false, digits)
        | digits => (false, digits)
      if digits ≠ [] ∧ digits.all Char.isDigit then some (some (negative, digits)) else none
    else none

/-- Splits a number and nothing else. Only a lone zero may start with a zero, and a point stands
between digits. -/
def ofChars? (text : List Char) : Option NumberText :=
  let (negative, rest) :=
    match text with
    | '-' :: rest => (true, rest)
    | rest => (false, rest)
  let whole := rest.takeWhile Char.isDigit
  if whole = [] ∨ (whole.head? = some '0' ∧ whole ≠ ['0']) then none
  else
    match rest.dropWhile Char.isDigit with
    | '.' :: rest =>
      let fraction := rest.takeWhile Char.isDigit
      if fraction = [] then none
      else (readExponent? (rest.dropWhile Char.isDigit)).map (⟨negative, whole, fraction, ·⟩)
    | rest => (readExponent? rest).map (⟨negative, whole, [], ·⟩)

end NumberText

namespace Number

open Decimal

/-- The largest whole number of 64 bits. -/
def maxWhole : Nat := 18446744073709551615

/-- Appends digits to a whole number as long as it stays within 64 bits; the digits that did not fit
are left over. -/
def collect : Nat → List Char → Nat × List Char
  | n, [] => (n, [])
  | n, c :: rest =>
    let next := 10 * n + digitValue c
    if maxWhole < next then (n, c :: rest) else collect next rest

/-- The double nearest to a power of ten, if there is one. -/
def powerOfTen? (exponent : Nat) : Option Binary64 := Binary64.ofNat? (Nat.pow 10 exponent)

/-- The largest power of ten by which a double is scaled at once. -/
def maxScaling : Nat := 308

/-- Scales a double by a power of ten, downwards in steps of `10 ^ maxScaling`. -/
def scale? (x : Binary64) (exponent : Int) : Option Binary64 :=
  if exponent.natAbs ≤ maxScaling then
    (powerOfTen? exponent.natAbs).bind fun p => if 0 ≤ exponent then x.mul? p else x.div? p
  else if x.significand = 0 then some x
  else if 0 ≤ exponent then none
  else ((powerOfTen? maxScaling).bind x.div?).bind fun y => scale? y (exponent + maxScaling)
termination_by exponent.natAbs
decreasing_by
  have : maxScaling = 308 := rfl
  omega

/-- The double that a whole number and a power of ten make. -/
def double? (negative : Bool) (significand : Nat) (exponent : Int) : Option Number :=
  match Binary64.ofNat? significand with
  | none => none
  | some x => (scale? x exponent).map fun y => .double { y with negative := negative }

/-- The value of a number as it is written, if it has one. -/
def ofText? (t : NumberText) : Option Number :=
  let (n, skipped) := collect 0 t.whole
  if skipped = [] ∧ t.fraction = [] ∧ t.exponent = none then
    if !t.negative then some (.int n)
    else if 0 < n ∧ n ≤ 9223372036854775808 then some (.int (-n))
    else double? true n 0
  else
    let (significand, left) := collect n t.fraction
    let written : Int :=
      match t.exponent with
      | none => 0
      | some (true, digits) => -(value digits : Int)
      | some (false, digits) => value digits
    double? t.negative significand
      (skipped.length - (t.fraction.length - left.length : Nat) + written)

/-- Doubles of a document are written out when the first digit is at a position from -5 to 15. -/
def layout : DoubleLayout := ⟨some (-5, 15)⟩

/-- The text of a number. -/
def text : Number → List Char
  | .int n => ofInt n
  | .double x => x.text layout

end Number

end LeaseCatalog
