import LeaseCatalog.Decimal.Binary64
import LeaseCatalog.Decimal.Digits

/-!
# The shortest text of a double

A double is written with the fewest digits that read back as that double. Of all numbers with so
many digits that do, the nearest one to the double is taken, and of two that are as near the even
one. `Binary64.shortest` finds them: for one digit, two digits and so on it asks whether one of the
two neighbours of the double on the grid of that many digits lies among the numbers that round to
the double. All of it is whole arithmetic.

How the digits are laid out is a `DoubleLayout`.
-/

namespace LeaseCatalog

/-- A decimal number, `digits * 10 ^ exponent`. -/
structure DecimalNumber where
  /-- The digits, as a number. -/
  digits : Nat
  /-- The power of ten. -/
  exponent : Int
deriving DecidableEq

namespace DecimalNumber

/-- The same number without trailing zeros among its digits; `fuel` bounds how many are dropped. -/
def dropZeros : Nat → DecimalNumber → DecimalNumber
  | 0, d => d
  | fuel + 1, d =>
    if d.digits ≠ 0 ∧ d.digits % 10 = 0 then dropZeros fuel ⟨d.digits / 10, d.exponent + 1⟩ else d

end DecimalNumber

namespace Binary64

/-- The position of the first digit of a positive quotient: 0 for the units, -1 for the tenths. -/
def leadingPosition (num den : Nat) : Int :=
  if den ≤ num then (Nat.toDigits 10 (num / den)).length - 1
  else
    match (List.range 330).find? fun j => den ≤ num * Nat.pow 10 (j + 1) with
    | some j => -(j + 1 : Int)
    | none => -331

/-- The number of `count` digits that reads back as the double and is nearest to it, if there is
one. Numbers are compared in quarters of the distance between doubles: `4 * significand` stands for
the double itself, and the ends of what rounds to it belong to it when the significand is even. -/
def nearestWithDigits? (x : Binary64) (position : Int) (count : Nat) : Option DecimalNumber :=
  let unit := x.exponent - 2
  let grid := position - count + 1
  let scale := power 2 unit * power 10 (-grid)
  let den := power 2 (-unit) * power 10 grid
  let num := 4 * x.significand * scale
  let gapBelow := if x.significand = leastFull ∧ minExponent < x.exponent then 1 else 2
  let low := (4 * x.significand - gapBelow) * scale
  let high := (4 * x.significand + 2) * scale
  let readsBack (c : Nat) : Bool :=
    if x.significand % 2 = 0 then low ≤ c * den && c * den ≤ high
    else low < c * den && c * den < high
  let below := num / den
  let above := below + 1
  let belowIsNearer := 2 * num < (below + above) * den
  let isTie := 2 * num = (below + above) * den
  match readsBack below, readsBack above with
  | false, false => none
  | true, false => some ⟨below, grid⟩
  | false, true => some ⟨above, grid⟩
  | true, true =>
    if belowIsNearer ∨ (isTie ∧ below % 2 = 0) then some ⟨below, grid⟩ else some ⟨above, grid⟩

/-- The shortest decimal number that reads back as the double, its sign aside. -/
def shortest (x : Binary64) : DecimalNumber :=
  if x.significand = 0 then ⟨0, 0⟩
  else
    let position :=
      leadingPosition (x.significand * power 2 x.exponent) (power 2 (-x.exponent))
    match (List.range 17).findSome? fun n => nearestWithDigits? x position (n + 1) with
    | some d => d.dropZeros 20
    | none => ⟨0, 0⟩

end Binary64

/-- How the digits of a double are laid out. -/
structure DoubleLayout where
  /-- The positions of a first digit at which the number is written out; none stands for all. -/
  writtenOut : Option (Int × Int)

/-- Doubles are written out in full, however many zeros that takes. -/
def DoubleLayout.full : DoubleLayout := ⟨none⟩

/-- Whether a number is written out whose first digit is at a position. -/
def DoubleLayout.writesOut (layout : DoubleLayout) (position : Int) : Bool :=
  match layout.writtenOut with
  | none => true
  | some (low, high) => low ≤ position && position ≤ high

namespace Binary64

open Decimal

/-- The text of a double. Written out it has a point and at least one digit on each side of it; else
the point follows the first digit, and the power of ten has a sign always. -/
def text (layout : DoubleLayout) (x : Binary64) : List Char :=
  let d := x.shortest
  let digits := ofNat d.digits
  let position : Int := d.exponent + digits.length - 1
  let magnitude :=
    if layout.writesOut position then
      if digits.length ≤ position + 1 then
        digits ++ List.replicate (position + 1 - digits.length).toNat '0' ++ ['.', '0']
      else if 0 ≤ position then
        digits.take (position + 1).toNat ++ '.' :: digits.drop (position + 1).toNat
      else '0' :: '.' :: List.replicate (-position - 1).toNat '0' ++ digits
    else
      let fraction := digits.drop 1
      digits.take 1 ++ (if fraction = [] then [] else '.' :: fraction) ++
        'e' :: (if 0 ≤ position then '+' else '-') :: ofNat position.natAbs
  if x.negative then '-' :: magnitude else magnitude

end Binary64

end LeaseCatalog
