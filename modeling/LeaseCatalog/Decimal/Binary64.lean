/-!
# Doubles as exact numbers

A finite double is a sign, a whole significand below 2^53 and a power of two. Arithmetic on doubles
is exact arithmetic followed by one rounding to the nearest double, where a number halfway between
two goes to the one with the even significand; `ofRatio?` is that rounding, and it has no result
where the number is too large for a finite double.
-/

namespace LeaseCatalog

/-- A finite double: its sign, and the number `significand * 2 ^ exponent`. The exponent is never
below -1074, and the significand has 53 bits unless the exponent is that least one. -/
structure Binary64 where
  /-- Whether it has a minus sign; zero may have one too. -/
  negative : Bool
  /-- The whole significand, below `2 ^ 53`. -/
  significand : Nat
  /-- The power of two that the significand is scaled by. -/
  exponent : Int
deriving DecidableEq

namespace Binary64

/-- The least exponent. -/
def minExponent : Int := -1074

/-- The largest exponent. -/
def maxExponent : Int := 971

/-- The least significand of 53 bits. -/
def leastFull : Nat := 4503599627370496

/-- A power with a whole exponent, which is 1 for a negative one. -/
def power (base : Nat) (exponent : Int) : Nat := Nat.pow base exponent.toNat

/-- The quotient rounded to the nearest whole number, to the even one of two that are as near. -/
def roundQuotient (num den : Nat) : Nat :=
  let q := num / den
  let r := num % den
  if 2 * r > den ∨ (2 * r = den ∧ q % 2 = 1) then q + 1 else q

/-- The exponent at which a quotient has a significand of 53 bits, or the least exponent. -/
def exponentOf (num den : Nat) : Int :=
  let rough : Int := (Nat.log2 num : Int) - Nat.log2 den
  let below := num * power 2 (-rough) < den * power 2 rough
  max minExponent (if below then rough - 53 else rough - 52)

/-- The double nearest to a quotient, if there is one. -/
def ofRatio? (negative : Bool) (num den : Nat) : Option Binary64 :=
  if num = 0 then some ⟨negative, 0, minExponent⟩
  else
    let exponent := exponentOf num den
    let m := roundQuotient (num * power 2 (-exponent)) (den * power 2 exponent)
    let (m, exponent) := if m = 2 * leastFull then (leastFull, exponent + 1) else (m, exponent)
    if exponent ≤ maxExponent then some ⟨negative, m, exponent⟩ else none

/-- The double nearest to a natural number, if there is one. -/
def ofNat? (n : Nat) : Option Binary64 := ofRatio? false n 1

/-- The product of two doubles, if it is finite. -/
def mul? (a b : Binary64) : Option Binary64 :=
  let exponent := a.exponent + b.exponent
  ofRatio? (a.negative != b.negative)
    (a.significand * b.significand * power 2 exponent) (power 2 (-exponent))

/-- The quotient of two doubles, if it is finite and the second is not zero. -/
def div? (a b : Binary64) : Option Binary64 :=
  if b.significand = 0 then none
  else
    let exponent := a.exponent - b.exponent
    ofRatio? (a.negative != b.negative)
      (a.significand * power 2 exponent) (b.significand * power 2 (-exponent))

/-- The same number with the other sign. -/
def neg (a : Binary64) : Binary64 := { a with negative := !a.negative }

end Binary64

end LeaseCatalog
