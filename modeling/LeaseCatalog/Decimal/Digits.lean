/-!
# Decimal digits

Numbers are written with as many digits as they need (`ofNat`, `ofInt`) or with a fixed number of
them (`padded`), and `value` is the number that a run of digits stands for. The fixed form reads
back: `value_padded` says so for every number that fits.
-/

namespace LeaseCatalog.Decimal

/-- A natural number without leading zeros. -/
def ofNat (n : Nat) : List Char := Nat.toDigits 10 n

/-- An integer, with a minus sign in front of a negative one. -/
def ofInt (n : Int) : List Char := if n < 0 then '-' :: ofNat n.natAbs else ofNat n.natAbs

/-- The last `width` digits of a number, with zeros in front where it has fewer. -/
def padded : Nat → Nat → List Char
  | 0, _ => []
  | width + 1, n => padded width (n / 10) ++ [Nat.digitChar (n % 10)]

/-- The number of a digit. -/
def digitValue (c : Char) : Nat := c.toNat - '0'.toNat

/-- The number that a run of digits stands for. -/
def value (digits : List Char) : Nat := digits.foldl (fun n c => 10 * n + digitValue c) 0

/-- The digit of a number stands for it. -/
theorem digitValue_digitChar {d : Nat} (h : d < 10) : digitValue (Nat.digitChar d) = d := by
  simp [digitValue, Nat.toNat_digitChar_of_lt_ten h]

@[simp] theorem length_padded (width n : Nat) : (padded width n).length = width := by
  induction width generalizing n with
  | zero => rfl
  | succ width ih => simp [padded, ih]

theorem value_append_singleton (digits : List Char) (c : Char) :
    value (digits ++ [c]) = 10 * value digits + digitValue c := by
  simp [value]

/-- A number with at most `width` digits is read back from its fixed form. -/
theorem value_padded {width n : Nat} (h : n < Nat.pow 10 width) : value (padded width n) = n := by
  induction width generalizing n with
  | zero =>
    have : n = 0 := by simpa using h
    subst this
    rfl
  | succ width ih =>
    have small : n / 10 < Nat.pow 10 width := (Nat.div_lt_iff_lt_mul (by decide)).mpr h
    rw [padded, value_append_singleton, ih small, digitValue_digitChar (Nat.mod_lt _ (by decide))]
    omega

end LeaseCatalog.Decimal
