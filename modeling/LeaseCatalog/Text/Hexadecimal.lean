/-!
# Hexadecimal digits

Numbers in base 16 are read with digits of either case and written in lower case.
-/

namespace LeaseCatalog.Text

/-- The value of a hexadecimal digit. -/
def hexValue? (c : Char) : Option Nat :=
  let n := c.toNat
  if 48 ≤ n ∧ n ≤ 57 then some (n - 48)
  else if 65 ≤ n ∧ n ≤ 70 then some (n - 55)
  else if 97 ≤ n ∧ n ≤ 102 then some (n - 87)
  else none

/-- The digit of a number below 16. -/
def hexDigit (n : Nat) : Char := Nat.digitChar n

/-- The two digits of a byte. -/
def hexPair (b : UInt8) : List Char := [hexDigit (b.toNat / 16), hexDigit (b.toNat % 16)]

/-- Bytes as their digits. -/
def hexText (bytes : ByteArray) : String := String.ofList (bytes.toList.flatMap hexPair)

/-- The bytes of pairs of digits, if there is nothing else. -/
def hexBytes? : List Char → Option (List UInt8)
  | [] => some []
  | high :: low :: rest =>
    match hexValue? high, hexValue? low, hexBytes? rest with
    | some h, some l, some bytes => some (UInt8.ofNat (16 * h + l) :: bytes)
    | _, _, _ => none
  | _ => none

/-- The bytes of a text that consists of their digits. -/
def ofHexText? (s : String) : Option ByteArray := (hexBytes? s.toList).map fun bytes => ⟨bytes.toArray⟩

end LeaseCatalog.Text
