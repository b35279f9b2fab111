import LeaseCatalog.Text.Hexadecimal

/-!
# Percent signs in addresses

An address may hold any byte as a percent sign and two hexadecimal digits. A percent sign that is
not followed by two digits stands for itself, so every text has a meaning, and a text without
percent signs stands for its own bytes.
-/

namespace LeaseCatalog.Text.Percent

/-- The byte that two digits stand for. -/
def byte? (high low : UInt8) : Option UInt8 := do
  let h ← hexValue? (Char.ofNat high.toNat)
  let l ← hexValue? (Char.ofNat low.toNat)
  some (UInt8.ofNat (16 * h + l))

/-- Bytes with those in place that were written as two digits. -/
def decodeBytes : List UInt8 → List UInt8
  | b :: high :: low :: rest =>
    match (if b = 37 then byte? high low else none) with
    | some decoded => decoded :: decodeBytes rest
    | none => b :: decodeBytes (high :: low :: rest)
  | bytes => bytes

/-- The bytes that a text stands for. -/
def decode (text : List Char) : List UInt8 := decodeBytes (String.ofList text).toUTF8.toList

/-- Bytes that stand for themselves. -/
theorem decodeBytes_of_forall_ne {bytes : List UInt8} (h : ∀ b ∈ bytes, b ≠ 37) :
    decodeBytes bytes = bytes := by
  fun_induction decodeBytes bytes with
  | case1 b high low rest decoded hb ih =>
    have : b ≠ 37 := h b (by simp)
    simp [this] at hb
  | case2 b high low rest hb ih =>
    rw [ih fun x hx => h x (List.mem_cons_of_mem _ hx)]
  | case3 bytes _ => rfl

end LeaseCatalog.Text.Percent
