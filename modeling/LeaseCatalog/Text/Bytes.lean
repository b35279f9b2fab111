/-!
# Bytes

Two arrays of bytes are equal when they hold the same bytes in the same order.
-/

namespace LeaseCatalog

/-- Equality of bytes is decided byte by byte. -/
instance decidableEqBytes : DecidableEq ByteArray := fun a b =>
  if h : a.data.toList = b.data.toList then
    .isTrue (by cases a; cases b; exact congrArg ByteArray.mk (Array.toList_inj.mp h))
  else .isFalse fun e => h (e ▸ rfl)

end LeaseCatalog
