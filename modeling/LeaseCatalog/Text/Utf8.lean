/-!
# Text from bytes

Bytes that are meant to be UTF-8 are read one at a time. A character of several bytes is `Pending`
until its last byte has come; a byte that cannot continue it ends it as a fault and is then read on
its own. `lossy` shows every fault as one replacement character, and `firstFault?` says where the
first one is.
-/

namespace LeaseCatalog.Text.Utf8

/-- A character whose last byte has not come yet. -/
structure Pending where
  /-- How many bytes have come. -/
  read : Nat
  /-- How many bytes are still to come. -/
  missing : Nat
  /-- The number that they make. -/
  value : Nat
  /-- The least that the next byte may be. -/
  low : Nat
  /-- The most that the next byte may be. -/
  high : Nat
deriving DecidableEq

/-- What a byte brings. -/
inductive Event where
  /-- It completes a character. -/
  | char (c : Char)
  /-- A character of `length` bytes is at fault. -/
  | fault (length : Nat)
deriving DecidableEq

/-- Reads a byte on its own. The bounds on the second byte leave out what has a shorter form, halves
of surrogate pairs and numbers that are too large. -/
def first (b : Nat) : List Event × Option Pending :=
  if b < 0x80 then ([.char (Char.ofNat b)], none)
  else if 0xC2 ≤ b ∧ b ≤ 0xDF then ([], some ⟨1, 1, b - 0xC0, 0x80, 0xBF⟩)
  else if 0xE0 ≤ b ∧ b ≤ 0xEF then
    ([], some ⟨1, 2, b - 0xE0, if b = 0xE0 then 0xA0 else 0x80, if b = 0xED then 0x9F else 0xBF⟩)
  else if 0xF0 ≤ b ∧ b ≤ 0xF4 then
    ([], some ⟨1, 3, b - 0xF0, if b = 0xF0 then 0x90 else 0x80, if b = 0xF4 then 0x8F else 0xBF⟩)
  else ([.fault 1], none)

/-- Reads a byte. -/
def next : Option Pending → Nat → List Event × Option Pending
  | none, b => first b
  | some p, b =>
    if p.low ≤ b ∧ b ≤ p.high then
      let value := 64 * p.value + (b - 0x80)
      if p.missing ≤ 1 then ([.char (Char.ofNat value)], none)
      else ([], some ⟨p.read + 1, p.missing - 1, value, 0x80, 0xBF⟩)
    else
      let (events, pending) := first b
      (.fault p.read :: events, pending)

/-- The characters of bytes, with a replacement character for each fault. -/
def lossyFrom : Option Pending → List UInt8 → List Char
  | none, [] => []
  | some _, [] => ['\ufffd']
  | pending, b :: rest =>
    let (events, pending) := next pending b.toNat
    events.map (fun | .char c => c | .fault _ => '\ufffd') ++ lossyFrom pending rest

/-- The text of bytes, with a replacement character for each fault. -/
def lossy (bytes : List UInt8) : String := String.ofList (lossyFrom none bytes)

/-- Where the first fault is, from a position on, and its length; it has none if the bytes end within
a character. -/
def firstFaultFrom (position : Nat) : Option Pending → List UInt8 → Option (Nat × Option Nat)
  | none, [] => none
  | some p, [] => some (position - p.read, none)
  | pending, b :: rest =>
    match next pending b.toNat with
    | (.fault length :: _, _) => some (position - (pending.elim 0 (·.read)), some length)
    | (_, pending) => firstFaultFrom (position + 1) pending rest

/-- What is said of bytes that are no UTF-8. -/
def fault? (bytes : List UInt8) : Option String :=
  match firstFaultFrom 0 none bytes with
  | none => none
  | some (position, none) =>
    some ("incomplete utf-8 byte sequence from index " ++ toString position)
  | some (position, some length) =>
    some ("invalid utf-8 sequence of " ++ toString length ++ " bytes from index " ++
      toString position)

/-- A text is read from its own bytes. -/
theorem fromUTF8?_toUTF8 (s : String) : String.fromUTF8? s.toUTF8 = some s := dif_pos s.isValidUTF8

end LeaseCatalog.Text.Utf8
