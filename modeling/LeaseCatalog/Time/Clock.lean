import LeaseCatalog.Time.Instant

/-!
# Clocks that are moved by hand

Every decision about a lease is taken at an instant that a clock shows, and clocks show whole
microseconds. A `ManualClock` moves only when it is told to, by an instant or by a span of time of
either sign. It counts microseconds in 64 bits: a span that has too many of them, and a sum that
would leave the 64 bits, stop at their ends, and an advanced clock then stops at the first or last
instant.
-/

namespace LeaseCatalog

/-- A span of time in nanoseconds, of either sign. -/
structure Span where
  /-- Its nanoseconds. -/
  nanos : Int
deriving DecidableEq

namespace Span

/-- The longest span: the largest number of milliseconds that 64 bits hold. -/
def longest : Span := ⟨9223372036854775807 * 1000000⟩

/-- The longest span backwards. -/
def shortest : Span := ⟨-(9223372036854775807 * 1000000)⟩

/-- The span of a number of seconds and further nanoseconds. -/
def ofParts (seconds : Int) (nanos : Nat) : Span := ⟨seconds * 1000000000 + nanos⟩

/-- Whole microseconds, rounded toward zero. -/
def micros (s : Span) : Int := s.nanos.tdiv 1000

end Span

/-- The nearest integer that 64 bits hold with a sign. -/
def saturate (n : Int) : Int := max (-9223372036854775808) (min n 9223372036854775807)

/-- A clock that moves only when it is told to. -/
structure ManualClock where
  /-- What it shows, in microseconds since the epoch. -/
  micros : Int
deriving DecidableEq

namespace ManualClock

/-- A clock that shows an instant, less what a microsecond is too coarse to show. -/
def startingAt (t : Instant) : ManualClock := ⟨t.micros⟩

/-- Puts the clock to an instant. -/
def set (_ : ManualClock) (t : Instant) : ManualClock := startingAt t

/-- Moves the clock on, or back for a negative span, and never past the first and last instants. -/
def advance (c : ManualClock) (span : Span) : ManualClock :=
  ⟨max Instant.first.micros
    (min (saturate (c.micros + saturate span.micros)) Instant.last.micros)⟩

/-- The instant that the clock shows; the epoch where its count has none. -/
def now (c : ManualClock) : Instant := (Instant.ofMicros? c.micros).getD Instant.epoch

/-- One move of a clock. -/
inductive Move where
  /-- To an instant. -/
  | set (target : Instant)
  /-- On by a span. -/
  | advance (span : Span)
deriving DecidableEq

/-- The clock after a move. -/
def move (c : ManualClock) : Move → ManualClock
  | .set target => c.set target
  | .advance span => c.advance span

end ManualClock

end LeaseCatalog
