import LeaseCatalog.Time.Calendar

/-!
# Instants

An instant is a second of the Unix count and the nanoseconds that have passed in it. The
nanoseconds may run on for a second more: that is how a leap second is named. It belongs after the
last second of a minute, and `ofParts?` makes no other; but the nanoseconds of an instant may be
replaced, so that any second may be prolonged. Instants are ordered by seconds, then by
nanoseconds, and cover the years from -262143 to 262142; what would lie outside has no instant.

Rows hold whole microseconds, so `truncate` says which instants a row cannot tell apart.
-/

namespace LeaseCatalog

/-- A point in time. -/
@[ext] structure Instant where
  /-- The second, counted from the start of 1970 in UTC. -/
  seconds : Int
  /-- The nanoseconds since the start of that second. -/
  nanos : Nat
  /-- No instant lies before the year -262143. -/
  seconds_ge : -8334601228800 ≤ seconds
  /-- No instant lies after the year 262142. -/
  seconds_le : seconds ≤ 8210266876799
  /-- A second is never longer than two. -/
  nanos_lt : nanos < 2000000000
deriving DecidableEq

namespace Instant

/-- The first second that has an instant. -/
def minSeconds : Int := -8334601228800

/-- The last second that has an instant. -/
def maxSeconds : Int := 8210266876799

/-- The instant of a second and its nanoseconds, if there is one. Only the last second of a minute is
prolonged. -/
def ofParts? (seconds : Int) (nanos : Nat) : Option Instant :=
  if h : minSeconds ≤ seconds ∧ seconds ≤ maxSeconds ∧ nanos < 2000000000 ∧
      (1000000000 ≤ nanos → seconds % 60 = 59) then
    some ⟨seconds, nanos, h.1, h.2.1, h.2.2.1⟩
  else none

/-- The start of 1970. -/
def epoch : Instant := ⟨0, 0, by decide, by decide, by decide⟩

/-- The first instant. -/
def first : Instant := ⟨-8334601228800, 0, by decide, by decide, by decide⟩

/-- The last instant that is not in a leap second. -/
def last : Instant := ⟨8210266876799, 999999999, by decide, by decide, by decide⟩

instance : LE Instant where
  le a b := a.seconds < b.seconds ∨ a.seconds = b.seconds ∧ a.nanos ≤ b.nanos

instance : LT Instant where
  lt a b := a.seconds < b.seconds ∨ a.seconds = b.seconds ∧ a.nanos < b.nanos

instance (a b : Instant) : Decidable (a ≤ b) :=
  inferInstanceAs (Decidable (a.seconds < b.seconds ∨ a.seconds = b.seconds ∧ a.nanos ≤ b.nanos))

instance (a b : Instant) : Decidable (a < b) :=
  inferInstanceAs (Decidable (a.seconds < b.seconds ∨ a.seconds = b.seconds ∧ a.nanos < b.nanos))

theorem le_def {a b : Instant} :
    a ≤ b ↔ a.seconds < b.seconds ∨ a.seconds = b.seconds ∧ a.nanos ≤ b.nanos := Iff.rfl

theorem lt_def {a b : Instant} :
    a < b ↔ a.seconds < b.seconds ∨ a.seconds = b.seconds ∧ a.nanos < b.nanos := Iff.rfl

theorem not_le {a b : Instant} : ¬ a ≤ b ↔ b < a := by
  rw [le_def, lt_def]; omega

theorem le_antisymm {a b : Instant} (h : a ≤ b) (h' : b ≤ a) : a = b := by
  rw [le_def] at h h'
  exact Instant.ext (by omega) (by omega)

/-- The whole microseconds since the epoch; a leap second counts on into the next minute. -/
def micros (t : Instant) : Int := t.seconds * 1000000 + t.nanos / 1000

/-- The instant at a number of microseconds from the epoch, if there is one. -/
def ofMicros? (micros : Int) : Option Instant :=
  ofParts? (micros / 1000000) ((micros % 1000000).toNat * 1000)

/-- The instant without what a microsecond is too coarse to show. -/
def truncate (t : Instant) : Instant :=
  { t with
    nanos := t.nanos / 1000 * 1000
    nanos_lt := by have := t.nanos_lt; omega }

/-- The instant a number of seconds later, if there is one. Time that passes leaves a leap second
behind. -/
def addSeconds? (t : Instant) (n : Nat) : Option Instant :=
  if n = 0 then some t else ofParts? (t.seconds + n) (t.nanos % 1000000000)

/-- The day, counted from the epoch, on which an instant lies in UTC. -/
def days (t : Instant) : Int := t.seconds / 86400

/-- The date of an instant in UTC. -/
def date (t : Instant) : Date := Date.ofDays t.days

/-- The seconds since midnight in UTC. -/
def secondOfDay (t : Instant) : Nat := (t.seconds % 86400).toNat

end Instant

end LeaseCatalog
