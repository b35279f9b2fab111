import LeaseCatalog.Error
import LeaseCatalog.Store.Dialect
import LeaseCatalog.Text.Blank

/-!
# Settings

A catalog runs under a `Config`: how long leases last, which database holds the rows, and how long a
request may take. A lease lasts for a number of heartbeats of its owner, and never longer than
`maxLeaseSeconds`; `LeaseTiming.ttl?` refuses what would.

`Config.fault?` finds the first setting that makes no sense.
-/

namespace LeaseCatalog

/-- The longest time that a lease may last, in seconds: a week. -/
def maxLeaseSeconds : Nat := 604800

/-- How long leases last. -/
structure LeaseTiming where
  /-- The seconds between two heartbeats of an owner. -/
  heartbeatSeconds : Nat
  /-- How many heartbeats long a lease lasts. -/
  multiplier : Nat
deriving DecidableEq

namespace LeaseTiming

/-- Leases that last for three heartbeats of five seconds. -/
def standard : LeaseTiming := ⟨5, 3⟩

/-- The seconds between heartbeats that callers are told. -/
def heartbeatInterval (t : LeaseTiming) : Nat := min t.heartbeatSeconds maxLeaseSeconds

/-- How many seconds a lease lasts. -/
def ttl? (t : LeaseTiming) : Except Error Nat :=
  let seconds := t.heartbeatSeconds * t.multiplier
  if seconds ≤ maxLeaseSeconds then .ok seconds
  else .error (.config (.leaseTooLong maxLeaseSeconds))

end LeaseTiming

/-- All settings. -/
structure Config where
  /-- How long leases last. -/
  timing : LeaseTiming
  /-- The address of the database. -/
  url : String
  /-- The make of the database. -/
  dialect : Dialect
  /-- The most connections to the database at a time. -/
  maxConnections : Nat
  /-- The milliseconds that a request may take. -/
  timeoutMillis : Nat
deriving DecidableEq

namespace Config

/-- The settings of a catalog that nobody has configured. -/
def standard : Config :=
  ⟨.standard, "sqlite:datacatalog.db?mode=rwc", .sqlite, 5, 10000⟩

/-- The first setting that makes no sense. -/
def fault? (c : Config) : Option ConfigFault :=
  if c.timing.heartbeatSeconds = 0 then some .noHeartbeat
  else if c.timing.multiplier = 0 then some .noMultiplier
  else if maxLeaseSeconds < c.timing.heartbeatSeconds * c.timing.multiplier then
    some (.leaseTooLong maxLeaseSeconds)
  else if Text.allBlank c.url then some .blankUrl
  else if c.maxConnections = 0 then some .noConnections
  else if c.timeoutMillis = 0 then some .noTimeout
  else none

/-- The error of the first setting that makes no sense, if there is one. -/
def validate (c : Config) : Except Error Unit :=
  match c.fault? with
  | some fault => .error (.config fault)
  | none => .ok ()

end Config

end LeaseCatalog
