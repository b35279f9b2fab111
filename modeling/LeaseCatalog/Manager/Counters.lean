/-!
# Counters

A manager counts what came of the calls that it served. Counters only ever rise, by one for each
event.
-/

namespace LeaseCatalog

/-- What a manager counts. -/
inductive Event where
  /-- A lease was acquired on a key that was found free. -/
  | acquiredByCreation
  /-- A lease was acquired on a key that was found reserved. -/
  | acquiredByUpdate
  /-- A lease was not acquired because another owner holds it. -/
  | alreadyInProgress
  /-- An attempt to reserve ended with an error. -/
  | acquireFailed
  /-- An attempt to extend ended with an error. -/
  | extendFailed
  /-- A release ended with an error. -/
  | releaseFailed
  /-- It could not be found out whether a key stands for an artifact. -/
  | tagLookupFailed
deriving DecidableEq

/-- How often each event has happened. -/
structure Counters where
  /-- Leases acquired on free keys. -/
  acquiredByCreation : Nat
  /-- Leases acquired on reserved keys. -/
  acquiredByUpdate : Nat
  /-- Leases held by others. -/
  alreadyInProgress : Nat
  /-- Failed attempts to reserve. -/
  acquireFailed : Nat
  /-- Failed attempts to extend. -/
  extendFailed : Nat
  /-- Failed releases. -/
  releaseFailed : Nat
  /-- Failed lookups of tags. -/
  tagLookupFailed : Nat
deriving DecidableEq

namespace Counters

/-- Before anything has happened. -/
def zero : Counters := ⟨0, 0, 0, 0, 0, 0, 0⟩

/-- The counters after one more event. -/
def record (c : Counters) : Event → Counters
  | .acquiredByCreation => { c with acquiredByCreation := c.acquiredByCreation + 1 }
  | .acquiredByUpdate => { c with acquiredByUpdate := c.acquiredByUpdate + 1 }
  | .alreadyInProgress => { c with alreadyInProgress := c.alreadyInProgress + 1 }
  | .acquireFailed => { c with acquireFailed := c.acquireFailed + 1 }
  | .extendFailed => { c with extendFailed := c.extendFailed + 1 }
  | .releaseFailed => { c with releaseFailed := c.releaseFailed + 1 }
  | .tagLookupFailed => { c with tagLookupFailed := c.tagLookupFailed + 1 }

/-- How many leases were acquired. -/
def acquired (c : Counters) : Nat := c.acquiredByCreation + c.acquiredByUpdate

end Counters

end LeaseCatalog
