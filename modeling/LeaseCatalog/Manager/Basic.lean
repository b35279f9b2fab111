import LeaseCatalog.Manager.Operations
import LeaseCatalog.Time.Clock

/-!
# Managers

A manager serves calls under one timing of leases and by one clock, and counts what came of them. It
holds no lease itself: everything that two managers have to agree on is in the stores.
-/

namespace LeaseCatalog

/-- What serves calls. -/
structure Manager where
  /-- How long the leases last that it gives. -/
  timing : LeaseTiming
  /-- The clock by which it decides. -/
  clock : ManualClock
  /-- What it has counted. -/
  counters : Counters
deriving DecidableEq

namespace Manager

/-- A manager that has not served any call yet. -/
def startingAt (timing : LeaseTiming) (t : Instant) : Manager :=
  ⟨timing, .startingAt t, .zero⟩

/-- Serves a call while nothing else happens: how it ends, and the manager and the stores then. -/
def serve {σ α : Type} (m : Manager) (stores : Stores σ) (call : Call α) (s : σ) :
    Except Error α × Manager × σ :=
  let outcome := call.run stores m.clock.now s m.counters
  (outcome.result, { m with counters := outcome.counters }, outcome.state)

/-- A named count in a description. -/
def described (name : String) (n : Nat) : String := name ++ ": " ++ toString n

/-- A manager as a message for developers shows it. -/
def describe (m : Manager) : String :=
  "ReservationManager \x7b clock: ManualClock \x7b micros: " ++ toString m.clock.micros ++
    " \x7d, config: ReservationConfig \x7b " ++
      ", ".intercalate
        [described "heartbeat_interval_secs" m.timing.heartbeatSeconds,
         described "grace_period_multiplier" m.timing.multiplier] ++
    " \x7d, metrics: ReservationMetrics \x7b " ++
      ", ".intercalate
        [described "acquired_via_create" m.counters.acquiredByCreation,
         described "acquired_via_update" m.counters.acquiredByUpdate,
         described "already_in_progress" m.counters.alreadyInProgress,
         described "acquire_failure" m.counters.acquireFailed,
         described "extend_failure" m.counters.extendFailed,
         described "release_failure" m.counters.releaseFailed,
         described "get_tag_failure" m.counters.tagLookupFailed] ++
    " \x7d, .. \x7d"

end Manager

end LeaseCatalog
