import LeaseCatalog.Key
import LeaseCatalog.Text.Bytes
import LeaseCatalog.Time.Instant

/-!
# Reservations, artifacts and tags

A reservation says who may compute the artifact of a key, and until when. It does not end by itself:
once its expiry has come, anyone may overwrite it, and until then only its owner may. The expiry
itself is already too late for the owner alone.

An artifact is a finished result in a dataset, and a tag names the artifact that a key stands for.
-/

namespace LeaseCatalog

/-- What callers keep with a reservation or an artifact, opaque to the catalog. -/
abbrev Metadata := Option ByteArray

/-- The lease on a key. -/
structure Reservation where
  /-- What is reserved. -/
  key : Key
  /-- Who holds the lease. -/
  owner : String
  /-- When the lease has ended. -/
  expiresAt : Instant
  /-- When the key was reserved, by whomever, after it had been free. -/
  createdAt : Instant
  /-- When the lease was last written. -/
  updatedAt : Instant
  /-- What the owner keeps with it. -/
  metadata : Metadata
deriving DecidableEq

namespace Reservation

/-- The lease that an owner takes at an instant. -/
def taken (key : Key) (owner : String) (expiresAt now : Instant) (metadata : Metadata) :
    Reservation :=
  ⟨key, owner, expiresAt, now, now, metadata⟩

/-- Whether a lease has ended. -/
def isExpiredAt (r : Reservation) (now : Instant) : Bool := decide (r.expiresAt ≤ now)

/-- Whether a caller may overwrite a lease. -/
def isClaimableBy (r : Reservation) (caller : String) (now : Instant) : Bool :=
  r.isExpiredAt now || r.owner == caller

end Reservation

/-- A finished result. -/
structure Artifact where
  /-- Its name in the dataset. -/
  id : String
  /-- The dataset that it belongs to. -/
  dataset : Dataset
  /-- What its producer keeps with it. -/
  metadata : Metadata
  /-- When it was stored. -/
  createdAt : Instant
deriving DecidableEq

/-- A key that stands for an artifact. -/
structure Tag where
  /-- The key. -/
  key : Key
  /-- The artifact. -/
  artifact : Artifact
  /-- When the key was made to stand for it. -/
  createdAt : Instant
deriving DecidableEq

end LeaseCatalog
