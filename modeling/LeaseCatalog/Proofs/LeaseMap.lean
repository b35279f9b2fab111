import LeaseCatalog.Manager.Call
import LeaseCatalog.Proofs.Timestamps
import Mathlib.Data.Finmap

/-!
# Leases as a finite map

What a store of leases is meant to be: a finite map from keys to leases, whose instants are what is
kept of those that were given: their whole microseconds, but for leap seconds within a minute (see
`Instant.kept`). There are no rows here and no texts, and whether a lease may be overwritten is
decided by comparing instants. `LeaseMap.stores` answers the requests about leases from such a map,
so it can be set beside the stores of a database.

An instant that rows cannot hold is refused here as well, since the map is to answer as the rows do.
-/

namespace LeaseCatalog

/-- A lease as its owner was given it. -/
structure Grant where
  /-- The owner. -/
  owner : String
  /-- When the lease ends. -/
  expiresAt : Instant
  /-- What the owner keeps with it. -/
  metadata : Metadata
deriving DecidableEq

/-- What is granted by a reservation. -/
def Reservation.grant (r : Reservation) : Grant := ⟨r.owner, r.expiresAt, r.metadata⟩

/-- A lease may be overwritten once it has ended, and by its owner. -/
theorem Reservation.isClaimableBy_iff {r : Reservation} {caller : String} {now : Instant} :
    r.isClaimableBy caller now = true ↔ r.expiresAt ≤ now ∨ r.owner = caller := by
  unfold Reservation.isClaimableBy Reservation.isExpiredAt
  rw [Bool.or_eq_true, decide_eq_true_eq, beq_iff_eq]

/-- What may be overwritten at an instant may be at the one that is shown, which is no earlier. -/
theorem Reservation.isClaimableBy_shown {r : Reservation} {caller : String} {now : Instant}
    (h : r.isClaimableBy caller now = true) : r.isClaimableBy caller now.shown = true := by
  rw [isClaimableBy_iff] at h ⊢
  exact h.imp_left fun ended => Instant.le_trans ended now.le_shown

/-- A lease, without the key that it is on. -/
structure Entry where
  /-- Who holds the lease. -/
  owner : String
  /-- When the lease has ended. -/
  expiresAt : Instant
  /-- When the key was reserved after it had been free. -/
  createdAt : Instant
  /-- When the lease was last written. -/
  updatedAt : Instant
  /-- What the owner keeps with it. -/
  metadata : Metadata
deriving DecidableEq

namespace Entry

/-- What is kept of a reservation. -/
def of (r : Reservation) : Entry :=
  ⟨r.owner, r.expiresAt.kept, r.createdAt.kept, r.updatedAt.kept, r.metadata⟩

/-- The reservation of a key that has a lease. -/
def on (e : Entry) (key : Key) : Reservation :=
  ⟨key, e.owner, e.expiresAt, e.createdAt, e.updatedAt, e.metadata⟩

/-- What is granted by a lease. -/
def grant (e : Entry) : Grant := ⟨e.owner, e.expiresAt, e.metadata⟩

/-- The lease after a newer one has taken its place: only the time of creation stays. -/
def replacedBy (old new : Entry) : Entry := { new with createdAt := old.createdAt }

end Entry

/-- Refuses the first instant that rows cannot hold. -/
def checkStorable : List Instant → Except Error Unit
  | [] => .ok ()
  | t :: rest => if t.Storable then checkStorable rest else .error (.notStorable t)

/-- Which keys have a lease. -/
abbrev LeaseMap : Type := Finmap fun _ : Key => Entry

namespace LeaseMap

/-- The reservation of a key. -/
def get (m : LeaseMap) (key : Key) : Except Error Reservation :=
  match m.lookup key with
  | some e => .ok (e.on key)
  | none => .error .entryNotFound

/-- Puts a lease on a key that has none. -/
def create (d : Dialect) (m : LeaseMap) (r : Reservation) : Except Error LeaseMap := do
  checkStorable [r.expiresAt, r.createdAt, r.updatedAt]
  if r.key ∈ m then .error (d.translate .duplicateReservation)
  else .ok (m.insert r.key (.of r))

/-- Puts a lease on a key that has none, or whose lease the new owner may claim at the instant that
is shown. -/
def createOrUpdate (m : LeaseMap) (r : Reservation) (now : Instant) : Except Error LeaseMap := do
  checkStorable [r.expiresAt, r.createdAt, r.updatedAt, now]
  match m.lookup r.key with
  | none => .ok (m.insert r.key (.of r))
  | some e =>
    if (e.on r.key).isClaimableBy r.owner now.shown then
      .ok (m.insert r.key (e.replacedBy (.of r)))
    else .error (.heldByAnother r.key)

/-- Gives a lease another owner and expiry if it ends in the microsecond that is kept of the
expected end. The result counts the leases that were changed. -/
def update (m : LeaseMap) (u : Leases.Update) : Except Error (Nat × LeaseMap) := do
  checkStorable [u.expiresAt, u.now, u.expected]
  match m.lookup u.key with
  | none => .ok (0, m)
  | some e =>
    if e.expiresAt = u.expected.kept then
      .ok (1, m.insert u.key { e with
        owner := u.owner
        expiresAt := u.expiresAt.kept
        updatedAt := u.now.kept })
    else .ok (0, m)

/-- The answer of something that changes the map and gives nothing else, and the map after it. -/
def changing (m : LeaseMap) : Except Error LeaseMap → Except Error Unit × LeaseMap
  | .ok changed => (.ok (), changed)
  | .error e => (.error e, m)

/-- Answers the requests about leases. It knows of no artifact, so every other one finds nothing. -/
def stores (d : Dialect) : Stores LeaseMap
  | .get key, m => (m.get key, m)
  | .create r, m => changing m (m.create d r)
  | .update u, m =>
    match m.update u with
    | .ok (count, changed) => (.ok count, changed)
    | .error e => (.error e, m)
  | .createOrUpdate r now, m => changing m (m.createOrUpdate r now)
  | .delete key, m => (.ok (), m.erase key)
  | .getTag _, m => (.error .entryNotFound, m)
  | .createArtifact _, m => (.error .entryNotFound, m)
  | .addTag _ _ _, m => (.error .entryNotFound, m)

end LeaseMap

/-- Whether a request is about leases. -/
def Request.onLeases : Request → Bool
  | .get _ | .create _ | .update _ | .createOrUpdate _ _ | .delete _ => true
  | .getTag _ | .createArtifact _ | .addTag _ _ _ => false

/-- The instants of a request about leases that are written or compared, in the order in which they
are encoded. -/
def Request.leaseInstants : Request → List Instant
  | .create r => [r.expiresAt, r.createdAt, r.updatedAt]
  | .createOrUpdate r now => [r.expiresAt, r.createdAt, r.updatedAt, now]
  | .update u => [u.expiresAt, u.now, u.expected]
  | .get _ | .delete _ | .getTag _ | .createArtifact _ | .addTag _ _ _ => []

/-- Has stores answer requests one after the other: the answers, and the state of the stores
then. -/
def Stores.answers {σ : Type} (stores : Stores σ) (s : σ) :
    List Request → List ((r : Request) × r.Answer) × σ
  | [] => ([], s)
  | r :: rest =>
    let (answer, s) := stores r s
    let (answers, s) := answers stores s rest
    (⟨r, answer⟩ :: answers, s)

end LeaseCatalog
