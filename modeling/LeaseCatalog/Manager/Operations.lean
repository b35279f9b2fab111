import LeaseCatalog.Config.Settings
import LeaseCatalog.Manager.Call

/-!
# Reserving, extending and releasing

A caller who wants the artifact of a key either gets it, if the key's tag names one, or contends for
the lease on computing it. Contending takes one look at the reservation and at most one write:

1. The row that is found decides whether the caller may write at all: if there is none, if it has
   expired, or if it is the caller's own.
2. The store checks this once more at the moment of the write. A row that has changed since the look
   can cost the caller the lease, but never give it a second owner.
3. A caller who loses at the write looks once more, to say who has won.

Nothing is remembered between calls, and nobody tries again on the caller's behalf.
-/

namespace LeaseCatalog

/-- Who wants a lease on what. -/
structure Claim where
  /-- The key. -/
  key : Key
  /-- The caller. -/
  owner : String
  /-- What the caller keeps with the lease. -/
  metadata : Metadata
deriving DecidableEq

/-- Who holds a lease after an attempt to reserve. -/
structure Status where
  /-- Whether the attempt acquired it. -/
  acquired : Bool
  /-- The holder. -/
  owner : String
  /-- When the lease has ended. -/
  expiresAt : Instant
  /-- The seconds between two heartbeats. -/
  heartbeatSeconds : Nat
deriving DecidableEq

/-- What a caller who reserves is told. -/
inductive Reserved where
  /-- The artifact is there already. -/
  | artifact (a : Artifact)
  /-- It is to be computed, and this is who may. -/
  | status (s : Status)
deriving DecidableEq

/-- A reservation as callers see it. -/
structure Lease where
  /-- The key. -/
  key : Key
  /-- The holder. -/
  owner : String
  /-- When the lease has ended. -/
  expiresAt : Instant
  /-- The seconds between two heartbeats. -/
  heartbeatSeconds : Nat
  /-- What the holder keeps with it. -/
  metadata : Metadata
deriving DecidableEq

/-- What came of contending for a lease. -/
structure Attempt where
  /-- Whether it was acquired. -/
  acquired : Bool
  /-- The reservation of whoever holds it. -/
  holder : Reservation
deriving DecidableEq

/-- What was found, where finding nothing is no error. -/
def foundOrNone {β : Type} : Except Error β → Except Error (Option β)
  | .ok b => .ok (some b)
  | .error e => if e.isNotFound then .ok none else .error e

namespace Claim

/-- The first fault of the key or the caller's name. -/
def validate (c : Claim) : Except Error Unit := do
  c.key.validate
  validateOwner c.owner

/-- The lease that a claim is for, if it starts at `now`. -/
def lease? (c : Claim) (timing : LeaseTiming) (now : Instant) : Except Error Reservation :=
  match timing.ttl? with
  | .error e => .error e
  | .ok seconds =>
    match now.addSeconds? seconds with
    | none => .error (.expiryOverflow now)
    | some expiresAt => .ok (.taken c.key c.owner expiresAt now c.metadata)

end Claim

namespace Call

variable {α : Type}

/-- Says who has won, after a write that lost. If the winner has released the key by then, the lease
of nobody that ends now says that the key is free. -/
def reportWinner (key : Key) (now : Instant) (failure : Event) (give : Attempt → α) : Call α :=
  .record .alreadyInProgress <| .ask (.get key) fun answer =>
    match foundOrNone answer with
    | .ok (some winner) => .done (.ok (give ⟨false, winner⟩))
    | .ok none => .done (.ok (give ⟨false, .taken key "" now now none⟩))
    | .error e => failed failure e

/-- Writes the lease of a claim on a key that was found free or not. -/
def write (c : Claim) (timing : LeaseTiming) (now : Instant) (free : Bool) (failure : Event)
    (give : Attempt → α) : Call α :=
  match c.lease? timing now with
  | .error e => failed failure e
  | .ok lease =>
    .ask (.createOrUpdate lease now) fun answer =>
      match answer with
      | .ok () =>
        .record (if free then .acquiredByCreation else .acquiredByUpdate)
          (.done (.ok (give ⟨true, lease⟩)))
      | .error e =>
        if e.isLeaseConflict then reportWinner c.key now failure give else failed failure e

/-- Contends for the lease on a key. -/
def contend (c : Claim) (timing : LeaseTiming) (failure : Event) (give : Attempt → α) : Call α :=
  .readClock fun now => .ask (.get c.key) fun answer =>
    match foundOrNone answer with
    | .error e => failed failure e
    | .ok none => write c timing now true failure give
    | .ok (some current) =>
      if current.isClaimableBy c.owner now then write c timing now false failure give
      else .record .alreadyInProgress (.done (.ok (give ⟨false, current⟩)))

end Call

/-- A reservation as callers see it. -/
def Reservation.toLease (r : Reservation) (timing : LeaseTiming) : Lease :=
  ⟨r.key, r.owner, r.expiresAt, timing.heartbeatInterval, r.metadata⟩

/-- Who holds a lease after an attempt. -/
def Attempt.status (a : Attempt) (timing : LeaseTiming) : Status :=
  ⟨a.acquired, a.holder.owner, a.holder.expiresAt, timing.heartbeatInterval⟩

namespace Call

variable {α : Type}

/-- Gives the artifact of a key, or contends for the lease on computing it. -/
def reserve (timing : LeaseTiming) (c : Claim) (give : Reserved → α) : Call α :=
  match c.validate with
  | .error e => .done (.error e)
  | .ok () =>
    .ask (.getTag c.key) fun answer =>
      match foundOrNone answer with
      | .ok (some tag) => .done (.ok (give (.artifact tag.artifact)))
      | .ok none =>
        contend c timing .acquireFailed fun attempt => give (.status (attempt.status timing))
      | .error e => failed .tagLookupFailed e

/-- Renews the lease on a key, or takes it over if it has expired, and says who holds it. -/
def extend (timing : LeaseTiming) (c : Claim) (give : Lease → α) : Call α :=
  match c.validate with
  | .error e => .done (.error e)
  | .ok () => contend c timing .extendFailed fun attempt => give (attempt.holder.toLease timing)

/-- Frees a key, whoever has reserved it. -/
def release (key : Key) (give : α) : Call α :=
  match key.validate with
  | .error e => .done (.error e)
  | .ok () =>
    .ask (.delete key) fun answer =>
      match answer with
      | .ok () => .done (.ok give)
      | .error e => failed .releaseFailed e

/-- Says who has reserved a key. -/
def get (timing : LeaseTiming) (key : Key) (give : Option Lease → α) : Call α :=
  match key.validate with
  | .error e => .done (.error e)
  | .ok () =>
    .ask (.get key) fun answer =>
      match foundOrNone answer with
      | .ok found => .done (.ok (give (found.map fun r => r.toLease timing)))
      | .error e => .done (.error e)

end Call

/-! ## Operations as data -/

/-- What callers ask of a manager. -/
inductive Operation where
  /-- The artifact of a key, or the lease on computing it. -/
  | reserve (c : Claim)
  /-- A longer lease. -/
  | extend (c : Claim)
  /-- The end of a lease. -/
  | release (key : Key)
  /-- Who holds a lease. -/
  | get (key : Key)
deriving DecidableEq

/-- What a manager replies. -/
inductive Reply where
  /-- To a caller who reserves. -/
  | reserved (r : Reserved)
  /-- To a caller who extends. -/
  | extended (l : Lease)
  /-- To a caller who releases. -/
  | released
  /-- To a caller who asks who holds a lease. -/
  | found (l : Option Lease)
deriving DecidableEq

/-- The call that serves an operation. -/
def Operation.call (timing : LeaseTiming) : Operation → Call Reply
  | .reserve c => .reserve timing c .reserved
  | .extend c => .extend timing c .extended
  | .release key => .release key .released
  | .get key => .get timing key .found

end LeaseCatalog
