import LeaseCatalog.Store.Dialect
import LeaseCatalog.Store.Tables

/-!
# Stored leases

The operations on the reservations of a database, for callers who think in instants: a reservation
is encoded before a statement runs and decoded after it, and failures are translated by the dialect
of the database. An instant that no row can hold is refused before anything is written.

A conditional write that loses is an error of kind `leaseConflict`; deleting what is not there is
none.
-/

namespace LeaseCatalog

/-- The text of an instant in a row, or the error that says that it has none. -/
def storedText (t : Instant) : Except Error String :=
  match Timestamp.encode? t with
  | some s => .ok s
  | none => .error (.notStorable t)

/-- The instant of a text in a column of a row. -/
def storedInstant (column text : String) : Except Error Instant :=
  match Timestamp.decode text with
  | .ok t => .ok t
  | .error fault => .error (.undecodable column fault)

/-- The result of a statement, its failure translated. -/
def Dialect.executed {α : Type} (d : Dialect) : Except Failure α → Except Error α
  | .ok a => .ok a
  | .error failure => .error (d.translate failure)

namespace Reservation

/-- The row that holds a reservation. The expiry is encoded first, then the other two instants. -/
def toRow (r : Reservation) : Except Error ReservationRow := do
  let expiresAt ← storedText r.expiresAt
  let createdAt ← storedText r.createdAt
  let updatedAt ← storedText r.updatedAt
  .ok ⟨r.key, r.owner, expiresAt, createdAt, updatedAt, r.metadata⟩

/-- The reservation that a row holds. The expiry is decoded first, then the other two instants. -/
def ofRow (row : ReservationRow) : Except Error Reservation := do
  let expiresAt ← storedInstant "expires_at" row.expiresAt
  let createdAt ← storedInstant "created_at" row.createdAt
  let updatedAt ← storedInstant "updated_at" row.updatedAt
  .ok ⟨row.key, row.owner, expiresAt, createdAt, updatedAt, row.metadata⟩

end Reservation

namespace Leases

/-- The reservation of a key. -/
def get (d : Dialect) (t : Tables) (key : Key) : Except Error Reservation := do
  let row ← d.executed (t.selectReservation key)
  Reservation.ofRow row

/-- Stores a reservation for a key that has none. -/
def create (d : Dialect) (t : Tables) (r : Reservation) : Except Error Tables := do
  let row ← r.toRow
  d.executed (t.insertReservation row)

/-- The row of a reservation and the text of the instant at which it is to be stored. -/
def rowAt (r : Reservation) (now : Instant) : Except Error (ReservationRow × String) := do
  let row ← r.toRow
  let now ← storedText now
  .ok (row, now)

/-- Stores a reservation for a key that has none, or whose reservation has expired or has the same
owner. -/
def createOrUpdate (d : Dialect) (t : Tables) (r : Reservation) (now : Instant) :
    Except Error Tables := do
  let (row, now) ← rowAt r now
  let (written, t) ← d.executed (t.upsertReservation row now)
  if written then .ok t else .error (.heldByAnother r.key)

/-- What a conditional update is to do. -/
structure Update where
  /-- The key. -/
  key : Key
  /-- The expiry that the reservation must have. -/
  expected : Instant
  /-- Its new owner. -/
  owner : String
  /-- Its new expiry. -/
  expiresAt : Instant
  /-- The instant of the update. -/
  now : Instant
deriving DecidableEq

/-- The texts of the instants of an update: the new expiry, the instant of the update and the
expected expiry, encoded in this order. -/
def Update.texts (u : Update) : Except Error (String × String × String) := do
  let expiresAt ← storedText u.expiresAt
  let updatedAt ← storedText u.now
  let expected ← storedText u.expected
  .ok (expiresAt, updatedAt, expected)

/-- Gives a reservation another owner and expiry if it has the expected expiry. The result is the
number of rows written: none if the reservation was moved, or removed, by someone else. -/
def update (d : Dialect) (t : Tables) (u : Update) : Except Error (Nat × Tables) := do
  let (expiresAt, updatedAt, expected) ← u.texts
  d.executed (t.updateReservation u.key u.owner expiresAt updatedAt expected)

/-- Removes the reservation of a key, if it has one. -/
def delete (d : Dialect) (t : Tables) (key : Key) : Except Error Tables :=
  d.executed (t.deleteReservation key)

end Leases

end LeaseCatalog
