import LeaseCatalog.Reservation
import LeaseCatalog.Store.Failure

/-!
# The tables of the database

The catalog keeps its data in three tables, any of which may be missing. Rows hold instants as
texts, and whatever a statement compares, it compares as texts. Each definition of the second half
is one statement, which a database executes as a whole: it gives what the statement returns and the
tables after it, or a failure, and then the tables are as they were.

A key has at most one reservation and one tag, and a dataset at most one artifact of a name. The
statements keep that by themselves: a row is inserted only where none is found.
-/

namespace LeaseCatalog

/-- A row of the table `reservations`. -/
structure ReservationRow where
  /-- What is reserved. -/
  key : Key
  /-- Who holds the lease. -/
  owner : String
  /-- When the lease has ended. -/
  expiresAt : String
  /-- When the row was inserted. -/
  createdAt : String
  /-- When the row was last written. -/
  updatedAt : String
  /-- What the owner keeps with it. -/
  metadata : Metadata
deriving DecidableEq

/-- A row that a newer one overwrites: only the time of insertion stays. -/
def ReservationRow.overwrittenBy (old new : ReservationRow) : ReservationRow :=
  { new with createdAt := old.createdAt }

/-- A row of the table `artifacts`. -/
structure ArtifactRow where
  /-- The dataset. -/
  dataset : Dataset
  /-- The name in the dataset. -/
  id : String
  /-- What its producer keeps with it. -/
  metadata : Metadata
  /-- When the row was inserted. -/
  createdAt : String
deriving DecidableEq

/-- A row of the table `tags`. -/
structure TagRow where
  /-- The key. -/
  key : Key
  /-- The name of the artifact in the key's dataset. -/
  artifactId : String
  /-- When the row was last written. -/
  createdAt : String
deriving DecidableEq

/-- The tables of a database. -/
structure Tables where
  /-- The rows of `reservations`, if the table is there. -/
  reservations : Option (List ReservationRow)
  /-- The rows of `artifacts`, if the table is there. -/
  artifacts : Option (List ArtifactRow)
  /-- The rows of `tags`, if the table is there. -/
  tags : Option (List TagRow)
deriving DecidableEq

namespace Tables

/-- A database without tables. -/
def empty : Tables := ⟨none, none, none⟩

/-- The database once every missing table is created. -/
def create (t : Tables) : Tables :=
  ⟨some (t.reservations.getD []), some (t.artifacts.getD []), some (t.tags.getD [])⟩

/-- A database with three tables and no rows. -/
def initial : Tables := empty.create

/-- The names of the tables that are there, in alphabetical order. -/
def names (t : Tables) : List String :=
  (if t.artifacts.isSome then ["artifacts"] else []) ++
    (if t.reservations.isSome then ["reservations"] else []) ++
      if t.tags.isSome then ["tags"] else []

/-- The rows of a table, or the failure that says that it is missing. -/
def rows {ρ : Type} (name : String) : Option (List ρ) → Except Failure (List ρ)
  | some rows => .ok rows
  | none => .error (.noSuchTable name)

/-! ## Statements on reservations -/

/-- Selects the reservation of a key. -/
def selectReservation (t : Tables) (key : Key) : Except Failure ReservationRow := do
  let rows ← rows "reservations" t.reservations
  match rows.find? (·.key == key) with
  | some row => .ok row
  | none => .error .rowNotFound

/-- Inserts a reservation, unless its key has one. -/
def insertReservation (t : Tables) (row : ReservationRow) : Except Failure Tables := do
  let rows ← rows "reservations" t.reservations
  if rows.any (·.key == row.key) then .error .duplicateReservation
  else .ok { t with reservations := some (row :: rows) }

/-- Inserts a reservation, or overwrites the one of its key if that has expired by `now` or has the
same owner. The result says whether a row was written. -/
def upsertReservation (t : Tables) (row : ReservationRow) (now : String) :
    Except Failure (Bool × Tables) := do
  let rows ← rows "reservations" t.reservations
  match rows.find? (·.key == row.key) with
  | none => .ok (true, { t with reservations := some (row :: rows) })
  | some old =>
    if old.expiresAt ≤ now ∨ old.owner = row.owner then
      .ok (true, { t with
        reservations := some
          (rows.map fun r => if r.key = row.key then old.overwrittenBy row else r) })
    else .ok (false, t)

/-- Gives the reservation of a key another owner and expiry if its expiry is the expected one. The
result is the number of rows written. -/
def updateReservation (t : Tables) (key : Key) (owner expiresAt updatedAt expected : String) :
    Except Failure (Nat × Tables) := do
  let rows ← rows "reservations" t.reservations
  let chosen := fun (r : ReservationRow) => r.key == key && r.expiresAt == expected
  .ok (rows.countP chosen, { t with
    reservations := some (rows.map fun r =>
      if chosen r then
        { r with owner := owner, expiresAt := expiresAt, updatedAt := updatedAt }
      else r) })

/-- Deletes the reservation of a key, if it has one. -/
def deleteReservation (t : Tables) (key : Key) : Except Failure Tables := do
  let rows ← rows "reservations" t.reservations
  .ok { t with reservations := some (rows.filter (·.key != key)) }

/-! ## Statements on artifacts and tags -/

/-- The row of an artifact. -/
def findArtifact (rows : List ArtifactRow) (dataset : Dataset) (id : String) :
    Option ArtifactRow :=
  rows.find? fun a => a.dataset == dataset && a.id == id

/-- Inserts an artifact, unless its dataset has one of its name. -/
def insertArtifact (t : Tables) (row : ArtifactRow) : Except Failure Tables := do
  let rows ← rows "artifacts" t.artifacts
  if (findArtifact rows row.dataset row.id).isSome then .ok t
  else .ok { t with artifacts := some (row :: rows) }

/-- Inserts a tag, or overwrites the one of its key, if its dataset has the artifact. The result
says whether a row was written. -/
def upsertTag (t : Tables) (row : TagRow) : Except Failure (Bool × Tables) := do
  let tags ← rows "tags" t.tags
  let artifacts ← rows "artifacts" t.artifacts
  if (findArtifact artifacts row.key.dataset row.artifactId).isNone then .ok (false, t)
  else if tags.any (·.key == row.key) then
    .ok (true, { t with tags := some (tags.map fun r => if r.key = row.key then row else r) })
  else .ok (true, { t with tags := some (row :: tags) })

/-- Selects the tag of a key together with its artifact. -/
def selectTag (t : Tables) (key : Key) : Except Failure (TagRow × ArtifactRow) := do
  let tags ← rows "tags" t.tags
  let artifacts ← rows "artifacts" t.artifacts
  match tags.find? (·.key == key) with
  | none => .error .rowNotFound
  | some tag =>
    match findArtifact artifacts key.dataset tag.artifactId with
    | some artifact => .ok (tag, artifact)
    | none => .error .rowNotFound

end Tables

end LeaseCatalog
