import LeaseCatalog.Store.Tables

/-!
# Edits by hand

Whoever has access to a database can change its tables past the catalog. The edits here put rows into
states that the catalog itself would never write, and take rows and whole tables away.
-/

namespace LeaseCatalog

/-- The tables of a database, by name. -/
inductive TableName where
  /-- The table `reservations`. -/
  | reservations
  /-- The table `artifacts`. -/
  | artifacts
  /-- The table `tags`. -/
  | tags
deriving DecidableEq

/-- The name of a table. -/
def TableName.text : TableName → String
  | .reservations => "reservations"
  | .artifacts => "artifacts"
  | .tags => "tags"

/-- The columns that hold text and do not tell rows apart. -/
inductive Column where
  /-- The owner of a reservation. -/
  | owner
  /-- The expiry of a reservation. -/
  | expiresAt
  /-- When a reservation was inserted. -/
  | reservationCreatedAt
  /-- When a reservation was last written. -/
  | updatedAt
  /-- When an artifact was inserted. -/
  | artifactCreatedAt
  /-- The artifact of a tag. -/
  | artifactId
  /-- When a tag was last written. -/
  | tagCreatedAt
deriving DecidableEq

/-- The columns, with the names of their tables and their own names. -/
def Column.all : List (TableName × String × Column) :=
  [(.reservations, "owner_id", .owner), (.reservations, "expires_at", .expiresAt),
   (.reservations, "created_at", .reservationCreatedAt), (.reservations, "updated_at", .updatedAt),
   (.artifacts, "created_at", .artifactCreatedAt), (.tags, "artifact_id", .artifactId),
   (.tags, "created_at", .tagCreatedAt)]

namespace Tables

/-- Changes the rows of a dataset; the result is the number of them. -/
def changeRows {ρ : Type} (datasetOf : ρ → Dataset) (dataset : Dataset) (change : ρ → ρ)
    (rows : List ρ) : Nat × List ρ :=
  let chosen := fun r => datasetOf r == dataset
  (rows.countP chosen, rows.map fun r => if chosen r then change r else r)

/-- Changes the rows of a dataset in the reservations. -/
def changeReservations (t : Tables) (d : Dataset) (change : ReservationRow → ReservationRow) :
    Except Failure (Nat × Tables) := do
  let rows ← rows "reservations" t.reservations
  let (count, rows) := changeRows (fun r => r.key.dataset) d change rows
  .ok (count, { t with reservations := some rows })

/-- Changes the rows of a dataset in the artifacts. -/
def changeArtifacts (t : Tables) (d : Dataset) (change : ArtifactRow → ArtifactRow) :
    Except Failure (Nat × Tables) := do
  let rows ← rows "artifacts" t.artifacts
  let (count, rows) := changeRows (fun r => r.dataset) d change rows
  .ok (count, { t with artifacts := some rows })

/-- Changes the rows of a dataset in the tags. -/
def changeTags (t : Tables) (d : Dataset) (change : TagRow → TagRow) :
    Except Failure (Nat × Tables) := do
  let rows ← rows "tags" t.tags
  let (count, rows) := changeRows (fun r => r.key.dataset) d change rows
  .ok (count, { t with tags := some rows })

/-- Sets a column in all rows of a dataset; the result is the number of them. -/
def setColumn (t : Tables) (column : Column) (d : Dataset) (value : String) :
    Except Failure (Nat × Tables) :=
  match column with
  | .owner => t.changeReservations d fun r => { r with owner := value }
  | .expiresAt => t.changeReservations d fun r => { r with expiresAt := value }
  | .reservationCreatedAt => t.changeReservations d fun r => { r with createdAt := value }
  | .updatedAt => t.changeReservations d fun r => { r with updatedAt := value }
  | .artifactCreatedAt => t.changeArtifacts d fun r => { r with createdAt := value }
  | .artifactId => t.changeTags d fun r => { r with artifactId := value }
  | .tagCreatedAt => t.changeTags d fun r => { r with createdAt := value }

/-- Deletes all rows of a table. -/
def clear (t : Tables) : TableName → Except Failure Tables
  | .reservations => (rows "reservations" t.reservations).map fun _ => { t with reservations := some [] }
  | .artifacts => (rows "artifacts" t.artifacts).map fun _ => { t with artifacts := some [] }
  | .tags => (rows "tags" t.tags).map fun _ => { t with tags := some [] }

/-- Removes a table. -/
def drop (t : Tables) : TableName → Except Failure Tables
  | .reservations => (rows "reservations" t.reservations).map fun _ => { t with reservations := none }
  | .artifacts => (rows "artifacts" t.artifacts).map fun _ => { t with artifacts := none }
  | .tags => (rows "tags" t.tags).map fun _ => { t with tags := none }

end Tables

end LeaseCatalog
