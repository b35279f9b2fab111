import LeaseCatalog.Json.Value
import LeaseCatalog.Store.Tables
import LeaseCatalog.Text.Hexadecimal

/-!
# Listed tables

A listing shows the rows of a table in the order of the columns that tell them apart, and a document
of all listings holds everything that is in a database. `Tables.ofListing?` makes the tables again
from such a document.
-/

namespace LeaseCatalog

/-- The columns that tell keys apart, in order. -/
def Key.columns (k : Key) : List String :=
  [k.dataset.project, k.dataset.domain, k.dataset.name, k.dataset.version, k.tag]

/-- The columns that tell artifacts apart, in order. -/
def ArtifactRow.columns (a : ArtifactRow) : List String :=
  [a.dataset.project, a.dataset.domain, a.dataset.name, a.dataset.version, a.id]

namespace Tables

/-- Whether texts come before others, or are the same: the first that differ decide. -/
def notAfter : List String → List String → Bool
  | a :: as, b :: bs => if a = b then notAfter as bs else decide (a < b)
  | [], _ => true
  | _ :: _, [] => false

/-- Rows in the order of some of their columns. -/
def sortedBy {ρ : Type} (columns : ρ → List String) (rows : List ρ) : List ρ :=
  rows.mergeSort fun a b => notAfter (columns a) (columns b)

/-- The tables with their rows in order. -/
def sorted (t : Tables) : Tables where
  reservations := t.reservations.map (sortedBy fun r => r.key.columns)
  artifacts := t.artifacts.map (sortedBy ArtifactRow.columns)
  tags := t.tags.map (sortedBy fun r => r.key.columns)

/-! ## Documents of listings -/

/-- Metadata in a listing. -/
def metadataListing : Metadata → Json
  | none => .null
  | some bytes => .string (Text.hexText bytes)

/-- A row in a listing: its texts, and its metadata behind them. -/
def rowListing (texts : List String) (metadata : List Json) : Json :=
  .array (texts.map .string ++ metadata)

/-- A table in a document. -/
def tableListing {ρ : Type} (row : ρ → Json) : Option (List ρ) → Json
  | none => .null
  | some rows => .array (rows.map row)

/-- The document of all listings. -/
def listing (t : Tables) : Json :=
  let t := t.sorted
  .ofMembers
    [("reservations", tableListing (fun r => rowListing
        (r.key.columns ++ [r.owner, r.expiresAt, r.createdAt, r.updatedAt])
        [metadataListing r.metadata]) t.reservations),
     ("artifacts", tableListing (fun r => rowListing (r.columns ++ [r.createdAt])
        [metadataListing r.metadata]) t.artifacts),
     ("tags", tableListing (fun r => rowListing
        (r.key.columns ++ [r.artifactId, r.createdAt]) []) t.tags)]

/-- The metadata of a listing. -/
def metadataOf? : Json → Option Metadata
  | .null => some none
  | .string hex => (Text.ofHexText? hex).map some
  | _ => none

/-- The reservation of a listing. -/
def reservationOf? : Json → Option ReservationRow
  | .array [.string p, .string d, .string n, .string v, .string t, .string owner,
      .string expiresAt, .string createdAt, .string updatedAt, metadata] =>
    (metadataOf? metadata).map fun metadata =>
      ⟨⟨⟨p, d, n, v⟩, t⟩, owner, expiresAt, createdAt, updatedAt, metadata⟩
  | _ => none

/-- The artifact of a listing. -/
def artifactOf? : Json → Option ArtifactRow
  | .array [.string p, .string d, .string n, .string v, .string id, .string createdAt, metadata] =>
    (metadataOf? metadata).map fun metadata => ⟨⟨p, d, n, v⟩, id, metadata, createdAt⟩
  | _ => none

/-- The tag of a listing. -/
def tagOf? : Json → Option TagRow
  | .array [.string p, .string d, .string n, .string v, .string t, .string id,
      .string createdAt] => some ⟨⟨⟨p, d, n, v⟩, t⟩, id, createdAt⟩
  | _ => none

/-- The rows of a table in a document. -/
def tableOf? {ρ : Type} (row? : Json → Option ρ) : Option Json → Option (Option (List ρ))
  | some .null => some none
  | some (.array items) => (items.mapM row?).map some
  | _ => none

/-- The tables of a document of listings. -/
def ofListing? (v : Json) : Option Tables :=
  match tableOf? reservationOf? (v.member? "reservations"),
      tableOf? artifactOf? (v.member? "artifacts"), tableOf? tagOf? (v.member? "tags") with
  | some reservations, some artifacts, some tags => some ⟨reservations, artifacts, tags⟩
  | _, _, _ => none

end Tables

end LeaseCatalog
