import LeaseCatalog.Store.Leases

/-!
# Stored artifacts and tags

A producer stores an artifact and then makes a tag stand for it. An artifact that is stored twice
stays as it was first stored, a tag that is moved stands for the artifact that came last, and a tag
can never stand for an artifact that its dataset does not have.
-/

namespace LeaseCatalog.Tags

/-- The row of an artifact, which must have a name and a sensible dataset. -/
def artifactRow (a : Artifact) : Except Error ArtifactRow := do
  a.dataset.validate
  if Text.allBlank a.id then .error .blankArtifactId
  else
    let createdAt ← storedText a.createdAt
    .ok ⟨a.dataset, a.id, a.metadata, createdAt⟩

/-- Stores an artifact, unless its dataset has one of its name. -/
def createArtifact (d : Dialect) (t : Tables) (a : Artifact) : Except Error Tables := do
  let row ← artifactRow a
  d.executed (t.insertArtifact row)

/-- The row of a tag, which must have a sensible key. -/
def tagRow (key : Key) (artifactId : String) (now : Instant) : Except Error TagRow := do
  key.validate
  let createdAt ← storedText now
  .ok ⟨key, artifactId, createdAt⟩

/-- Makes a key stand for an artifact of its dataset. -/
def add (d : Dialect) (t : Tables) (key : Key) (artifactId : String) (now : Instant) :
    Except Error Tables := do
  let row ← tagRow key artifactId now
  let (written, t) ← d.executed (t.upsertTag row)
  if written then .ok t else .error (.artifactMissing artifactId key.dataset)

/-- The tag that two rows make. The artifact's instant is decoded first. -/
def ofRows (tag : TagRow) (artifact : ArtifactRow) : Except Error Tag := do
  let artifactCreatedAt ← storedInstant "artifacts.created_at" artifact.createdAt
  let createdAt ← storedInstant "tags.created_at" tag.createdAt
  .ok ⟨tag.key, ⟨tag.artifactId, tag.key.dataset, artifact.metadata, artifactCreatedAt⟩, createdAt⟩

/-- What a key stands for. -/
def get (d : Dialect) (t : Tables) (key : Key) : Except Error Tag := do
  let (tag, artifact) ← d.executed (t.selectTag key)
  ofRows tag artifact

end LeaseCatalog.Tags
