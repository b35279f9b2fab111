import LeaseCatalog.Store.Tags

/-!
# Requests to the stores

Everything that is asked of the stores of a catalog is a `Request`, and `Request.Value` says what
the store gives where it succeeds. `Request.perform` answers a request from the tables of a
database, in one step: a request that fails leaves the tables as they were.
-/

namespace LeaseCatalog

/-- What is asked of a store. -/
inductive Request where
  /-- What does a key stand for? -/
  | getTag (key : Key)
  /-- Store an artifact. -/
  | createArtifact (artifact : Artifact)
  /-- Make a key stand for an artifact. -/
  | addTag (key : Key) (artifactId : String) (now : Instant)
  /-- What is the reservation of a key? -/
  | get (key : Key)
  /-- Store a reservation for a key that has none. -/
  | create (reservation : Reservation)
  /-- Move a reservation that has the expected expiry. -/
  | update (update : Leases.Update)
  /-- Store a reservation, where this is allowed at an instant. -/
  | createOrUpdate (reservation : Reservation) (now : Instant)
  /-- Remove the reservation of a key. -/
  | delete (key : Key)
deriving DecidableEq

namespace Request

/-- What a store gives for a request where it succeeds. -/
def Value : Request → Type
  | .getTag _ => Tag
  | .get _ => Reservation
  | .update _ => Nat
  | .createArtifact _ | .addTag _ _ _ | .create _ | .createOrUpdate _ _ | .delete _ => Unit

/-- What a store answers to a request. -/
abbrev Answer (r : Request) : Type := Except Error r.Value

/-- Whether a request is one to write. -/
def writes : Request → Bool
  | .getTag _ | .get _ => false
  | .createArtifact _ | .addTag _ _ _ | .create _ | .update _ | .createOrUpdate _ _ | .delete _ =>
    true

/-- What is wrong with a request by itself, before the database sees any of it. -/
def fault? (r : Request) : Option Error :=
  let checked : Except Error Unit :=
    match r with
    | .getTag _ | .get _ | .delete _ => .ok ()
    | .createArtifact a => (Tags.artifactRow a).map fun _ => ()
    | .addTag key id now => (Tags.tagRow key id now).map fun _ => ()
    | .create r => r.toRow.map fun _ => ()
    | .update u => u.texts.map fun _ => ()
    | .createOrUpdate r now => (Leases.rowAt r now).map fun _ => ()
  match checked with
  | .ok () => none
  | .error e => some e

/-- The answer of something that changes the tables and gives nothing else, and the tables after
it. -/
def changing (t : Tables) : Except Error Tables → Except Error Unit × Tables
  | .ok changed => (.ok (), changed)
  | .error e => (.error e, t)

/-- The answer that the tables of a database give, and the tables after it. -/
def perform (d : Dialect) : (r : Request) → Tables → r.Answer × Tables
  | .getTag key, t => (Tags.get d t key, t)
  | .createArtifact a, t => changing t (Tags.createArtifact d t a)
  | .addTag key id now, t => changing t (Tags.add d t key id now)
  | .get key, t => (Leases.get d t key, t)
  | .create r, t => changing t (Leases.create d t r)
  | .update u, t =>
    match Leases.update d t u with
    | .ok (count, changed) => (.ok count, changed)
    | .error e => (.error e, t)
  | .createOrUpdate r now, t => changing t (Leases.createOrUpdate d t r now)
  | .delete key, t => changing t (Leases.delete d t key)

end Request

end LeaseCatalog
