import LeaseCatalog.Command.Arguments
import LeaseCatalog.Command.Document
import LeaseCatalog.Session

/-!
# Running commands

A command is served by a manager and its stores, and ends with the document that it prints. What it
takes from the command line it checks before it asks anything: metadata must be the text of a
document.
-/

namespace LeaseCatalog.Command

/-- What is printed once the tables are there. -/
def initialised : Json := .ofMembers [("initialized", .bool true)]

/-- What is printed once a key is free. -/
def released : Json := .ofMembers [("released", .bool true)]

/-- What is printed once a key stands for an artifact. -/
def tagged (key : Key) (artifactId : String) : Json :=
  .ofMembers [("tagged", .ofMembers [("key", key.document), ("artifact_id", .string artifactId)])]

variable {σ : Type}

/-- Stores an artifact and makes a key stand for it. -/
def runTag (stores : Stores σ) (now : Instant) (key : Key) (artifactId : String)
    (metadata : Metadata) (s : σ) : Except Error Json × σ :=
  match stores (.createArtifact ⟨artifactId, key.dataset, metadata, now⟩) s with
  | (.error e, s) => (.error e, s)
  | (.ok (), s) =>
    match stores (.addTag key artifactId now) s with
    | (.error e, s) => (.error e, s)
    | (.ok (), s) => (.ok (tagged key artifactId), s)

/-- Runs a command: how it ends, and the manager and the stores then. A tag bears the time of day,
not that of the manager's clock. -/
def run (stores : Stores σ) (m : Manager) (timeOfDay : Instant) (c : Command) (s : σ) :
    Except Error Json × Manager × σ :=
  match c with
  | .initialise => (.ok initialised, m, s)
  | .reserve key owner text =>
    match Metadata.ofArgument text with
    | .error e => (.error e, m, s)
    | .ok metadata =>
      m.serve stores (.reserve m.timing ⟨key, owner, metadata⟩ Reserved.document) s
  | .extend key owner text =>
    match Metadata.ofArgument text with
    | .error e => (.error e, m, s)
    | .ok metadata => m.serve stores (.extend m.timing ⟨key, owner, metadata⟩ Lease.document) s
  | .release key => m.serve stores (.release key released) s
  | .get key =>
    m.serve stores (.get m.timing key fun found => found.elim .null Lease.document) s
  | .tag key artifactId text =>
    match Metadata.ofArgument text with
    | .error e => (.error e, m, s)
    | .ok metadata =>
      let (result, s) := runTag stores timeOfDay key artifactId metadata s
      (result, m, s)

end LeaseCatalog.Command

namespace LeaseCatalog

/-- Runs a command by a manager of a session. -/
def Session.runCommand (s : Session) (i : Nat) (timeOfDay : Instant) (c : Command) :
    Except Error Json × Session :=
  let (result, m, t) := c.run (.ofTables s.dialect) (s.managers i) timeOfDay s.tables
  (result, { s.replace i m with tables := t })

end LeaseCatalog
