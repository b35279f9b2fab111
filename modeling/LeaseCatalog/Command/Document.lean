import LeaseCatalog.Json.Printer
import LeaseCatalog.Json.Syntax
import LeaseCatalog.Manager.Operations
import LeaseCatalog.Text.Utf8

/-!
# What commands read and print

Commands print documents. Metadata is given as the text of a document and stored in its compact
form; whatever bytes are stored, they are shown: as the document that they denote, or else as a
text.

A key also has a form of its own, whose members stand in the order of its parts. `Key.ofText?` reads
that form and the looser ones that mean the same: members in another order, members that a key does
not have, and lists of the parts.
-/

namespace LeaseCatalog

namespace Metadata

/-- The bytes that are stored for a text given as metadata. -/
def ofText (text : String) : Except Error ByteArray :=
  match Json.read? text with
  | some v => .ok v.compact.toUTF8
  | none => .error .metadataNotJson

/-- The metadata for an argument that may have been left out. -/
def ofArgument : Option String → Except Error Metadata
  | none => .ok none
  | some text =>
    match ofText text with
    | .ok bytes => .ok (some bytes)
    | .error e => .error e

/-- Stored bytes as a document shows them. -/
def shown (bytes : ByteArray) : Json :=
  match (String.fromUTF8? bytes).bind Json.read? with
  | some v => v
  | none => .string (Text.Utf8.lossy bytes.toList)

/-- Metadata as a document shows it. -/
def document : Metadata → Json
  | none => .null
  | some bytes => shown bytes

end Metadata

/-! ## Documents -/

/-- A dataset in a document. -/
def Dataset.document (d : Dataset) : Json :=
  .ofMembers [("project", .string d.project), ("domain", .string d.domain),
    ("name", .string d.name), ("version", .string d.version)]

/-- A key in a document. -/
def Key.document (k : Key) : Json :=
  .ofMembers [("dataset", k.dataset.document), ("tag_name", .string k.tag)]

/-- An artifact in a document. -/
def Artifact.document (a : Artifact) : Json :=
  .ofMembers [("id", .string a.id), ("dataset", a.dataset.document),
    ("metadata", Metadata.document a.metadata),
    ("created_at", .string (Timestamp.document a.createdAt))]

/-- A lease in a document. -/
def Lease.document (l : Lease) : Json :=
  .ofMembers [("key", l.key.document), ("owner_id", .string l.owner),
    ("expires_at", .string (Timestamp.document l.expiresAt)),
    ("heartbeat_interval_secs", .ofNat l.heartbeatSeconds),
    ("metadata", Metadata.document l.metadata)]

/-- Whether an attempt acquired the lease, in a word. -/
def Status.stateText (s : Status) : String :=
  if s.acquired then "ACQUIRED" else "ALREADY_IN_PROGRESS"

/-- A status in a document. -/
def Status.document (s : Status) : Json :=
  .ofMembers [("state", .string s.stateText), ("owner_id", .string s.owner),
    ("expires_at", .string (Timestamp.document s.expiresAt)),
    ("heartbeat_interval_secs", .ofNat s.heartbeatSeconds)]

/-- What a caller who reserves is told, as a document. -/
def Reserved.document : Reserved → Json
  | .artifact a => .ofMembers [("artifact", a.document)]
  | .status s => .ofMembers [("reservation", s.document)]

/-! ## The form of keys -/

/-- Members in the order in which they are given, without blanks. -/
def inOrder (members : List (String × String)) : String :=
  "\x7b" ++ ",".intercalate (members.map fun m => m.1 ++ ":" ++ m.2) ++ "\x7d"

/-- A text as a document without blanks. -/
def quotedText (s : String) : String := (Json.string s).compact

/-- The form of a key. -/
def Key.form (k : Key) : String :=
  inOrder
    [(quotedText "dataset",
      inOrder [(quotedText "project", quotedText k.dataset.project),
        (quotedText "domain", quotedText k.dataset.domain),
        (quotedText "name", quotedText k.dataset.name),
        (quotedText "version", quotedText k.dataset.version)]),
     (quotedText "tag_name", quotedText k.tag)]

open Json (Document)

/-- The parts of a tree, one for each name: the members of these names, each of which must be there
once, or the items of a list that has as many. -/
def parts? (names : List String) : Document → Option (List Document)
  | .array items => if items.length = names.length then some items else none
  | .object members =>
    if members.all (·.1.isSome) then
      names.mapM fun name =>
        match members.filter (·.1 == some name) with
        | [(_, part)] => some part
        | _ => none
    else none
  | _ => none

/-- The text of a tree that is one. -/
def text? : Document → Option String
  | .string content => content
  | _ => none

/-- The dataset of a tree. -/
def Dataset.ofDocument? (d : Document) : Option Dataset :=
  match (parts? ["project", "domain", "name", "version"] d).bind (·.mapM text?) with
  | some [project, domain, name, version] => some ⟨project, domain, name, version⟩
  | _ => none

/-- The key of a tree. -/
def Key.ofDocument? (d : Document) : Option Key :=
  match parts? ["dataset", "tag_name"] d with
  | some [dataset, tag] =>
    match Dataset.ofDocument? dataset, text? tag with
    | some dataset, some tag => some ⟨dataset, tag⟩
    | _, _ => none
  | _ => none

/-- The key of a text. Members that a key does not have may be nested without bound. -/
def Key.ofText? (text : String) : Option Key :=
  (Document.read? text.length text.toList).bind Key.ofDocument?

end LeaseCatalog
