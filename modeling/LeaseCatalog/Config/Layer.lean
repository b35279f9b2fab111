import LeaseCatalog.Config.Settings
import LeaseCatalog.Toml.Syntax

/-!
# Layers of settings

Settings come in layers, and each layer sets some of them. Applying a layer overrides what it sets
and leaves everything else as it was, so of several layers the last one that sets a field decides it.

`Layer.read` reads a layer from the text of a configuration file. A file has three sections, each
with keys of its own; a key that a section does not know is a fault, and so is a value that its key
cannot have. A section may also be written as a list of the values of its keys, in order.
-/

namespace LeaseCatalog

/-- The settings that one layer sets. -/
structure Layer where
  /-- The seconds between two heartbeats of an owner. -/
  heartbeatSeconds : Option Nat
  /-- How many heartbeats long a lease lasts. -/
  multiplier : Option Nat
  /-- The address of the database. -/
  url : Option String
  /-- The make of the database. -/
  dialect : Option Dialect
  /-- The most connections to the database at a time. -/
  maxConnections : Option Nat
  /-- The milliseconds that a request may take. -/
  timeoutMillis : Option Nat
deriving DecidableEq

namespace Layer

/-- The layer that sets nothing. -/
def empty : Layer := ⟨none, none, none, none, none, none⟩

/-- The settings once a layer is put over them. -/
def apply (l : Layer) (c : Config) : Config where
  timing := ⟨l.heartbeatSeconds.getD c.timing.heartbeatSeconds,
    l.multiplier.getD c.timing.multiplier⟩
  url := l.url.getD c.url
  dialect := l.dialect.getD c.dialect
  maxConnections := l.maxConnections.getD c.maxConnections
  timeoutMillis := l.timeoutMillis.getD c.timeoutMillis

/-! ## Values of keys -/

open Toml (Item Entries)

/-- What was found where something else was wanted. -/
def found : Item → String
  | .string s => "string " ++ Text.quoted s
  | .integer n => "integer `" ++ toString n ++ "`"
  | .real x => "floating point `" ++ x.text ++ "`"
  | .boolean true => "boolean `true`"
  | .boolean false => "boolean `false`"
  | .datetime | .table _ _ => "map"
  | .array _ | .tables _ => "sequence"

/-- Reads a whole number of at most `bits` bits. -/
def whole (bits : Nat) : Item → Except LayerFault Nat
  | .integer n =>
    if 0 ≤ n ∧ n < Nat.pow 2 bits then .ok n.toNat
    else .error (.outOfRange n ("u" ++ toString bits))
  | item => .error (.wrongKind (found item) ("u" ++ toString bits))

/-- Reads a text. -/
def text : Item → Except LayerFault String
  | .string s => .ok s
  | item => .error (.wrongKind (found item) "a string")

/-- Reads a dialect from its name. -/
def dialectNamed (name : String) : Except LayerFault Dialect :=
  match Dialect.ofExactText? name with
  | some d => .ok d
  | none => .error (.unknownName name (Dialect.all.map Dialect.text))

/-- Whether an item holds nothing. -/
def holdsNothing : Item → Bool
  | .array items => items.isEmpty
  | .table _ entries => entries.isEmpty
  | .tables all => all.isEmpty
  | _ => false

/-- Reads a dialect: a name, or a table whose only key is one. The key must stand for nothing. -/
def dialectOf : Item → Except LayerFault Dialect
  | .string name => dialectNamed name
  | .table _ [(name, item)] =>
    match dialectNamed name with
    | .ok d => if holdsNothing item then .ok d else .error .noName
    | .error fault => .error fault
  | _ => .error .noName

/-! ## Sections -/

/-- A key of a section. -/
structure Setting where
  /-- Its name. -/
  key : String
  /-- Puts a value of it into a layer. -/
  read : Item → Layer → Except LayerFault Layer

/-- The settings of a section. -/
structure Section where
  /-- Its name. -/
  key : String
  /-- What messages call it. -/
  title : String
  /-- Its keys. -/
  settings : List Setting

/-- How long leases last. -/
def reservation : Section where
  key := "reservation"
  title := "struct PartialReservationConfig"
  settings :=
    [⟨"heartbeat_interval_secs", fun item l =>
        (whole 64 item).map fun n => { l with heartbeatSeconds := some n }⟩,
     ⟨"grace_period_multiplier", fun item l =>
        (whole 32 item).map fun n => { l with multiplier := some n }⟩]

/-- Which database holds the rows. -/
def database : Section where
  key := "database"
  title := "struct PartialDatabaseConfig"
  settings :=
    [⟨"url", fun item l => (text item).map fun s => { l with url := some s }⟩,
     ⟨"dialect", fun item l => (dialectOf item).map fun d => { l with dialect := some d }⟩,
     ⟨"max_connections", fun item l =>
        (whole 32 item).map fun n => { l with maxConnections := some n }⟩]

/-- How requests are served. -/
def server : Section where
  key := "server"
  title := "struct PartialServerConfig"
  settings :=
    [⟨"request_timeout_ms", fun item l =>
        (whole 64 item).map fun n => { l with timeoutMillis := some n }⟩]

/-- The sections of a file. -/
def sections : List Section := [reservation, database, server]

/-- The key under which dates and times are handed on. -/
def datetimeKey : String := "$__toml_private_datetime"

namespace Section

/-- The fault of a key that a section does not know. -/
def unknown (s : Section) (key : String) : LayerFault := .unknownKey key (s.settings.map (·.key))

/-- Reads the keys of a section in the order in which they are written. -/
def readEntries (s : Section) : Entries → Layer → Except LayerFault Layer
  | [], l => .ok l
  | (key, item) :: rest, l =>
    match s.settings.find? (·.key == key) with
    | none => .error (s.unknown key)
    | some setting =>
      match setting.read item l with
      | .ok l => readEntries s rest l
      | .error fault => .error fault

/-- The fault of a list that ends before all keys have a value. -/
def tooFew (s : Section) (count : Nat) : LayerFault :=
  .tooFewItems count
    (s.title ++ " with " ++ toString s.settings.length ++
      if s.settings.length = 1 then " element" else " elements")

/-- Reads values for keys in their order, the first `count` of which have been read. What is left
over is ignored. -/
def readItems (s : Section) (count : Nat) : List Setting → List Item → Layer →
    Except LayerFault Layer
  | [], _, l => .ok l
  | _ :: _, [], _ => .error (s.tooFew count)
  | setting :: settings, item :: items, l =>
    match setting.read item l with
    | .ok l => readItems s (count + 1) settings items l
    | .error fault => .error fault

/-- Reads a section. -/
def read (s : Section) : Item → Layer → Except LayerFault Layer
  | .table _ entries, l => s.readEntries entries l
  | .array items, l => s.readItems 0 s.settings items l
  | .tables all, l => s.readItems 0 s.settings (all.map (.table .header)) l
  | .datetime, _ => .error (s.unknown datetimeKey)
  | item, _ => .error (.wrongKind (found item) s.title)

end Section

/-- Reads sections in the order in which they are written. -/
def readSections : Entries → Layer → Except LayerFault Layer
  | [], l => .ok l
  | (key, item) :: rest, l =>
    match sections.find? (·.key == key) with
    | none => .error (.unknownKey key (sections.map (·.key)))
    | some s =>
      match s.read item l with
      | .ok l => readSections rest l
      | .error fault => .error fault

/-- Reads the text of a configuration file. -/
def read (content : String) : Except LayerFault Layer :=
  match Toml.read? content with
  | none => .error .syntactic
  | some entries => readSections entries .empty

end Layer

end LeaseCatalog
