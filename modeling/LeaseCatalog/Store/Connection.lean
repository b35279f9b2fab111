import LeaseCatalog.Config.Settings
import LeaseCatalog.Store.Access
import LeaseCatalog.Store.Request

/-!
# Connections

A catalog opens the database that its settings name and creates the tables that are missing. Only
one make of database has a driver. An open database may be held by another connection or be none at
all, and then nothing of it can be read. It may also be such that nothing can be written: because
it was opened for reading, or because no journal can stand beside it.
-/

namespace LeaseCatalog

/-- What is found at the path of a file. -/
inductive Storage where
  /-- Nothing, but a file can be created. -/
  | absent
  /-- Nothing, and no file can be created. -/
  | unavailable
  /-- A directory. -/
  | directory
  /-- A file that is no database. -/
  | foreign
  /-- A database. -/
  | tables (t : Tables)
deriving DecidableEq

/-- A place where a database is to be. -/
structure Site where
  /-- What is found there. -/
  storage : Storage
  /-- Whether another connection holds it. -/
  held : Bool
  /-- How many bytes may be put behind its name to name something beside it. -/
  room : Nat
deriving DecidableEq

namespace Site

/-- The bytes that are put behind the name of a database to name its journal. -/
def journalBytes : Nat := 8

/-- The bytes that are put behind the name of a database to name a lock beside it. -/
def lockBytes : Nat := 5

/-- The place of a database in the memory, which belongs to one connection and starts empty. -/
def fresh : Site := ⟨.tables .empty, false, journalBytes⟩

/-- The place of a database, by what is found at the paths of files. -/
def lookUp (look : String → Site) : Location → Site
  | .memory => .fresh
  | .file path => look path

end Site

/-- What an open database gives to those who read it. -/
inductive Content where
  /-- Its tables. -/
  | tables (t : Tables)
  /-- Nothing but a failure. -/
  | failing (failure : Failure)
deriving DecidableEq

namespace Access

/-- What a file gives to those who read it, once it is locked. -/
def locked (a : Access) (s : Site) (c : Content) : Content :=
  match a.locking with
  | .none => c
  | .onFile => if s.held then .failing .locked else c
  | .beside => if s.room < Site.lockBytes then .failing .noLock else c

/-- Opens what is found at a place. A directory can be opened for reading, but then it cannot be
read. -/
def openSite (a : Access) (s : Site) : Except Failure Content :=
  match s.storage with
  | .absent =>
    if a.permission = .create then .ok (a.locked s (.tables .empty)) else .error .cannotOpen
  | .unavailable => .error .cannotOpen
  | .directory => .error (if a.permission = .read then .unreadable else .cannotOpen)
  | .foreign => .ok (a.locked s (.failing .notADatabase))
  | .tables t => .ok (a.locked s (.tables t))

/-- What every change of a database fails with, if it does. -/
def obstacle? (a : Access) (s : Site) : Option Failure :=
  if a.isReadOnly then some .readOnly
  else if s.room < Site.journalBytes then some .cannotOpen
  else none

end Access

/-- An open database. -/
structure Connection where
  /-- Where it is. -/
  location : Location
  /-- Its make. -/
  dialect : Dialect
  /-- The most connections to it at a time. -/
  poolSize : Nat
  /-- What it gives to those who read it. -/
  content : Content
  /-- What every change of it fails with, if it does. -/
  obstacle : Option Failure
deriving DecidableEq

namespace Connection

/-- The most connections at a time that settings ask for. There is never more than one to a database
that is in the memory by the name of the memory. -/
def poolSizeOf (c : Config) : Nat :=
  if 1 < (c.url.splitOn Address.memoryName).length then 1 else c.maxConnections

/-- Opens the database of an address. -/
def openAddress (c : Config) (a : Address) (look : String → Site) :
    Except Failure Connection := do
  if poolSizeOf c = 0 then .error .poolTimedOut
  else
    let access ← Access.ofAddress a
    let site := Site.lookUp look access.location
    let content ← access.openSite site
    .ok ⟨access.location, c.dialect, poolSizeOf c, content, access.obstacle? site⟩

/-- Opens the database that the settings name. -/
def connect (c : Config) (look : String → Site) : Except Error Connection :=
  if c.dialect = .postgres then .error (.config (.noDriver c.dialect.text))
  else do
    let address ← c.dialect.executed (Address.ofUrl c.url)
    c.dialect.executed (openAddress c address look)

/-- The tables of a database once those that are missing are created. -/
def createTables (c : Connection) : Except Failure Tables :=
  match c.content, c.obstacle with
  | .failing failure, _ => .error failure
  | .tables t, some failure => if t.create = t then .ok t else .error failure
  | .tables t, none => .ok t.create

/-- Creates the tables that are missing. -/
def initialise (c : Connection) : Except Error Unit × Connection :=
  match c.createTables with
  | .ok t => (.ok (), { c with content := .tables t })
  | .error failure => (.error (c.dialect.translate failure), c)

/-- The names of the tables. -/
def tableNames (c : Connection) : List String :=
  match c.content with
  | .tables t => t.names
  | .failing _ => []

end Connection

end LeaseCatalog
