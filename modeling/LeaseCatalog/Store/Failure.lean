/-!
# Failures of the database

What a database reports when a statement fails, before it is said what that means for the catalog.
Only a database's own errors have a code; the other failures come from the connection to it or from
reading its answer.
-/

namespace LeaseCatalog

/-- A failed statement. -/
inductive Failure where
  /-- A row was asked for and there is none. -/
  | rowNotFound
  /-- No connection became free in time. -/
  | poolTimedOut
  /-- The connections were closed. -/
  | poolClosed
  /-- What runs the statements has died. -/
  | workerCrashed
  /-- The answer lacks a column. -/
  | columnNotFound (name : String)
  /-- The answer cannot be understood. -/
  | protocol (text : String)
  /-- The database cannot be reached as it was described. -/
  | configuration (text : String)
  /-- A value of the answer cannot be read. -/
  | decode (text : String)
  /-- Nothing can be said to the database. -/
  | communication (text : String)
  /-- The database refused, with a code if it gives one, a message, and the form in which it shows
  both. -/
  | database (code : Option String) (message shown : String)
deriving DecidableEq

namespace Failure

/-- A failure in words. -/
def message : Failure → String
  | .rowNotFound => "no rows returned by a query that expected to return at least one row"
  | .poolTimedOut => "pool timed out while waiting for an open connection"
  | .poolClosed => "attempted to acquire a connection on a closed pool"
  | .workerCrashed => "attempted to communicate with a crashed background worker"
  | .columnNotFound name => "no column found for name: " ++ name
  | .protocol text => "encountered unexpected or invalid data: " ++ text
  | .configuration text => "error with configuration: " ++ text
  | .decode text => "error occurred while decoding: " ++ text
  | .communication text => "error communicating with database: " ++ text
  | .database _ _ shown => "error returned from database: " ++ shown

/-- An error of a database whose codes are numbers. -/
def numbered (code : Nat) (message : String) : Failure :=
  .database (some (toString code)) message ("(code: " ++ toString code ++ ") " ++ message)

/-- A statement names a table that is not there. -/
def noSuchTable (name : String) : Failure := numbered 1 ("no such table: " ++ name)

/-- A reservation was inserted for a key that has one. -/
def duplicateReservation : Failure :=
  numbered 1555 ("UNIQUE constraint failed: reservations.dataset_project, " ++
    "reservations.dataset_domain, reservations.dataset_name, reservations.dataset_version, " ++
    "reservations.tag_name")

/-- The file of a database cannot be opened. -/
def cannotOpen : Failure := numbered 14 "unable to open database file"

/-- Another connection holds the database. -/
def locked : Failure := numbered 5 "database is locked"

/-- A statement would change a database that was opened for reading. -/
def readOnly : Failure := numbered 8 "attempt to write a readonly database"

/-- A file is no database. -/
def notADatabase : Failure := numbered 26 "file is not a database"

/-- The file of a database cannot be read. -/
def unreadable : Failure := numbered 266 "disk I/O error"

/-- The lock of a database cannot be taken. -/
def noLock : Failure := numbered 3850 "disk I/O error"

/-- There is no such way to reach files. -/
def noSuchFileSystem (name : String) : Failure := numbered 1 ("no such vfs: " ++ name)

/-- A file URI names another host. -/
def foreignAuthority (name : String) : Failure := numbered 1 ("invalid uri authority: " ++ name)

/-- There is no such way to share what was read. -/
def noSuchCacheMode (value : String) : Failure := numbered 1 ("no such cache mode: " ++ value)

/-- There is no such permission. -/
def noSuchAccessMode (value : String) : Failure := numbered 1 ("no such access mode: " ++ value)

/-- A name asks for more than its address allows. -/
def accessModeNotAllowed (value : String) : Failure :=
  numbered 3 ("access mode not allowed: " ++ value)

/-- The name of a database holds a zero byte. -/
def nulInName : Failure :=
  .communication "filename passed to SQLite must not contain nul bytes"

end Failure

end LeaseCatalog
