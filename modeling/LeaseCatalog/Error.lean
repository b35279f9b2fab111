import LeaseCatalog.Config.Fault
import LeaseCatalog.Key
import LeaseCatalog.Store.Failure
import LeaseCatalog.Time.Timestamp

/-!
# Errors of the catalog

Every operation fails with an `Error`, which says what happened, and every error is of one of six
kinds, by which callers decide what to do: only the kinds `notFound` and `leaseConflict` are ever
decided on inside the catalog. The wording of all errors is in `Error.detail`.
-/

namespace LeaseCatalog

/-- The kinds of errors. -/
inductive ErrorKind where
  /-- Nothing is there. -/
  | notFound
  /-- A conditional write lost to another writer. -/
  | leaseConflict
  /-- What the caller supplied is unsound. -/
  | invalidArgument
  /-- The configuration is unsound. -/
  | invalidConfig
  /-- Stored data or the database is not as expected. -/
  | internal
  /-- Anything else, with the code of the database where there is one. -/
  | unknown
deriving DecidableEq

namespace ErrorKind

/-- The stable name of a kind. -/
def code : ErrorKind → String
  | .notFound => "NOT_FOUND"
  | .leaseConflict => "LEASE_CONFLICT"
  | .invalidArgument => "INVALID_ARGUMENT"
  | .invalidConfig => "INVALID_CONFIG"
  | .internal => "INTERNAL"
  | .unknown => "UNKNOWN"

/-- The words before the detail of an error. -/
def heading : ErrorKind → String
  | .notFound => "Not found: "
  | .leaseConflict => "Lease conflict: "
  | .invalidArgument => "Invalid argument: "
  | .invalidConfig => "Invalid configuration: "
  | .internal => "Internal error: "
  | .unknown => "Unknown error: "

/-- The status with which a transport answers. -/
def status : ErrorKind → Nat
  | .notFound => 404
  | .leaseConflict => 409
  | .invalidArgument | .invalidConfig => 400
  | .internal | .unknown => 500

/-- The status with which a process ends. -/
def exitStatus : ErrorKind → Nat
  | .invalidArgument | .invalidConfig => 1
  | .internal | .unknown => 2
  | .notFound => 3
  | .leaseConflict => 4

end ErrorKind

/-- What happened when an operation failed. -/
inductive Error where
  /-- A field that the caller supplied is unsound. -/
  | invalidField (field : Field) (fault : FieldFault)
  /-- The name of an artifact is blank. -/
  | blankArtifactId
  /-- An instant lies outside the years that rows can hold. -/
  | notStorable (t : Instant)
  /-- The metadata given as text is no JSON. -/
  | metadataNotJson
  /-- A tag was to name an artifact that its dataset does not have. -/
  | artifactMissing (id : String) (dataset : Dataset)
  /-- The reservation of a key is live and held by another owner. -/
  | heldByAnother (key : Key)
  /-- A column of a row holds no instant. -/
  | undecodable (column : String) (fault : Timestamp.Fault)
  /-- A lease that starts now would end after the last instant. -/
  | expiryOverflow (now : Instant)
  /-- The configuration is unsound. -/
  | config (fault : ConfigFault)
  /-- The database has no such row. -/
  | entryNotFound
  /-- The database failed in a way that its dialect does not classify. -/
  | unexpectedFailure (failure : Failure)
  /-- The database refused a second row for a key. -/
  | duplicateKey (message : String)
  /-- The database lacks a table. -/
  | undefinedTable (message : String)
  /-- The database refused, for a reason that its dialect does not classify. -/
  | failedOperation (code message : String)
  /-- The time for a request was over. -/
  | timedOut (millis : Nat)
  /-- A store of another make failed. -/
  | reported (kind : ErrorKind) (detail : String)
deriving DecidableEq

namespace Error

/-- The kind of an error. -/
def kind : Error → ErrorKind
  | .invalidField _ _ | .blankArtifactId | .notStorable _ | .metadataNotJson | .undefinedTable _ =>
    .invalidArgument
  | .artifactMissing _ _ | .entryNotFound => .notFound
  | .heldByAnother _ | .duplicateKey _ => .leaseConflict
  | .undecodable _ _ | .expiryOverflow _ | .unexpectedFailure _ => .internal
  | .config _ => .invalidConfig
  | .failedOperation _ _ | .timedOut _ => .unknown
  | .reported kind _ => kind

/-- What happened, in words. -/
def detail : Error → String
  | .invalidField field .blank => field.text ++ " cannot be empty"
  | .invalidField field .tooLong =>
    field.text ++ " exceeds maximum length of " ++ toString maxFieldLength ++ " characters"
  | .invalidField field .control => field.text ++ " contains control characters"
  | .blankArtifactId => "artifact id cannot be empty"
  | .notStorable t =>
    "timestamp " ++ Timestamp.plain t ++ " is outside the storable range (years 0000-9999)"
  | .metadataNotJson => "metadata is not valid JSON: the text is no JSON value"
  | .artifactMissing id dataset => "artifact " ++ id ++ " not found in dataset " ++ dataset.text
  | .heldByAnother key => "reservation " ++ key.text ++ " is held by another owner"
  | .undecodable column fault =>
    "invalid timestamp in column " ++ column ++ ": " ++ fault.message
  | .expiryOverflow now => "lease expiry overflows from " ++ Timestamp.plain now
  | .config fault => fault.message
  | .entryNotFound => "entry not found"
  | .unexpectedFailure failure => "unexpected error type for: " ++ failure.message
  | .duplicateKey message => "duplicate key value violates unique constraint " ++ message
  | .undefinedTable message => "cannot query with specified table attributes: " ++ message
  | .failedOperation code message =>
    "failed database operation with code [" ++ code ++ "] and msg [" ++ message ++ "]"
  | .timedOut millis =>
    "request timed out after " ++ toString millis ++
      "ms; the outcome is unknown, run `datacatalog get` to learn it"
  | .reported _ detail => detail

/-- The message of an error. -/
def message (e : Error) : String := e.kind.heading ++ e.detail

/-- Whether an error says that nothing is there. -/
def isNotFound (e : Error) : Bool := e.kind == .notFound

/-- Whether an error says that a conditional write lost. -/
def isLeaseConflict (e : Error) : Bool := e.kind == .leaseConflict

/-- The line that a failed command leaves on standard error. -/
def report (e : Error) : String := "Error [" ++ e.kind.code ++ "]: " ++ e.message

end Error

/-- The error of the first fault of a key, if it has one. -/
def Key.validate (k : Key) : Except Error Unit :=
  match k.fault? with
  | some (field, fault) => .error (.invalidField field fault)
  | none => .ok ()

/-- The error of the first fault of a dataset, if it has one. -/
def Dataset.validate (d : Dataset) : Except Error Unit :=
  match d.fault? with
  | some (field, fault) => .error (.invalidField field fault)
  | none => .ok ()

/-- The error of the fault of a caller's name, if it has one. -/
def validateOwner (owner : String) : Except Error Unit :=
  match ownerFault? owner with
  | some (field, fault) => .error (.invalidField field fault)
  | none => .ok ()

end LeaseCatalog
