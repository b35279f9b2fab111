import LeaseCatalog.Config.Layer

/-!
# Variables of the environment

Each setting has a variable that overrides all files. The value of a variable is read without the
blanks around it; only the address of the database is taken as it is, and may be any text. The
variables are looked up one after the other, and the first one with a bad value ends this: those
before it have taken effect by then.
-/

namespace LeaseCatalog

/-- The variables. -/
inductive Variable where
  /-- The seconds between two heartbeats of an owner. -/
  | heartbeatSeconds
  /-- How many heartbeats long a lease lasts. -/
  | multiplier
  /-- The address of the database. -/
  | url
  /-- The make of the database. -/
  | dialect
  /-- The most connections to the database at a time. -/
  | maxConnections
  /-- The milliseconds that a request may take. -/
  | timeoutMillis
deriving DecidableEq

namespace Variable

/-- All variables, in the order in which they are looked up. -/
def all : List Variable :=
  [.heartbeatSeconds, .multiplier, .url, .dialect, .maxConnections, .timeoutMillis]

/-- The name of a variable. -/
def name : Variable → String
  | .heartbeatSeconds => "DATACATALOG_HEARTBEAT_INTERVAL_SECS"
  | .multiplier => "DATACATALOG_GRACE_PERIOD_MULTIPLIER"
  | .url => "DATACATALOG_DATABASE_URL"
  | .dialect => "DATACATALOG_DATABASE_DIALECT"
  | .maxConnections => "DATACATALOG_MAX_CONNECTIONS"
  | .timeoutMillis => "DATACATALOG_REQUEST_TIMEOUT_MS"

/-- Reads the digits of a whole number below a bound, behind those that make `n`. -/
def readDigits (bound : Nat) : Nat → List Char → Except WholeFault Nat
  | n, [] => .ok n
  | n, c :: rest =>
    if !c.isDigit then .error .notDigits
    else if bound ≤ 10 * n + Decimal.digitValue c then .error .tooLarge
    else readDigits bound (10 * n + Decimal.digitValue c) rest

/-- Reads a whole number of at most `bits` bits. A plus sign may come first. -/
def readWhole (bits : Nat) (value : String) : Except WholeFault Nat :=
  match value.toList with
  | [] => .error .empty
  | ['+'] => .error .notDigits
  | '+' :: digits => readDigits (Nat.pow 2 bits) 0 digits
  | digits => readDigits (Nat.pow 2 bits) 0 digits

/-- Reads a whole number with blanks around it into a layer. -/
def wholeLayer (bits : Nat) (value : String) (put : Nat → Layer) : Except VariableFault Layer :=
  match readWhole bits (Text.trim value) with
  | .ok n => .ok (put n)
  | .error fault => .error (.whole fault)

/-- The layer of a variable that has a value. -/
def layer (v : Variable) (value : String) : Except VariableFault Layer :=
  match v with
  | .heartbeatSeconds =>
    wholeLayer 64 value fun n => { Layer.empty with heartbeatSeconds := some n }
  | .multiplier => wholeLayer 32 value fun n => { Layer.empty with multiplier := some n }
  | .url => .ok { Layer.empty with url := some value }
  | .dialect =>
    match Dialect.ofText? (Text.trim value) with
    | some d => .ok { Layer.empty with dialect := some d }
    | none => .error .dialect
  | .maxConnections => wholeLayer 32 value fun n => { Layer.empty with maxConnections := some n }
  | .timeoutMillis => wholeLayer 64 value fun n => { Layer.empty with timeoutMillis := some n }

/-- The settings once the given variables are applied in turn, up to the first bad value. -/
def applyEach (lookup : String → Option String) :
    List Variable → Config → Config × Except Error Unit
  | [], c => (c, .ok ())
  | v :: rest, c =>
    match lookup v.name with
    | none => applyEach lookup rest c
    | some value =>
      match v.layer value with
      | .ok l => applyEach lookup rest (l.apply c)
      | .error fault => (c, .error (.config (.variable v.name fault)))

/-- The settings once all variables are applied, up to the first bad value. -/
def apply (lookup : String → Option String) (c : Config) : Config × Except Error Unit :=
  applyEach lookup all c

end Variable

end LeaseCatalog
