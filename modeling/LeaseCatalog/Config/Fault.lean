import LeaseCatalog.Text.Quoted

/-!
# Faults of the configuration

Everything that can be wrong with the configuration: a file that cannot be read or decoded, a
variable of the environment that does not hold a value, and settings that make no sense together
with the others.
-/

namespace LeaseCatalog

/-- What is wrong with the content of a configuration file. -/
inductive LayerFault where
  /-- The text is no TOML. -/
  | syntactic
  /-- A table has a key that it does not know; these are the keys it knows. -/
  | unknownKey (key : String) (known : List String)
  /-- A name stands for none of the values that it can stand for. -/
  | unknownName (name : String) (known : List String)
  /-- A value is of another kind than the one wanted. -/
  | wrongKind (found wanted : String)
  /-- A number is out of the range wanted. -/
  | outOfRange (found : Int) (wanted : String)
  /-- A list has fewer items than wanted. -/
  | tooFewItems (found : Nat) (wanted : String)
  /-- A table or a list stands where only a name can be read from it, and it holds none. -/
  | noName
deriving DecidableEq

namespace LayerFault

/-- Names between backticks, the way a message lists what it knows. -/
def listed : List String → String
  | [] => "there are no fields"
  | [a] => "expected `" ++ a ++ "`"
  | [a, b] => "expected `" ++ a ++ "` or `" ++ b ++ "`"
  | names => "expected one of " ++ ", ".intercalate (names.map fun n => "`" ++ n ++ "`")

/-- What is wrong, in words. -/
def reason : LayerFault → String
  | .syntactic => "the text is not TOML"
  | .unknownKey key known => "unknown field `" ++ key ++ "`, " ++ listed known
  | .unknownName name known => "unknown variant `" ++ name ++ "`, " ++ listed known
  | .wrongKind found wanted => "invalid type: " ++ found ++ ", expected " ++ wanted
  | .outOfRange found wanted =>
    "invalid value: integer `" ++ toString found ++ "`, expected " ++ wanted
  | .tooFewItems found wanted => "invalid length " ++ toString found ++ ", expected " ++ wanted
  | .noName => "wanted string or table"

/-- The message of a fault: a heading and, on a line of its own, the reason. -/
def message (f : LayerFault) : String := "TOML parse error\n" ++ f.reason ++ "\n"

end LayerFault

/-- What is wrong with a text that is read as a whole number. -/
inductive WholeFault where
  /-- It is empty. -/
  | empty
  /-- It holds something other than digits. -/
  | notDigits
  /-- Its number is too large. -/
  | tooLarge
deriving DecidableEq

/-- A fault in words. -/
def WholeFault.message : WholeFault → String
  | .empty => "cannot parse integer from empty string"
  | .notDigits => "invalid digit found in string"
  | .tooLarge => "number too large to fit in target type"

/-- What is wrong with the value of a variable. -/
inductive VariableFault where
  /-- It is no whole number. -/
  | whole (fault : WholeFault)
  /-- It names no dialect. -/
  | dialect
deriving DecidableEq

/-- A fault in words. -/
def VariableFault.message : VariableFault → String
  | .whole fault => fault.message
  | .dialect => "Matching variant not found"

/-- What is wrong with the configuration. -/
inductive ConfigFault where
  /-- A file cannot be looked up. -/
  | noMetadata (path problem : String)
  /-- A file is larger than `limit` bytes. -/
  | tooLarge (path : String) (limit : Nat)
  /-- A file cannot be read. -/
  | unreadable (path problem : String)
  /-- The content of a file cannot be used. -/
  | malformed (path : Option String) (fault : LayerFault)
  /-- The value of a variable cannot be used. -/
  | variable (name : String) (fault : VariableFault)
  /-- The heartbeat interval is zero. -/
  | noHeartbeat
  /-- The multiplier is zero. -/
  | noMultiplier
  /-- A lease would last longer than `limit` seconds. -/
  | leaseTooLong (limit : Nat)
  /-- The address of the database is blank. -/
  | blankUrl
  /-- No connection is allowed. -/
  | noConnections
  /-- Requests get no time. -/
  | noTimeout
  /-- The dialect has no driver. -/
  | noDriver (dialect : String)
deriving DecidableEq

/-- What is wrong, in words. -/
def ConfigFault.message : ConfigFault → String
  | .noMetadata path problem => "Failed to read config file metadata " ++ path ++ ": " ++ problem
  | .tooLarge path limit => "Config file " ++ path ++ " exceeds " ++ toString limit ++ " bytes"
  | .unreadable path problem => "Failed to read config file " ++ path ++ ": " ++ problem
  | .malformed none fault => "Failed to parse config: " ++ fault.message
  | .malformed (some path) fault => "Failed to parse config: " ++ path ++ ": " ++ fault.message
  | .variable name fault => "Invalid " ++ name ++ " value: " ++ fault.message
  | .noHeartbeat => "reservation.heartbeat_interval_secs must be greater than 0"
  | .noMultiplier => "reservation.grace_period_multiplier must be at least 1"
  | .leaseTooLong limit =>
    "reservation lease TTL (heartbeat_interval_secs × grace_period_multiplier) must not exceed " ++
      toString limit ++ " seconds"
  | .blankUrl => "database.url cannot be empty"
  | .noConnections => "database.max_connections must be at least 1"
  | .noTimeout => "server.request_timeout_ms must be greater than 0"
  | .noDriver dialect =>
    "database.dialect \"" ++ dialect ++ "\" is not supported by this build; " ++
      "use \"sqlite\" or \"generic\""

end LeaseCatalog
