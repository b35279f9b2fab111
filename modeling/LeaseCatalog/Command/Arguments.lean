import LeaseCatalog.Key

/-!
# Arguments of the command line

A command line names one command, gives it options, and may point to a configuration file and to a
database before or behind the command's name. Every option takes one value, attached by an equals
sign or as the next word, and may be given once. The words are read from left to right by a `Reader`,
and the first fault ends this: an option's missing value is noticed when the next option comes or
the words end, and a missing option only at the end.
-/

namespace LeaseCatalog

/-- What may be wrong with a command line, and what it may ask for instead of a command. -/
inductive UsageFault where
  /-- A word that is no command stands where a command is wanted. -/
  | invalidSubcommand
  /-- A word or an option that is not known. -/
  | unknownArgument
  /-- An option has no value. -/
  | invalidValue
  /-- A flag that takes no value has one. -/
  | tooManyValues
  /-- An option is given twice. -/
  | argumentConflict
  /-- An option that the command needs is missing. -/
  | missingArgument
  /-- There are options but no command. -/
  | missingSubcommand
  /-- There is nothing at all. -/
  | nothing
  /-- Help is asked for. -/
  | help
  /-- The version is asked for. -/
  | version
deriving DecidableEq

/-- The name of a fault. -/
def UsageFault.text : UsageFault → String
  | .invalidSubcommand => "InvalidSubcommand"
  | .unknownArgument => "UnknownArgument"
  | .invalidValue => "InvalidValue"
  | .tooManyValues => "TooManyValues"
  | .argumentConflict => "ArgumentConflict"
  | .missingArgument => "MissingRequiredArgument"
  | .missingSubcommand => "MissingSubcommand"
  | .nothing => "DisplayHelpOnMissingArgumentOrSubcommand"
  | .help => "DisplayHelp"
  | .version => "DisplayVersion"

/-- The commands by name. -/
inductive Verb where
  /-- Create the tables. -/
  | initialise
  /-- Reserve a key. -/
  | reserve
  /-- Extend a lease. -/
  | extend
  /-- Free a key. -/
  | release
  /-- Show a lease. -/
  | get
  /-- Store an artifact and tag it. -/
  | tag
deriving DecidableEq

/-- The name of a command. -/
def Verb.text : Verb → String
  | .initialise => "init"
  | .reserve => "reserve"
  | .extend => "extend"
  | .release => "release"
  | .get => "get"
  | .tag => "tag"

/-- All commands. -/
def Verb.all : List Verb := [.initialise, .reserve, .extend, .release, .get, .tag]

/-- The command of a name. -/
def Verb.ofText? (word : String) : Option Verb := all.find? (·.text == word)

/-- The options. -/
inductive Flag where
  /-- The configuration file. -/
  | config
  /-- The address of the database. -/
  | databaseUrl
  /-- The project of the dataset. -/
  | project
  /-- The domain of the dataset. -/
  | domain
  /-- The name of the dataset. -/
  | name
  /-- The version of the dataset. -/
  | version
  /-- The name of the tag. -/
  | tag
  /-- The caller. -/
  | owner
  /-- The name of the artifact. -/
  | artifactId
  /-- What is kept with the row. -/
  | metadata
deriving DecidableEq

/-- The name of an option, without the dashes. -/
def Flag.text : Flag → String
  | .config => "config"
  | .databaseUrl => "database-url"
  | .project => "project"
  | .domain => "domain"
  | .name => "name"
  | .version => "version"
  | .tag => "tag"
  | .owner => "owner"
  | .artifactId => "artifact-id"
  | .metadata => "metadata"

/-- The options that stand before the command's name or behind it. -/
def Flag.everywhere : List Flag := [.config, .databaseUrl]

/-- The options that name a key. -/
def Flag.ofKey : List Flag := [.project, .domain, .name, .version, .tag]

/-- The options of a command. -/
def Verb.flags : Verb → List Flag
  | .initialise => []
  | .reserve | .extend => Flag.ofKey ++ [.owner, .metadata]
  | .release | .get => Flag.ofKey
  | .tag => Flag.ofKey ++ [.artifactId, .metadata]

/-! ## Reading words -/

/-- Options with their values. -/
abbrev Given := List (Flag × String)

/-- The value of an option. -/
def Given.find? (flag : Flag) (given : Given) : Option String :=
  (List.find? (·.1 == flag) given).map (·.2)

/-- What has been read before the command's name, or behind it. -/
structure Level where
  /-- The options that have been stored. -/
  given : Given
  /-- The option that was read last, and its value if that has come: it is stored later. -/
  pending : Option (Flag × Option String)

namespace Level

/-- Before anything has been read. -/
def empty : Level := ⟨[], none⟩

/-- Stores an option with its value. -/
def store (l : Level) (flag : Flag) (value : String) : Except UsageFault Level :=
  if (l.given.find? flag).isSome then .error .argumentConflict
  else .ok ⟨l.given ++ [(flag, value)], none⟩

/-- Stores the option that was read last. -/
def settle (l : Level) : Except UsageFault Level :=
  match l.pending with
  | none => .ok l
  | some (_, none) => .error .invalidValue
  | some (flag, some value) => l.store flag value

/-- Whether the next word is the value of the option that was read last. -/
def awaitsValue (l : Level) : Bool :=
  match l.pending with
  | some (_, none) => true
  | _ => false

/-- Takes a word as the value of the option that was read last. -/
def take (l : Level) (value : String) : Level :=
  { l with pending := l.pending.map fun p => (p.1, some value) }

/-- Reads an option. -/
def option (l : Level) (flag : Flag) (value : Option String) : Except UsageFault Level :=
  match l.settle with
  | .error fault => .error fault
  | .ok l =>
    match value with
    | some value => l.store flag value
    | none => .ok { l with pending := some (flag, none) }

/-- Asks for something instead of a command, which an option without its value still hinders. -/
def demand (l : Level) (what : UsageFault) : UsageFault :=
  match l.settle with
  | .error fault => fault
  | .ok _ => what

end Level

/-- What has been read of a command line. -/
structure Reader where
  /-- The command, once it has been named. -/
  verb : Option Verb
  /-- What stands before the command's name, once it has been named. -/
  outer : Level
  /-- What has been read at the place where the reader is. -/
  level : Level
  /-- Whether two dashes have ended the options. -/
  escaped : Bool

namespace Reader

/-- Before the first word. -/
def initial : Reader := ⟨none, .empty, .empty, false⟩

/-- The options that may come. -/
def flags (r : Reader) : List Flag :=
  Flag.everywhere ++ (match r.verb with
    | none => []
    | some verb => verb.flags)

/-- Whether a command's name would be recognised as the next word. -/
def awaitsVerb (r : Reader) : Bool := r.verb.isNone && !r.escaped && !r.level.awaitsValue

/-- Reads an option by its name, with the value attached to it. -/
def long (r : Reader) (name : String) (value : Option String) : Except UsageFault Reader :=
  match r.flags.find? (·.text == name) with
  | some flag =>
    match r.level.option flag value with
    | .ok level => .ok { r with level := level }
    | .error fault => .error fault
  | none =>
    let demanded :=
      if name = "help" then some .help
      else if name = "version" ∧ r.verb = none then some .version
      else none
    match demanded, value with
    | some what, none => .error (r.level.demand what)
    | some _, some _ => .error .tooManyValues
    | none, _ => .error .unknownArgument

/-- Reads a letter behind a single dash. -/
def short (r : Reader) (c : Char) : UsageFault :=
  if c = 'h' then r.level.demand .help
  else if c = 'V' ∧ r.verb = none then r.level.demand .version
  else .unknownArgument

/-- Reads a word that is no option and no command's name. -/
def stray (r : Reader) (word : String) : UsageFault :=
  if r.verb.isSome then .unknownArgument
  else if r.escaped ∧ (word = "help" ∨ (Verb.ofText? word).isSome) then .unknownArgument
  else .invalidSubcommand

/-- Reads a word that starts with no option: a value or a fault. -/
def plain (r : Reader) (word : String) : Except UsageFault Reader :=
  if r.level.awaitsValue then .ok { r with level := r.level.take word }
  else .error (r.stray word)

/-- The name and the value of an option behind its dashes. -/
def splitOption (text : List Char) : String × Option String :=
  match text.dropWhile (· != '=') with
  | [] => (String.ofList text, none)
  | _ :: value => (String.ofList (text.takeWhile (· != '=')), some (String.ofList value))

/-- Reads a word that names no command. -/
def word (r : Reader) (s : String) : Except UsageFault Reader :=
  if r.escaped then .error (r.stray s)
  else
    match s.toList with
    | ['-', '-'] => .ok { r with escaped := true }
    | '-' :: '-' :: text => r.long (splitOption text).1 (splitOption text).2
    | '-' :: c :: _ => .error (r.short c)
    | _ => r.plain s

/-- What a call for help asks for: the words behind it must lead to a command. -/
def helpFor : List String → UsageFault
  | [] => .help
  | [name] => if name = "help" ∨ (Verb.ofText? name).isSome then .help else .invalidSubcommand
  | _ => .invalidSubcommand

/-- Reads words. -/
def read (r : Reader) : List String → Except UsageFault Reader
  | [] => .ok r
  | s :: rest =>
    if r.awaitsVerb ∧ s = "help" then .error (helpFor rest)
    else
      match (if r.awaitsVerb then Verb.ofText? s else none) with
      | some verb => read ⟨some verb, r.level, .empty, false⟩ rest
      | none =>
        match r.word s with
        | .ok r => read r rest
        | .error fault => .error fault

end Reader

/-! ## Commands -/

/-- What a command line asks for. -/
inductive Command where
  /-- Create the tables. -/
  | initialise
  /-- Reserve a key. -/
  | reserve (key : Key) (owner : String) (metadata : Option String)
  /-- Extend a lease. -/
  | extend (key : Key) (owner : String) (metadata : Option String)
  /-- Free a key. -/
  | release (key : Key)
  /-- Show a lease. -/
  | get (key : Key)
  /-- Store an artifact and tag it. -/
  | tag (key : Key) (artifactId : String) (metadata : Option String)
deriving DecidableEq

/-- A command, and where its settings and its database are. -/
structure Invocation where
  /-- The command. -/
  command : Command
  /-- The configuration file, if one is named. -/
  config : Option String
  /-- The address of the database, if one is given. -/
  databaseUrl : Option String
deriving DecidableEq

/-- The key of a command. -/
def Key.ofGiven? (given : Given) : Option Key := do
  let project ← given.find? .project
  let domain ← given.find? .domain
  let name ← given.find? .name
  let version ← given.find? .version
  let tag ← given.find? .tag
  some ⟨⟨project, domain, name, version⟩, tag⟩

/-- The command of a name and its options, unless an option is missing. -/
def Command.ofGiven? (verb : Verb) (given : Given) : Option Command :=
  match verb with
  | .initialise => some .initialise
  | .reserve => do
    let key ← Key.ofGiven? given
    let owner ← given.find? .owner
    some (.reserve key owner (given.find? .metadata))
  | .extend => do
    let key ← Key.ofGiven? given
    let owner ← given.find? .owner
    some (.extend key owner (given.find? .metadata))
  | .release => (Key.ofGiven? given).map .release
  | .get => (Key.ofGiven? given).map .get
  | .tag => do
    let key ← Key.ofGiven? given
    let id ← given.find? .artifactId
    some (.tag key id (given.find? .metadata))

namespace Reader

/-- What the words asked for, once all of them are read. An option that is given before the command's
name and behind it counts as it stands behind it. -/
def finish (r : Reader) : Except UsageFault Invocation := do
  let inner ← r.level.settle
  match r.verb with
  | none => .error (if inner.given.isEmpty then .nothing else .missingSubcommand)
  | some verb =>
    match Command.ofGiven? verb inner.given with
    | none => .error .missingArgument
    | some command =>
      let outer ← r.outer.settle
      let find (flag : Flag) := (inner.given.find? flag).or (outer.given.find? flag)
      .ok ⟨command, find .config, find .databaseUrl⟩

end Reader

/-- What a command line asks for. -/
def Invocation.ofWords (words : List String) : Except UsageFault Invocation := do
  let r ← Reader.initial.read words
  r.finish

end LeaseCatalog
