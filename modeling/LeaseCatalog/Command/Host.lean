import LeaseCatalog.Command.Serve

/-!
# Hosts

A `Host` is what a run of the program finds around it: a tree of files, some of which are databases,
a working directory, the variables of the environment and the time of day. Running the program gives
its outcome and the host with the databases as they are then. It takes no time, unless it waits for
a database that another connection holds.

A path is followed in two ways. The system looks at every step, so a name behind something that is
not there leads nowhere, even if the next step goes back. A database is looked for at the path that
is left once every step back has undone the step before it, whatever is there.
-/

namespace LeaseCatalog

/-- The names on the way from the root of a tree of files. -/
abbrev Path : Type := List String

namespace Path

/-- The names that a text gives, one after the other; some of them may be empty. -/
def names (text : String) : List String := text.splitOn "/"

/-- Where a text starts in a working directory. -/
def start (workingDirectory : Path) (text : String) : Path :=
  if text.toList.head? = some '/' then [] else workingDirectory

/-- The path as a text. -/
def text (p : Path) : String := String.join (p.map fun name => "/" ++ name)

/-- The path that follows one more name. A step back undoes the step before it. -/
def follow (p : Path) (name : String) : Path :=
  if name = "" ∨ name = "." then p else if name = ".." then p.dropLast else p ++ [name]

/-- The path that a text names in a working directory, whatever is there. -/
def ofText (workingDirectory : Path) (text : String) : Path :=
  (names text).foldl follow (start workingDirectory text)

/-- The most bytes that a name may have. -/
def maxNameBytes : Nat := 255

/-- The most bytes that a path may have that the system is to follow. -/
def maxPathBytes : Nat := 4095

/-- The most bytes that the path of a journal may have. -/
def maxDatabasePathBytes : Nat := 512

/-- Whether a path can be that of a database, going by its length. -/
def suitsDatabase (p : Path) : Bool :=
  p != [] && p.text.utf8ByteSize + Site.journalBytes ≤ maxDatabasePathBytes

/-- How many bytes may be put behind the last name of a path. -/
def room (p : Path) : Nat := maxNameBytes - (p.getLast?.getD "").utf8ByteSize

end Path

/-- What is at a path. -/
inductive Node where
  /-- A directory. -/
  | directory
  /-- A file. -/
  | file (content : ByteArray)
  /-- A database. -/
  | database (t : Tables)

/-- What a run of the program finds around it. -/
structure Host where
  /-- What is at which path. -/
  nodes : List (Path × Node)
  /-- The working directory. -/
  workingDirectory : Path
  /-- The texts that variables are set to. -/
  environment : String → Option String
  /-- The databases that other connections hold. -/
  held : List Path
  /-- The time of day. -/
  timeOfDay : Instant

namespace Host

/-- What is at a path. A directory need not be listed if something in it is. -/
def node? (h : Host) (p : Path) : Option Node :=
  match h.nodes.find? (·.1 == p) with
  | some entry => some entry.2
  | none => if p = [] ∨ h.nodes.any (fun entry => p.isPrefixOf entry.1) then some .directory else none

/-- One step of the system from a path, or why it cannot be made. -/
def step (h : Host) (p : Path) (name : String) : Except FileState Path :=
  match h.node? p with
  | some .directory =>
    if name = "" ∨ name = "." then .ok p
    else if name = ".." then .ok p.dropLast
    else if Path.maxNameBytes < name.utf8ByteSize then .error (.unreachable FileState.tooLongProblem)
    else if (h.node? (p ++ [name])).isSome then .ok (p ++ [name])
    else .error .absent
  | _ => .error (.unreachable FileState.throughFileProblem)

/-- Where the steps of the system lead from a path, or why the first one that cannot be made
cannot. -/
def walk (h : Host) : Path → List String → Except FileState Path
  | p, [] => .ok p
  | p, name :: rest =>
    match h.step p name with
    | .ok p => h.walk p rest
    | .error state => .error state

/-- What is found when something is read as a file. A database without tables is an empty file, and
the bytes of any other database are no text. -/
def nodeState : Node → FileState
  | .directory => .directory
  | .file content => .file content
  | .database t => .file ⟨if t = .empty then #[] else #[0xFF]⟩

/-- What is found when a path is read as a file. -/
def fileState (h : Host) (text : String) : FileState :=
  if text = "" then .absent
  else if Path.maxPathBytes < text.utf8ByteSize then .unreachable FileState.tooLongProblem
  else
    match h.walk (Path.start h.workingDirectory text) (Path.names text) with
    | .error state => state
    | .ok p => ((h.node? p).map nodeState).getD .absent

/-- Whether something is at a path, or nothing is but could be. -/
def canBeAt (h : Host) (p : Path) : Bool :=
  match h.walk [] p with
  | .ok _ | .error .absent => true
  | .error _ => false

/-- One step on the way to a database. -/
def stepToDatabase (h : Host) (p : Path) (name : String) : Option Path :=
  if name ∈ ["", ".", ".."] then some (p.follow name)
  else if Path.maxDatabasePathBytes < p.text.utf8ByteSize + name.utf8ByteSize + 2 then none
  else if h.canBeAt (p.follow name) then some (p.follow name)
  else none

/-- Where a database is that a text names. -/
def databasePath? (h : Host) (text : String) : Option Path :=
  let path? :=
    (Path.names text).foldlM h.stepToDatabase (Path.start h.workingDirectory text)
  path?.filter Path.suitsDatabase

/-- What is found at the path of a database. An empty file is a database without tables. -/
def storageAt (h : Host) (p : Path) : Storage :=
  match h.node? p with
  | some .directory => .directory
  | some (.database t) => .tables t
  | some (.file content) => if content.isEmpty then .tables .empty else .foreign
  | none =>
    match h.step p.dropLast (p.getLast?.getD "") with
    | .error .absent => .absent
    | _ => .unavailable

/-- Where a database is to be that a text names. -/
def site (h : Host) (text : String) : Site :=
  match h.databasePath? text with
  | none => ⟨.unavailable, false, 0⟩
  | some p => ⟨h.storageAt p, decide (p ∈ h.held), p.room⟩

/-- The host with something else at a path. -/
def put (h : Host) (p : Path) (node : Node) : Host :=
  { h with nodes := (p, node) :: h.nodes.filter (·.1 != p) }

/-- The host once a database is left. -/
def keep (h : Host) (c : Connection) : Host :=
  match c.location, c.content with
  | .file text, .tables t => (h.databasePath? text).elim h fun p => h.put p (.database t)
  | _, _ => h

/-- The host a number of milliseconds later. -/
def after (h : Host) (millis : Nat) : Host :=
  let later := Instant.ofMicros? (h.timeOfDay.micros + 1000 * millis)
  { h with timeOfDay := later.getD h.timeOfDay }

/-- A path and what is found at it. -/
def fileEntry (h : Host) (path : String) : FileEntry := ⟨path, h.fileState path⟩

/-- Where the settings of a run come from. -/
def sources (h : Host) (i : Invocation) : Sources where
  user := h.fileEntry (Config.userFile h.environment)
  project := h.fileEntry (Config.projectFile h.workingDirectory.text)
  named := i.config.map h.fileEntry
  environment := h.environment

/-- Runs the program. -/
def run (h : Host) (words : List String) : Outcome × Host :=
  match Invocation.ofWords words with
  | .error fault => (.ofUsage fault, h)
  | .ok i =>
    match i.settings (h.sources i) with
    | .error e => (.ofResult (.error e), h)
    | .ok c =>
      let (result, connection) := i.serve c h.site h.timeOfDay
      (.ofResult result, connection.elim h fun connection =>
        (h.keep connection).after (connection.waitMillis c))

end Host

end LeaseCatalog
