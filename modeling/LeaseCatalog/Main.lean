import LeaseCatalog.Command.Host
import LeaseCatalog.Store.Listing
import Std.Time.DateTime.Timestamp

/-!
# The program

The command line of the catalog. What it does is in `Command/Serve`; here are only the words, the
files, the variables and the clock of the process that runs it. A database is a file that holds the
listings of its tables, and is held by one process at a time.
-/

namespace LeaseCatalog.Program

/-- The time of day, in whole microseconds. -/
def timeOfDay : IO Instant := do
  let now ← Std.Time.Timestamp.now
  return ((Instant.ofMicros? (now.toNanosecondsSinceUnixEpoch.val / 1000)).getD .epoch)

/-- What is found at the path of a file. -/
def fileState (path : String) : IO FileState := do
  let here ← IO.currentDir
  if ← (here / path).isDir then return .directory
  match ← (IO.FS.readBinFile path).toBaseIO with
  | .ok content => return .file content
  | .error (.noFileOrDirectory _ _ _) => return .absent
  | .error (.invalidArgument _ _ _) => return .unreachable FileState.tooLongProblem
  | .error _ => return .unreachable FileState.throughFileProblem

/-- A path and what is found at it. -/
def fileEntry (path : String) : IO FileEntry := do
  let state ← fileState path
  return ⟨path, state⟩

/-- The names of the variables that matter. -/
def variableNames : List String := Config.directoryVariables ++ Variable.all.map Variable.name

/-- The values of the variables that matter. -/
def environment : IO (String → Option String) := do
  let values ← variableNames.mapM fun name => do
    let value ← IO.getEnv name
    return (name, value)
  return fun name => (values.find? (·.1 == name)).bind (·.2)

/-- Where the settings of a run come from. -/
def sources (i : Invocation) : IO Sources := do
  let values ← environment
  let here ← IO.currentDir
  let user ← fileEntry (Config.userFile values)
  let project ← fileEntry (Config.projectFile here.toString)
  let named ← i.config.mapM fileEntry
  return ⟨user, project, named, values⟩

/-- The tables of a file. -/
def storageOf (content : ByteArray) : Storage :=
  if content.isEmpty then .tables .empty
  else
    match ((String.fromUTF8? content).bind Json.read?).bind Tables.ofListing? with
    | some t => .tables t
    | none => .foreign

/-- What is found at the path of a database. A file that is to be created is created here, and that
shows whether it can be. -/
def storage (permission : Permission) (path : String) : IO Storage := do
  match ← fileState path with
  | .file content => return storageOf content
  | .directory => return .directory
  | .absent =>
    if permission = .create then
      match ← (IO.FS.writeBinFile path ⟨#[]⟩).toBaseIO with
      | .ok () => return .tables .empty
      | .error _ => return .unavailable
    else return .absent
  | .unreachable _ => return .unavailable

/-- Serves a command on the database in a file, which nobody else uses meanwhile. -/
def serveFile (i : Invocation) (c : Config) (permission : Permission) (p : Path) :
    IO (Except Error Json) := do
  let now ← timeOfDay
  let found ← if p.suitsDatabase then storage permission p.text else pure .unavailable
  match found with
  | .tables _ =>
    let handle ← IO.FS.Handle.mk p.text .readWrite
    handle.lock
    let content ← IO.FS.readBinFile p.text
    let (result, connection) := i.serve c (fun _ => ⟨storageOf content, false, p.room⟩) now
    match connection with
    | some ⟨_, _, _, .tables t, none⟩ =>
      handle.truncate
      handle.write t.listing.compact.toUTF8
      handle.flush
    | _ => pure ()
    handle.unlock
    return result
  | found => return (i.serve c (fun _ => ⟨found, false, p.room⟩) now).1

/-- How the database of some settings is opened, if it can be. -/
def access? (c : Config) : Option Access :=
  match Address.ofUrl c.url with
  | .ok a => (Access.ofAddress a).toOption.filter fun _ => c.dialect != .postgres
  | .error _ => none

/-- Serves a command. -/
def serve (i : Invocation) (c : Config) : IO (Except Error Json) := do
  match access? c with
  | some ⟨.file text, permission, _, _⟩ =>
    let here ← IO.currentDir
    serveFile i c permission (Path.ofText (Path.ofText [] here.toString) text)
  | _ => do
    let now ← timeOfDay
    return (i.serve c (fun _ => .fresh) now).1

/-- Runs the program. -/
def run (words : List String) : IO Outcome := do
  match Invocation.ofWords words with
  | .error fault => return .ofUsage fault
  | .ok i =>
    let s ← sources i
    match i.settings s with
    | .error e => return .ofResult (.error e)
    | .ok c =>
      let result ← serve i c
      return .ofResult result

end LeaseCatalog.Program

open LeaseCatalog in
/-- Runs the program and shows how it ends. -/
def main (words : List String) : IO UInt32 := do
  let outcome ← Program.run words
  match outcome with
  | .printed text => IO.print text
  | .failed _ report => IO.eprint report
  return outcome.exitStatus.toUInt32
