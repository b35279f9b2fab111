import LeaseCatalog.Command.Run
import LeaseCatalog.Config.Load
import LeaseCatalog.Store.Connection

/-!
# Serving a command line

One run of the program reads its words, loads the settings, opens the database, creates the tables
that are missing and runs the command. The address of the database may come from the words instead
of the settings. The document goes to standard output, an error to standard error, and the exit
status tells the kinds of errors apart.
-/

namespace LeaseCatalog

/-- How a run of the program ends. -/
inductive Outcome where
  /-- With a text on standard output. -/
  | printed (text : String)
  /-- With a text on standard error. -/
  | failed (exitStatus : Nat) (report : String)
deriving DecidableEq

namespace Outcome

/-- The status with which the program ends. -/
def exitStatus : Outcome → Nat
  | .printed _ => 0
  | .failed status _ => status

/-- The end of a run whose command has ended. -/
def ofResult : Except Error Json → Outcome
  | .ok v => .printed (v.pretty ++ "\n")
  | .error e => .failed e.kind.exitStatus (e.report ++ "\n")

/-- What the program prints when it is asked for its version. -/
def versionText : String := "datacatalog 0.1.0\n"

/-- What the program prints when it is asked for help. -/
def usageText : String :=
  "Get a cached artifact, or reserve the right to compute it\n\n" ++
    "Usage: datacatalog [OPTIONS] <COMMAND>\n\nCommands: " ++
      ", ".intercalate (Verb.all.map Verb.text) ++ ", help\n"

/-- The end of a run whose words name no command. -/
def ofUsage : UsageFault → Outcome
  | .version => .printed versionText
  | .help => .printed usageText
  | fault => .failed 2 ("error: " ++ fault.text ++ "\n\n" ++ usageText)

end Outcome

namespace Stores

/-- The stores of a database that cannot be changed: a request to write ends with what is wrong with
it by itself, or with the failure of every change. -/
def obstructed (d : Dialect) (failure : Failure) : Stores Tables :=
  fun request t =>
    if request.writes then (.error (request.fault?.getD (d.translate failure)), t)
    else request.perform d t

end Stores

namespace Connection

/-- The stores of an open database. -/
def stores (c : Connection) : Stores Tables :=
  match c.obstacle with
  | some failure => .obstructed c.dialect failure
  | none => .ofTables c.dialect

/-- The milliseconds after which a statement gives up waiting for another connection. -/
def patienceMillis : Nat := 5000

/-- The milliseconds that a run waits for another connection. -/
def waitMillis (c : Connection) (settings : Config) : Nat :=
  if c.content = .failing .locked then min settings.timeoutMillis patienceMillis else 0

/-- Runs a command on a database: how it ends, and the database then. A request whose time is over
before the database gives up ends with that. -/
def run (c : Connection) (settings : Config) (timeOfDay : Instant) (command : Command) :
    Except Error Json × Connection :=
  if c.content = .failing .locked ∧ settings.timeoutMillis < patienceMillis then
    (.error (.timedOut settings.timeoutMillis), c)
  else
    match c.createTables with
    | .error failure => (.error (c.dialect.translate failure), c)
    | .ok t =>
      let m := Manager.startingAt settings.timing timeOfDay
      let (result, _, t) := command.run c.stores m timeOfDay t
      (result, { c with content := .tables t })

end Connection

namespace Invocation

/-- The settings of a run. The address from the words is put in last. -/
def settings (i : Invocation) (s : Sources) : Except Error Config := do
  let c ← Config.load s
  .ok { c with url := i.databaseUrl.getD c.url }

/-- Serves a command: how it ends, and the database then, if it could be opened. -/
def serve (i : Invocation) (c : Config) (look : String → Site) (timeOfDay : Instant) :
    Except Error Json × Option Connection :=
  match Connection.connect c look with
  | .error e => (.error e, none)
  | .ok connection =>
    let (result, connection) := connection.run c timeOfDay i.command
    (result, some connection)

end Invocation

end LeaseCatalog
