import LeaseCatalog.Config.Variable
import LeaseCatalog.Text.Bytes
import LeaseCatalog.Text.Utf8

/-!
# Loading the configuration

The configuration starts from the standard settings. Over them come the file of the user, the file
of the project and a file that the caller names, in this order, and then the variables of the
environment; only what comes out at the end is checked for sense. The first two files may be absent,
the one that the caller names may not. Variables are looked up as texts.
-/

namespace LeaseCatalog

/-- What is found at the path of a file. -/
inductive FileState where
  /-- Nothing. -/
  | absent
  /-- Nothing can be there, for a reason other than that nothing is there. -/
  | unreachable (problem : String)
  /-- A directory. -/
  | directory
  /-- A file. -/
  | file (content : ByteArray)
deriving DecidableEq

/-- A path and what is found at it. -/
structure FileEntry where
  /-- The path. -/
  path : String
  /-- What is found there. -/
  state : FileState
deriving DecidableEq

/-- The most bytes that a configuration file may have. -/
def maxFileBytes : Nat := 1048576

namespace FileState

/-- What the system says of a path at which nothing is. -/
def absentProblem : String := "No such file or directory (os error 2)"

/-- What the system says of a path that leads through a file. -/
def throughFileProblem : String := "Not a directory (os error 20)"

/-- What the system says of a path, or a name in it, that is too long. -/
def tooLongProblem : String := "File name too long (os error 36)"

/-- What the system says when a directory is read as a file. -/
def directoryProblem : String := "Is a directory (os error 21)"

/-- What is said of bytes that are no UTF-8. -/
def encodingProblem : String := "stream did not contain valid UTF-8"

end FileState

namespace Layer

/-- The layer of a file that must be there. -/
def ofFile (f : FileEntry) : Except Error Layer :=
  match f.state with
  | .absent => .error (.config (.noMetadata f.path FileState.absentProblem))
  | .unreachable problem => .error (.config (.noMetadata f.path problem))
  | .directory => .error (.config (.unreadable f.path FileState.directoryProblem))
  | .file content =>
    if maxFileBytes < content.size then .error (.config (.tooLarge f.path maxFileBytes))
    else
      match String.fromUTF8? content with
      | none => .error (.config (.unreadable f.path FileState.encodingProblem))
      | some s =>
        match Layer.read s with
        | .ok l => .ok l
        | .error fault => .error (.config (.malformed (some f.path) fault))

/-- The layer of a file that may be absent. -/
def ofOptionalFile (f : FileEntry) : Except Error Layer :=
  if f.state = .absent then .ok .empty else ofFile f

end Layer

/-- The variables of a process. They are set to bytes, which need not be those of a text. -/
structure Environment where
  /-- What a variable is set to, if it is set. -/
  bytes? : String → Option ByteArray

namespace Environment

/-- The text that a variable is set to. What is set to other bytes is taken for not set. -/
def text? (e : Environment) (name : String) : Option String :=
  (e.bytes? name).bind String.fromUTF8?

/-- Variables that are set to texts. -/
def ofTexts (texts : String → Option String) : Environment :=
  ⟨fun name => (texts name).map String.toUTF8⟩

instance : Coe (String → Option String) Environment := ⟨ofTexts⟩

@[simp] theorem text?_ofTexts (texts : String → Option String) : (ofTexts texts).text? = texts := by
  funext name
  unfold text? ofTexts
  dsimp only
  cases texts name with
  | none => rfl
  | some text => exact Text.Utf8.fromUTF8?_toUTF8 text

end Environment

/-- Where the configuration comes from. -/
structure Sources where
  /-- The file of the user. -/
  user : FileEntry
  /-- The file of the project. -/
  project : FileEntry
  /-- The file that the caller names, if it names one. -/
  named : Option FileEntry
  /-- The variables. -/
  environment : Environment

namespace Config

/-- The path of a name in a directory. -/
def pathIn (directory name : String) : String :=
  if directory = "" ∨ directory.endsWith "/" then directory ++ name else directory ++ "/" ++ name

/-- The names of the variables that say where the file of the user is. -/
def directoryVariables : List String := ["XDG_CONFIG_HOME", "HOME"]

/-- The path of the file of the user. The directory for configuration is the one that its variable
gives as a path from the root, or stands in the home directory. -/
def userFile (environment : String → Option String) : String :=
  let directory :=
    match (environment "XDG_CONFIG_HOME").filter fun d => d.startsWith "/" with
    | some directory => directory
    | none => pathIn ((environment "HOME").getD "") ".config"
  pathIn directory "datacatalog/config.toml"

/-- The path of the file of the project, from the path of its directory. -/
def projectFile (directory : String) : String := pathIn directory ".datacatalog/config.toml"

/-- The layer of the file that the caller names. -/
def namedLayer : Option FileEntry → Except Error Layer
  | none => .ok .empty
  | some f => Layer.ofFile f

/-- The configuration that the sources make. -/
def load (s : Sources) : Except Error Config := do
  let user ← Layer.ofOptionalFile s.user
  let project ← Layer.ofOptionalFile s.project
  let named ← namedLayer s.named
  let (c, result) :=
    Variable.apply s.environment.text? (named.apply (project.apply (user.apply .standard)))
  result
  c.validate
  .ok c

end Config

end LeaseCatalog
