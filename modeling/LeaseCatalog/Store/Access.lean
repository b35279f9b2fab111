import LeaseCatalog.Store.FileUri

/-!
# Access to databases

What an address and the name in it say together: where a database is, what may be done with it, and
how connections to it keep out of each other's way. A name that is a file URI may allow less than its
address, but not more, unless the address is that of a database in the memory. A name is taken as it
is once its address says how to reach its file, or that nothing changes it.
-/

namespace LeaseCatalog

/-- What may be done with a database. -/
inductive Permission where
  /-- To read it. -/
  | read
  /-- To read and write it. -/
  | write
  /-- To read and write it, and to create it if it is not there. -/
  | create
deriving DecidableEq

namespace Permission

/-- How many kinds of things may be done. -/
def rank : Permission → Nat
  | .read => 0
  | .write => 1
  | .create => 2

end Permission

/-- How a connection locks a file. -/
inductive Locking where
  /-- Not at all. -/
  | none
  /-- By a lock on the file, which every connection of this kind sees. -/
  | onFile
  /-- By something beside the file, which is named after it. -/
  | beside
deriving DecidableEq

/-- A way to reach files. -/
inductive FileSystem where
  /-- With a lock on the file as long as it is used. -/
  | plain
  /-- With a lock beside the file. -/
  | dotFile
  /-- With a lock on the file as long as it is open. -/
  | exclusive
  /-- Without locks. -/
  | lockless
  /-- Not at all: files are in the memory. -/
  | memory
deriving DecidableEq

namespace FileSystem

/-- All ways to reach files. -/
def all : List FileSystem := [.plain, .dotFile, .exclusive, .lockless, .memory]

/-- The name of a way to reach files. -/
def text : FileSystem → String
  | .plain => "unix"
  | .dotFile => "unix-dotfile"
  | .exclusive => "unix-excl"
  | .lockless => "unix-none"
  | .memory => "memdb"

/-- The way to reach files that has a name. -/
def named (name : String) : Except Failure FileSystem :=
  match all.find? (·.text == name) with
  | some fileSystem => .ok fileSystem
  | none => .error (.noSuchFileSystem name)

/-- How it locks a file. -/
def locking : FileSystem → Locking
  | .plain | .exclusive => .onFile
  | .dotFile => .beside
  | .lockless | .memory => .none

/-- The most bytes that the name of a file in the memory may have. -/
def maxMemoryNameBytes : Nat := 1016

end FileSystem

/-- Where a database is. -/
inductive Location where
  /-- In the memory, as long as it is in use. -/
  | memory
  /-- In a file. -/
  | file (path : String)
deriving DecidableEq

/-- What a name asks for, together with its address. -/
structure Opening where
  /-- The path of the file. -/
  path : String
  /-- What may be done. -/
  permission : Permission
  /-- Whether the database is in the memory, whatever its path is. -/
  inMemory : Bool
  /-- The way to reach the file, if one is named. -/
  fileSystem : Option String
  /-- Whether nothing and nobody changes the file while it is open. -/
  immutable : Bool
  /-- Whether the file is to be locked. -/
  locks : Bool
deriving DecidableEq

namespace Opening

/-- The opening of a database in the memory, or of a file, with a permission. -/
def permitted (o : Opening) (value : String) (permission : Permission) : Except Failure Opening :=
  if o.inMemory ∨ permission.rank ≤ o.permission.rank then
    .ok { o with permission := permission, inMemory := false }
  else .error (.accessModeNotAllowed value)

/-- The opening with one more option of a file URI. -/
def withOption (o : Opening) (name value : String) : Except Failure Opening :=
  if name = "cache" then
    if value ∈ ["shared", "private"] then .ok o else .error (.noSuchCacheMode value)
  else if name = "mode" then
    if value = "ro" then o.permitted value .read
    else if value = "rw" then o.permitted value .write
    else if value = "rwc" then o.permitted value .create
    else if value = "memory" then .ok { o with permission := .write, inMemory := true }
    else .error (.noSuchAccessMode value)
  else .ok o

/-- The opening with more options of a file URI. -/
def withOptions (o : Opening) : List (String × String) → Except Failure Opening
  | [] => .ok o
  | (name, value) :: rest =>
    match o.withOption name value with
    | .ok o => o.withOptions rest
    | .error failure => .error failure

/-- The opening that a file URI asks for in place of one of its text. -/
def ofUri (o : Opening) (u : FileUri) : Except Failure Opening :=
  { o with path := u.path, fileSystem := u.lastOption? "vfs",
           immutable := u.hasFlag "immutable",
           locks := !u.hasFlag "nolock" }.withOptions u.options

/-- The value of a parameter as it is handed on. -/
def handedOn (value : String) : String :=
  String.ofList ((value.toList.takeWhile (· != '\x00')).map fun c => if c = ' ' then '+' else c)

/-- What an address asks for. -/
def ofAddress (a : Address) : Except Failure Opening :=
  let permission : Permission :=
    if a.readOnly then .read else if a.create then .create else .write
  let o : Opening := ⟨a.name, permission, a.inMemory, a.fileSystem.map handedOn, a.immutable, true⟩
  if a.immutable ∨ a.fileSystem.isSome then
    .ok { o with path := String.ofList (a.name.toList.takeWhile (· != '\x00')) }
  else if '\x00' ∈ a.name.toList then .error .nulInName
  else
    match FileUri.ofName? a.name with
    | none => .ok o
    | some (.ok u) => o.ofUri u
    | some (.error failure) => .error failure

end Opening

/-- How a database is opened. -/
structure Access where
  /-- Where it is. -/
  location : Location
  /-- What may be done with it. -/
  permission : Permission
  /-- Whether nothing and nobody changes it while it is open. -/
  immutable : Bool
  /-- How it is locked. -/
  locking : Locking
deriving DecidableEq

namespace Access

/-- How a database is opened that is asked for. One without a path is as short-lived as the memory,
and nothing else can change it anyway. -/
def ofOpening (o : Opening) : Except Failure Access := do
  let fileSystem ← FileSystem.named (o.fileSystem.getD FileSystem.plain.text)
  if o.inMemory ∨ o.path ∈ ["", Address.memoryName] then .ok ⟨.memory, o.permission, false, .none⟩
  else if fileSystem = .memory then
    if FileSystem.maxMemoryNameBytes < o.path.utf8ByteSize then .error .cannotOpen
    else .ok ⟨.memory, o.permission, o.immutable, .none⟩
  else
    .ok ⟨.file o.path, o.permission, o.immutable,
      if o.locks ∧ ¬ o.immutable then fileSystem.locking else .none⟩

/-- How the database of an address is opened. -/
def ofAddress (a : Address) : Except Failure Access := do
  let o ← Opening.ofAddress a
  ofOpening o

/-- Whether nothing can be written. -/
def isReadOnly (a : Access) : Bool := a.permission == .read || a.immutable

end Access

end LeaseCatalog
