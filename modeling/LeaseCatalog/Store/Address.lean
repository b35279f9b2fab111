import LeaseCatalog.Store.Failure
import LeaseCatalog.Text.Percent
import LeaseCatalog.Text.Quoted
import LeaseCatalog.Text.Utf8

/-!
# Addresses of databases

The address of a database gives its name, and says behind a question mark how it is to be opened.
Both parts may hold bytes as percent signs and digits; behind the question mark a plus sign stands
for a space. A parameter that is given twice counts as it is given last, but reading once and
creating once are never taken back.
-/

namespace LeaseCatalog

/-- What an address says of a database. -/
structure Address where
  /-- Its name. -/
  name : String
  /-- Whether it is in the memory, whatever its name is. -/
  inMemory : Bool
  /-- Whether it is only to be read. -/
  readOnly : Bool
  /-- Whether it is to be created if it is not there. -/
  create : Bool
  /-- Whether nothing and nobody changes it while it is open. -/
  immutable : Bool
  /-- The way to reach its file, if one is named. -/
  fileSystem : Option String
deriving DecidableEq

namespace Address

/-- A text without the long form of the scheme, as often as it stands at the start. -/
def dropLongScheme : List Char → List Char
  | 's' :: 'q' :: 'l' :: 'i' :: 't' :: 'e' :: ':' :: '/' :: '/' :: rest => dropLongScheme rest
  | text => text

/-- A text without the short form of the scheme, as often as it stands at the start. -/
def dropShortScheme : List Char → List Char
  | 's' :: 'q' :: 'l' :: 'i' :: 't' :: 'e' :: ':' :: rest => dropShortScheme rest
  | text => text

/-- The name of a database as an address writes it. -/
def databaseName (text : List Char) : Except Failure String :=
  match Text.Utf8.fault? (Text.Percent.decode text) with
  | some fault => .error (.configuration fault)
  | none => .ok (Text.Utf8.lossy (Text.Percent.decode text))

/-- The text up to a character and the text behind it, if it is there. -/
def splitAt (c : Char) (text : List Char) : List Char × Option (List Char) :=
  match text.dropWhile (· != c) with
  | [] => (text, none)
  | _ :: rest => (text.takeWhile (· != c), some rest)

/-- A name or a value behind the question mark; a plus sign stands for a space. -/
def formText (text : List Char) : String :=
  Text.Utf8.lossy (Text.Percent.decode (text.map fun c => if c = '+' then ' ' else c))

/-- The names and values behind the question mark. -/
def parameters (text : List Char) : List (String × String) :=
  let parts := (String.ofList text).splitOn "&"
  (parts.filter (· != "")).map fun part =>
    let (name, value) := splitAt '=' part.toList
    (formText name, formText (value.getD []))

/-- The failure of a value that is not known. -/
def unknownValue (name value : String) : Failure :=
  .configuration ("unknown value " ++ Text.quoted value ++ " for `" ++ name ++ "`")

/-- The address with one more parameter. How connections share what they have read makes no
difference to a catalog. -/
def withParameter (a : Address) (name value : String) : Except Failure Address :=
  if name = "mode" then
    if value = "ro" then .ok { a with readOnly := true }
    else if value = "rw" then .ok a
    else if value = "rwc" then .ok { a with create := true }
    else if value = "memory" then .ok { a with inMemory := true }
    else .error (unknownValue name value)
  else if name = "cache" then
    if value ∈ ["private", "shared"] then .ok a else .error (unknownValue name value)
  else if name = "immutable" then
    if value ∈ ["true", "1"] then .ok { a with immutable := true }
    else if value ∈ ["false", "0"] then .ok { a with immutable := false }
    else .error (unknownValue name value)
  else if name = "vfs" then .ok { a with fileSystem := some value }
  else
    .error (.configuration ("unknown query parameter `" ++ name ++
      "` while parsing connection URL"))

/-- The address with more parameters. -/
def withParameters (a : Address) : List (String × String) → Except Failure Address
  | [] => .ok a
  | (name, value) :: rest =>
    match a.withParameter name value with
    | .ok a => a.withParameters rest
    | .error failure => .error failure

/-- The name that stands for a database in the memory. -/
def memoryName : String := ":memory:"

/-- What stands before the question mark. Nothing in the name of the memory stands for a byte. -/
def ofName (text : List Char) : Except Failure Address :=
  if String.ofList text = memoryName then .ok ⟨memoryName, true, false, false, false, none⟩
  else (databaseName text).map fun name => ⟨name, false, false, false, false, none⟩

/-- Reads an address. -/
def ofUrl (url : String) : Except Failure Address := do
  let (name, query) := splitAt '?' (dropShortScheme (dropLongScheme url.toList))
  let a ← ofName name
  a.withParameters (parameters (query.getD []))

end Address

end LeaseCatalog
