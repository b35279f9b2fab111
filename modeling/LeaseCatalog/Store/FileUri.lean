import LeaseCatalog.Decimal.Digits
import LeaseCatalog.Store.Address

/-!
# Names that are file URIs

The name of a database may be a URI of the scheme `file`: an authority behind two slashes, which can
only be the host itself, a path, options behind a question mark, and behind a number sign a fragment
that says nothing. Paths, names of options and their values may hold bytes as percent signs and
digits, and end where such a byte is zero. An option without a name is none.
-/

namespace LeaseCatalog

/-- What a file URI says. -/
structure FileUri where
  /-- The path. -/
  path : String
  /-- The options, in their order. -/
  options : List (String × String)
deriving DecidableEq

namespace FileUri

/-- What follows the scheme in a name that has it. -/
def afterScheme? : List Char → Option (List Char)
  | 'f' :: 'i' :: 'l' :: 'e' :: ':' :: rest => some rest
  | _ => none

/-- The authority, which is empty if there is none, and what follows it. -/
def splitAuthority : List Char → List Char × List Char
  | '/' :: '/' :: rest => (rest.takeWhile (· != '/'), rest.dropWhile (· != '/'))
  | rest => ([], rest)

/-- A path, a name or a value, up to the first byte that is zero. -/
def component (text : List Char) : String :=
  Text.Utf8.lossy ((Text.Percent.decode text).takeWhile (· != 0))

/-- The options behind the question mark. -/
def readOptions (text : List Char) : List (String × String) :=
  let read := ((String.ofList text).splitOn "&").map fun part =>
    let (name, value) := Address.splitAt '=' part.toList
    (component name, component (value.getD []))
  read.filter (·.1 != "")

/-- Reads what follows the scheme. -/
def ofRest (text : List Char) : Except Failure FileUri :=
  let (authority, rest) := splitAuthority text
  if String.ofList authority ∈ ["", "localhost"] then
    let (path, query) := Address.splitAt '?' (rest.takeWhile (· != '#'))
    .ok ⟨component path, readOptions (query.getD [])⟩
  else .error (.foreignAuthority (String.ofList authority))

/-- Reads a name, if it is a file URI. -/
def ofName? (name : String) : Option (Except Failure FileUri) :=
  (afterScheme? name.toList).map ofRest

/-- The number at the start of a text, in tens or behind `0x` in sixteens; a number of more than 31
bits counts as zero. -/
def leadingNumber (text : List Char) : Nat :=
  let number : Nat :=
    match text with
    | '0' :: x :: digit :: rest =>
      if x.toLower = 'x' ∧ (Text.hexValue? digit).isSome then
        ((digit :: rest).takeWhile fun c => (Text.hexValue? c).isSome).foldl
          (fun n c => 16 * n + (Text.hexValue? c).getD 0) 0
      else Decimal.value (text.takeWhile Char.isDigit)
    | _ => Decimal.value (text.takeWhile Char.isDigit)
  if number < 2147483648 then number else 0

/-- Whether a value says that an option is on: a word for it, or a number whose last byte is not
zero. -/
def isOn (value : String) : Bool :=
  match value.toList with
  | [] => false
  | c :: rest =>
    if c.isDigit then leadingNumber (c :: rest) % 256 != 0
    else value.map Char.toLower ∈ ["on", "yes", "true"]

/-- Whether an option is on. Of several options of one name the first one counts. -/
def hasFlag (u : FileUri) (name : String) : Bool :=
  ((u.options.find? (·.1 == name)).map fun o => isOn o.2).getD false

/-- The value of an option. Of several options of one name the last one counts. -/
def lastOption? (u : FileUri) (name : String) : Option String :=
  (u.options.reverse.find? (·.1 == name)).map (·.2)

end FileUri

end LeaseCatalog
