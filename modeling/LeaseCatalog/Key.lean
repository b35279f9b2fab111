import LeaseCatalog.Text.Blank

/-!
# Datasets and keys

A key is what callers contend for: a dataset, given by its four names, and a tag in it. Two keys are
the same when all five texts are; the form in which a key is shown does not tell all keys apart,
because a name may itself hold a slash or a colon.

Every text that callers supply must be sound: not blank, at most `maxFieldLength` characters long and
free of control characters. `Key.fault?` and `ownerFault?` find the first fault.
-/

namespace LeaseCatalog

/-- What a key is for: the names of a task's result. -/
@[ext] structure Dataset where
  /-- The project. -/
  project : String
  /-- The domain in the project. -/
  domain : String
  /-- The name in the domain. -/
  name : String
  /-- The version of what has that name. -/
  version : String
deriving DecidableEq

/-- A tag in a dataset. -/
@[ext] structure Key where
  /-- The dataset. -/
  dataset : Dataset
  /-- The name of the tag. -/
  tag : String
deriving DecidableEq

/-- A dataset as messages show it. -/
def Dataset.text (d : Dataset) : String :=
  d.project ++ "/" ++ d.domain ++ "/" ++ d.name ++ "/" ++ d.version

/-- A key as messages show it. -/
def Key.text (k : Key) : String := k.dataset.text ++ ":" ++ k.tag

/-! ## Soundness of what callers supply -/

/-- The texts that callers supply. -/
inductive Field where
  /-- The project of a dataset. -/
  | project
  /-- The domain of a dataset. -/
  | domain
  /-- The name of a dataset. -/
  | name
  /-- The version of a dataset. -/
  | version
  /-- The name of a tag. -/
  | tag
  /-- The name of a caller. -/
  | owner
deriving DecidableEq

/-- A field as messages name it. -/
def Field.text : Field → String
  | .project => "dataset.project"
  | .domain => "dataset.domain"
  | .name => "dataset.name"
  | .version => "dataset.version"
  | .tag => "tag_name"
  | .owner => "owner_id"

/-- What can be wrong with a field. -/
inductive FieldFault where
  /-- It is blank. -/
  | blank
  /-- It has too many characters. -/
  | tooLong
  /-- It holds a control character. -/
  | control
deriving DecidableEq

/-- The most characters that a field may have. -/
def maxFieldLength : Nat := 100

/-- The first fault of a text that stands in a field. -/
def fieldFault? (s : String) : Option FieldFault :=
  if Text.allBlank s then some .blank
  else if maxFieldLength < s.toList.length then some .tooLong
  else if s.toList.any Text.isControl then some .control
  else none

/-- The first fault among fields and their texts, taken in order. -/
def firstFault? : List (Field × String) → Option (Field × FieldFault)
  | [] => none
  | (field, s) :: rest =>
    match fieldFault? s with
    | some fault => some (field, fault)
    | none => firstFault? rest

/-- The fields of a dataset. -/
def Dataset.fields (d : Dataset) : List (Field × String) :=
  [(.project, d.project), (.domain, d.domain), (.name, d.name), (.version, d.version)]

/-- The first fault of a dataset. -/
def Dataset.fault? (d : Dataset) : Option (Field × FieldFault) := firstFault? d.fields

/-- The first fault of a key: those of its dataset come before that of its tag. -/
def Key.fault? (k : Key) : Option (Field × FieldFault) :=
  firstFault? (k.dataset.fields ++ [(.tag, k.tag)])

/-- The fault of a caller's name. -/
def ownerFault? (owner : String) : Option (Field × FieldFault) := firstFault? [(.owner, owner)]

end LeaseCatalog
