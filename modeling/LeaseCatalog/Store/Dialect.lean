import LeaseCatalog.Error

/-!
# Dialects

Databases of different make report the same event by different codes. A `Dialect` says how the
failures of a database translate into errors of the catalog; apart from a missing row, which all
dialects know, the generic one classifies nothing.
-/

namespace LeaseCatalog

/-- The make of a database. -/
inductive Dialect where
  /-- SQLite. -/
  | sqlite
  /-- PostgreSQL. -/
  | postgres
  /-- Any other. -/
  | generic
deriving DecidableEq

namespace Dialect

instance : Inhabited Dialect := ⟨.sqlite⟩

/-- All dialects, in the order in which messages list them. -/
def all : List Dialect := [.sqlite, .postgres, .generic]

/-- The name of a dialect. -/
def text : Dialect → String
  | .sqlite => "sqlite"
  | .postgres => "postgres"
  | .generic => "generic"

/-- The dialect of a name, in capitals or not. Only the letters of ASCII have capitals here. -/
def ofText? (s : String) : Option Dialect := all.find? fun d => d.text == s.map Char.toLower

/-- The dialect of a name in small letters. -/
def ofExactText? (s : String) : Option Dialect := all.find? fun d => d.text == s

/-- The error of a failure where no code is known. -/
def translateUnclassified : Failure → Error
  | .rowNotFound => .entryNotFound
  | failure => .unexpectedFailure failure

/-- The error of a failure. -/
def translate : Dialect → Failure → Error
  | .sqlite, .database code message _ =>
    let code := code.getD ""
    if code = "1555" ∨ code = "2067" then .duplicateKey message
    else .failedOperation code message
  | .postgres, .database code message _ =>
    let code := code.getD ""
    if code = "23505" then .duplicateKey message
    else if code = "42P01" then .undefinedTable message
    else .failedOperation code message
  | _, failure => translateUnclassified failure

end Dialect

end LeaseCatalog
