import LeaseCatalog.Json.Number

/-!
# Documents

The values of RFC 8259. The members of an object are kept in the order of their names, each name
once: `Json.insert` puts a member where it belongs and replaces one of the same name, so two objects
with the same members are equal whatever order they were written in. Names are ordered by their code
points, which is the order of their bytes in UTF-8.
-/

namespace LeaseCatalog

/-- A value of a document. -/
inductive Json where
  /-- The value `null`. -/
  | null
  /-- A truth value. -/
  | bool (b : Bool)
  /-- A number. -/
  | number (n : Number)
  /-- A text. -/
  | string (s : String)
  /-- A list of values. -/
  | array (items : List Json)
  /-- Named values, in the order of their names. -/
  | object (members : List (String × Json))

namespace Json

/-- The members with one more; a member of the same name is replaced. -/
def insert (name : String) (value : Json) : List (String × Json) → List (String × Json)
  | [] => [(name, value)]
  | (other, v) :: rest =>
    if name = other then (name, value) :: rest
    else if name < other then (name, value) :: (other, v) :: rest
    else (other, v) :: insert name value rest

/-- The object of a list of members; of two with the same name the later one counts. -/
def ofMembers (members : List (String × Json)) : Json :=
  .object (members.foldl (fun known m => insert m.1 m.2 known) [])

/-- A whole number as a value. -/
def ofNat (n : Nat) : Json := .number (.int n)

/-- The value of a member. -/
def member? (name : String) : Json → Option Json
  | .object members => (members.find? (·.1 == name)).map (·.2)
  | _ => none

/-- The text of a value that is one. -/
def text? : Json → Option String
  | .string s => some s
  | _ => none

end Json

end LeaseCatalog
