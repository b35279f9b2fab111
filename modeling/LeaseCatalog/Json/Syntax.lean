import LeaseCatalog.Json.Token
import LeaseCatalog.Json.Value

/-!
# Documents as they are written

`Document` is the tree of a document before anything is said about its meaning: numbers and texts
may have no value, and an object keeps its members in the order in which they stand, a name as often
as it stands there. A machine with a stack of the lists and objects that are still open makes it
from the tokens, one at a time, and a bound on the height of the stack limits the nesting.

`Document.value?` gives the tree its value, and `read?` does both.
-/

namespace LeaseCatalog.Json

/-- The tree of a document. -/
inductive Document where
  /-- The word `null`. -/
  | null
  /-- The word `true` or `false`. -/
  | bool (b : Bool)
  /-- A number. -/
  | number (n : NumberText)
  /-- A text, if it has content. -/
  | string (content : Option String)
  /-- A list. -/
  | array (items : List Document)
  /-- An object. -/
  | object (members : List (Option String × Document))

/-- A list or an object that is still open, with what it holds so far in reverse. -/
inductive Frame where
  /-- A list. -/
  | array (items : List Document)
  /-- An object, and the name that was read last in it. -/
  | object (name : Option String) (members : List (Option String × Document))

/-- What may come next. -/
inductive Awaited where
  /-- A value; also the end of a list in which nothing stands yet. -/
  | value (mayClose : Bool)
  /-- A name; also the end of an object in which nothing stands yet. -/
  | name (mayClose : Bool)
  /-- The colon after a name. -/
  | colon
  /-- A comma or an end. -/
  | next

/-- The state of the machine. -/
structure Reader where
  /-- The lists and objects that are still open, the innermost first. -/
  stack : List Frame
  /-- What may come next. -/
  awaited : Awaited
  /-- The tree of the whole text, once it is complete. -/
  result : Option Document

namespace Reader

/-- Before the first token. -/
def initial : Reader := ⟨[], .value false, none⟩

/-- Puts a complete value into the innermost list or object, or makes it the result. -/
def deliver (value : Document) : List Frame → Reader
  | [] => ⟨[], .next, some value⟩
  | .array items :: stack => ⟨.array (value :: items) :: stack, .next, none⟩
  | .object name members :: stack => ⟨.object name ((name, value) :: members) :: stack, .next, none⟩

/-- Reads one token, with at most `limit` lists and objects open at a time. -/
def read? (limit : Nat) (r : Reader) (token : Token) : Option Reader :=
  match token, r.awaited, r.stack with
  | .null, .value _, stack => some (deliver .null stack)
  | .bool b, .value _, stack => some (deliver (.bool b) stack)
  | .number n, .value _, stack => some (deliver (.number n) stack)
  | .string content, .value _, stack => some (deliver (.string content) stack)
  | .string content, .name _, .object _ members :: stack =>
    some ⟨.object content members :: stack, .colon, none⟩
  | .openArray, .value _, stack =>
    if stack.length < limit then some ⟨.array [] :: stack, .value true, none⟩ else none
  | .openObject, .value _, stack =>
    if stack.length < limit then some ⟨.object none [] :: stack, .name true, none⟩ else none
  | .closeArray, .value true, .array items :: stack => some (deliver (.array items.reverse) stack)
  | .closeArray, .next, .array items :: stack => some (deliver (.array items.reverse) stack)
  | .closeObject, .name true, .object _ members :: stack =>
    some (deliver (.object members.reverse) stack)
  | .closeObject, .next, .object _ members :: stack =>
    some (deliver (.object members.reverse) stack)
  | .comma, .next, .array items :: stack => some ⟨.array items :: stack, .value false, none⟩
  | .comma, .next, .object name members :: stack =>
    some ⟨.object name members :: stack, .name false, none⟩
  | .colon, .colon, stack => some ⟨stack, .value false, none⟩
  | _, _, _ => none

/-- Reads a list of tokens. -/
def readAll? (limit : Nat) : Reader → List Token → Option Reader
  | r, [] => some r
  | r, token :: rest =>
    match r.read? limit token with
    | none => none
    | some r => readAll? limit r rest

end Reader

namespace Document

/-- The tree of a text, if it is one document with at most `limit` containers inside each other. -/
def read? (limit : Nat) (text : List Char) : Option Document :=
  match tokens? text with
  | none => none
  | some tokens =>
    match Reader.initial.readAll? limit tokens with
    | none => none
    | some r => r.result

mutual

/-- The value of a tree, if its numbers and texts have one. Of members with the same name the last
one counts. -/
def value? : Document → Option Json
  | .null => some .null
  | .bool b => some (.bool b)
  | .number n => (Number.ofText? n).map .number
  | .string content => content.map .string
  | .array items => (itemValues? items).map .array
  | .object members => (memberValues? [] members).map .object

/-- The values of a list. -/
def itemValues? : List Document → Option (List Json)
  | [] => some []
  | item :: rest =>
    match value? item, itemValues? rest with
    | some v, some vs => some (v :: vs)
    | _, _ => none

/-- The members of an object, added to those before them. -/
def memberValues? : List (String × Json) → List (Option String × Document) →
    Option (List (String × Json))
  | known, [] => some known
  | known, (name, document) :: rest =>
    match name, value? document with
    | some name, some v => memberValues? (insert name v known) rest
    | _, _ => none

end

end Document

/-- How many lists and objects may be nested in a value that is read. -/
def maxNesting : Nat := 127

/-- The value that a text denotes, if it denotes one. -/
def read? (text : String) : Option Json :=
  (Document.read? maxNesting text.toList).bind Document.value?

end LeaseCatalog.Json
