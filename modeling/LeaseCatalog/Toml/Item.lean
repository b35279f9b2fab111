import LeaseCatalog.Decimal.Shortest

/-!
# Items of configuration files

Configuration files are written in TOML. An `Item` is what a key of such a file stands for. Tables
keep their keys in the order in which they came into the file, and remember how they came to be,
because the format lets a table be extended later only if it was never given a header or braces of
its own.
-/

namespace LeaseCatalog.Toml

/-- A floating-point number of a file. -/
inductive Real where
  /-- A finite number. -/
  | finite (x : Binary64)
  /-- An infinite one. -/
  | infinite (negative : Bool)
  /-- The number that is none. -/
  | nan
deriving DecidableEq

/-- The double nearest to `n * 10 ^ exponent`. Numbers beyond the reach of doubles by far are told
apart by their number of digits. -/
def Real.ofDecimal (negative : Bool) (n : Nat) (exponent : Int) : Real :=
  let size : Int := (Nat.toDigits 10 n).length + exponent
  if n = 0 ∨ size < -400 then .finite ⟨negative, 0, Binary64.minExponent⟩
  else if 400 < size then .infinite negative
  else
    match Binary64.ofRatio? negative (n * Binary64.power 10 exponent)
        (Binary64.power 10 (-exponent)) with
    | some x => .finite x
    | none => .infinite negative

/-- A number as messages show it: written out in full. -/
def Real.text : Real → String
  | .finite x => String.ofList (x.text .full)
  | .infinite false => "inf"
  | .infinite true => "-inf"
  | .nan => "NaN"

/-- How a table came to be. -/
inductive Origin where
  /-- By a header of its own. -/
  | header
  /-- By a header of a table inside it. -/
  | implied
  /-- By a dotted key. -/
  | dotted
  /-- By braces. -/
  | braces
deriving DecidableEq

/-- What a key stands for. -/
inductive Item where
  /-- A text. -/
  | string (s : String)
  /-- A whole number of 64 bits. -/
  | integer (n : Int)
  /-- A floating-point number. -/
  | real (x : Real)
  /-- A truth value. -/
  | boolean (b : Bool)
  /-- A date, a time or both. -/
  | datetime
  /-- A list of values. -/
  | array (items : List Item)
  /-- A table. -/
  | table (origin : Origin) (entries : List (String × Item))
  /-- The tables of a header in double brackets, each with its entries. -/
  | tables (all : List (List (String × Item)))

/-- The entries of a table. -/
abbrev Entries := List (String × Item)

namespace Entries

/-- The item of a key. -/
def find? (key : String) (entries : Entries) : Option Item :=
  (List.find? (·.1 == key) entries).map (·.2)

/-- The entries with another item for a key; a new key comes last. -/
def put (key : String) (item : Item) : Entries → Entries
  | [] => [(key, item)]
  | (other, old) :: rest =>
    if other = key then (key, item) :: rest else (other, old) :: put key item rest

/-- The entries without a key. -/
def remove (key : String) (entries : Entries) : Entries := List.filter (·.1 != key) entries

end Entries

end LeaseCatalog.Toml
