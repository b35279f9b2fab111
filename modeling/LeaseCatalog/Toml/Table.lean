import LeaseCatalog.Toml.Item

/-!
# Building the tables of a configuration file

The lines of a file come one after the other: headers name the table that the keys after them belong
to, and dotted keys reach into tables of their own. A `Builder` holds the finished tables and the
one that is open. It refuses what the format refuses: a key or table that is given twice, and a
table that is extended after it was closed for extension.
-/

namespace LeaseCatalog.Toml

/-- A table and how it came to be. -/
abbrev Table := Origin × Entries

/-- How many containers, or parts of a dotted key, may be inside each other, and one more. -/
def nestingLimit : Nat := 80

/-- Changes the table at a path below a table, which is made if it is not there, and gives what the
change gives besides. A path of a dotted key leads only through tables that no header made. -/
def reach {β : Type} (byKey : Origin) (change : Table → Option (Table × β)) :
    List String → Table → Option (Table × β)
  | [], t => change t
  | key :: path, (origin, entries) =>
    match entries.find? key with
    | none =>
      (reach byKey change path (byKey, [])).map fun (t, given) =>
        ((origin, entries.put key (.table t.1 t.2)), given)
    | some (.table inner innerEntries) =>
      if inner = .braces ∨ (byKey = .dotted ∧ inner = .header) then none
      else
        (reach byKey change path (inner, innerEntries)).map fun (t, given) =>
          ((origin, entries.put key (.table t.1 t.2)), given)
    | some (.tables all) =>
      all.getLast?.bind fun last =>
        (reach byKey change path (.header, last)).map fun (t, given) =>
          ((origin, entries.put key (.tables (all.dropLast ++ [t.2]))), given)
    | some _ => none

/-- Adds a key to the table that its path led to. A table that a dotted key made takes only dotted
keys, and no other table takes them. -/
def addEntry (dotted : Bool) (key : String) (item : Item) (t : Table) : Option (Table × Unit) :=
  if (t.1 == .dotted) != dotted then none
  else if (t.2.find? key).isSome then none
  else some ((t.1, t.2 ++ [(key, item)]), ())

/-- Adds a possibly dotted key to a table. -/
def Table.add? (path : List String) (key : String) (item : Item) (t : Table) : Option Table :=
  (reach .dotted (addEntry (!path.isEmpty) key item) path t).map (·.1)

/-- The tables of a file, as far as it has been read. -/
structure Builder where
  /-- The finished tables. -/
  root : Entries
  /-- The table that is open. -/
  current : Entries
  /-- Where the open table belongs; nowhere if it is the root. -/
  path : List String
  /-- Whether the open table is one of several of its name. -/
  isArray : Bool

namespace Builder

/-- Before the first line. -/
def initial : Builder := ⟨[], [], [], false⟩

/-- Puts the open table where it belongs. -/
def place (b : Builder) (key : String) (t : Table) : Option (Table × Unit) :=
  match t.2.find? key with
  | none =>
    some ((t.1, t.2.put key (if b.isArray then .tables [b.current] else .table .header b.current)), ())
  | some (.tables all) =>
    if b.isArray then some ((t.1, t.2.put key (.tables (all ++ [b.current]))), ()) else none
  | some _ => none

/-- The root table once the open table is put where it belongs. -/
def close? (b : Builder) : Option Entries :=
  match b.path.getLast? with
  | none => some b.current
  | some key => (reach .implied (b.place key) b.path.dropLast (.header, b.root)).map (·.1.2)

/-- Takes a table out of the one that it belongs to, so that it can be opened: only a table that the
headers of tables inside it made may be there already. -/
def takeOut (key : String) (t : Table) : Option (Table × Entries) :=
  match t.2.find? key with
  | none => some (t, [])
  | some (.table .implied entries) => some ((t.1, t.2.remove key), entries)
  | some _ => none

/-- Makes room for one more table of a header in double brackets. -/
def makeRoom (key : String) (t : Table) : Option (Table × Entries) :=
  match t.2.find? key with
  | none => some ((t.1, t.2.put key (.tables [])), [])
  | some (.tables _) => some (t, [])
  | some _ => none

/-- Opens the table of a header. One that is taken up again comes last among its neighbours. -/
def openTable? (isArray : Bool) (path : List String) (b : Builder) : Option Builder := do
  let root ← b.close?
  let key ← path.getLast?
  let change := if isArray then makeRoom key else takeOut key
  let (t, entries) ← reach .implied change path.dropLast (.header, root)
  some ⟨t.2, entries, path, isArray⟩

/-- Adds a key to the open table. -/
def add? (path : List String) (key : String) (item : Item) (b : Builder) : Option Builder :=
  (Table.add? path key item (.header, b.current)).map fun t => { b with current := t.2 }

end Builder

end LeaseCatalog.Toml
