import LeaseCatalog.Manager.Call

/-!
# Stores that follow a script

A script holds what the stores are to answer, one list for each kind of question, and every question
takes the next answer of its list. Once a list is used up, nothing is found any more and every write
succeeds.
-/

namespace LeaseCatalog

/-- The answers that stores are to give. -/
structure Script where
  /-- To the question what a key stands for. -/
  tags : List (Except Error Tag)
  /-- To the question what the reservation of a key is. -/
  reservations : List (Except Error Reservation)
  /-- To requests that write. -/
  writes : List (Except Error Unit)

namespace Script

/-- The answer to a write, and what is left of the script. -/
def write (s : Script) : Except Error Unit × Script :=
  match s.writes with
  | [] => (.ok (), s)
  | answer :: rest => (answer, { s with writes := rest })

/-- Stores that follow a script. A conditional update that succeeds says that it wrote one row. -/
def stores : Stores Script
  | .getTag _, s =>
    match s.tags with
    | [] => (.error .entryNotFound, s)
    | answer :: rest => (answer, { s with tags := rest })
  | .get _, s =>
    match s.reservations with
    | [] => (.error .entryNotFound, s)
    | answer :: rest => (answer, { s with reservations := rest })
  | .update _, s => (s.write.1.map fun _ => (1 : Nat), s.write.2)
  | .createArtifact _, s => s.write
  | .addTag _ _ _, s => s.write
  | .create _, s => s.write
  | .createOrUpdate _ _, s => s.write
  | .delete _, s => s.write

end Script

end LeaseCatalog
