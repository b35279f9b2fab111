import LeaseCatalog.Manager.Basic

/-!
# Sessions

Any number of managers share the tables of one database. A session is that database and its
managers; a `Step` is one whole call of a manager, one request to the stores past all managers, one
move of a clock, or the creation of missing tables. In a session steps come one after the other.
-/

namespace LeaseCatalog

/-- A database and the managers that share it. -/
structure Session where
  /-- The make of the database. -/
  dialect : Dialect
  /-- Its tables. -/
  tables : Tables
  /-- The managers, by their numbers. -/
  managers : Nat → Manager

/-- What may happen in a session. -/
inductive Step where
  /-- A manager serves a caller. -/
  | serve (manager : Nat) (operation : Operation)
  /-- The stores are asked directly. -/
  | ask (request : Request)
  /-- The clock of a manager is moved. -/
  | move (manager : Nat) (how : ManualClock.Move)
  /-- The tables that are missing are created. -/
  | initialise
deriving DecidableEq

namespace Step

/-- What a step gives. -/
def Answer : Step → Type
  | .serve _ _ => Except Error Reply
  | .ask request => request.Answer
  | .move _ _ => Instant
  | .initialise => Unit

end Step

namespace Session

/-- The session with another manager in the place of one. -/
def replace (s : Session) (i : Nat) (m : Manager) : Session :=
  { s with managers := fun j => if j = i then m else s.managers j }

/-- Has a manager serve a call. -/
def serve {α : Type} (s : Session) (i : Nat) (call : Call α) : Except Error α × Session :=
  let (result, m, t) := (s.managers i).serve (.ofTables s.dialect) call s.tables
  (result, { s.replace i m with tables := t })

/-- Takes a step. -/
def step (s : Session) : (x : Step) → x.Answer × Session
  | .serve i operation => s.serve i (operation.call (s.managers i).timing)
  | .ask request =>
    let (answer, t) := request.perform s.dialect s.tables
    (answer, { s with tables := t })
  | .move i how =>
    let m := s.managers i
    let clock := m.clock.move how
    (clock.now, s.replace i { m with clock := clock })
  | .initialise => ((), { s with tables := s.tables.create })

/-- Takes steps one after the other: what each of them gave, and the session then. -/
def run (s : Session) : List Step → List ((x : Step) × x.Answer) × Session
  | [] => ([], s)
  | x :: rest =>
    let (answer, s) := s.step x
    let (answers, s) := run s rest
    (⟨x, answer⟩ :: answers, s)

end Session

end LeaseCatalog
