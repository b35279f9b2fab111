import LeaseCatalog.Session

/-!
# Calls side by side

When calls are under way at the same time, the steps of each come in their order and those of
different calls in any order. A `Traffic` is a session with the calls under way in it, and a list of
`Turn`s says who comes next: one step of one call, or something that happens between two steps. A
request is a single step, because a database executes each statement as a whole.
-/

namespace LeaseCatalog

/-- A call under way. -/
structure Thread where
  /-- The number of the manager that serves it. -/
  manager : Nat
  /-- What is left of it. -/
  call : Call Reply

/-- A session and the calls under way in it. -/
structure Traffic where
  /-- The session. -/
  session : Session
  /-- The calls, by their numbers. -/
  threads : Nat → Thread

/-- What happens next. -/
inductive Turn where
  /-- A call takes a step. -/
  | thread (number : Nat)
  /-- Something else happens. -/
  | step (x : Step)
deriving DecidableEq

namespace Traffic

/-- A session in which the callers of operations have just called. -/
def start (s : Session) (operations : Nat → Nat × Operation) : Traffic where
  session := s
  threads i :=
    let (manager, operation) := operations i
    ⟨manager, operation.call (s.managers manager).timing⟩

/-- The state in which a call has come to where only `rest` is left. -/
def advance (s : Traffic) (i : Nat) (rest : Call Reply) : Traffic :=
  { s with threads := fun j => if j = i then { s.threads i with call := rest } else s.threads j }

/-- One step of a call. -/
def stepThread (s : Traffic) (i : Nat) : Traffic :=
  let thread := s.threads i
  let m := s.session.managers thread.manager
  match thread.call with
  | .done _ => s
  | .readClock next => s.advance i (next m.clock.now)
  | .record event next =>
    let m := { m with counters := m.counters.record event }
    { s.advance i next with session := s.session.replace thread.manager m }
  | .ask request next =>
    let (answer, t) := request.perform s.session.dialect s.session.tables
    { s.advance i (next answer) with session := { s.session with tables := t } }

/-- One turn. -/
def turn (s : Traffic) : Turn → Traffic
  | .thread i => s.stepThread i
  | .step x => { s with session := (s.session.step x).2 }

/-- Turns one after the other. -/
def run (s : Traffic) (turns : List Turn) : Traffic := turns.foldl turn s

/-- How a call has ended, if it has. -/
def result? (s : Traffic) (i : Nat) : Option (Except Error Reply) :=
  match (s.threads i).call with
  | .done result => some result
  | _ => none

/-- `rounds` rounds, in each of which `count` calls have one turn each. -/
def rounds (count rounds : Nat) : List Turn :=
  (List.replicate rounds ((List.range count).map Turn.thread)).flatten

/-- No call takes more steps than this. -/
def maxSteps : Nat := 8

end Traffic

end LeaseCatalog
