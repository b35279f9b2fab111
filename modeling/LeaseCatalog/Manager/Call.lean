import LeaseCatalog.Manager.Counters
import LeaseCatalog.Store.Request

/-!
# Calls

Stores are shared, and other callers may change them between any two requests of one call. A `Call`
is therefore the call as it looks from inside: it reads a clock, counts events and asks its stores,
one step at a time, and what it does next depends on what it has been told so far. Nothing in it says
what the stores answer, so the same call runs against a database, against a script of answers, or
step by step among other calls.
-/

namespace LeaseCatalog

/-- A call that ends with a value or an error. -/
inductive Call (α : Type) where
  /-- The end. -/
  | done (result : Except Error α)
  /-- Reads the clock. -/
  | readClock (next : Instant → Call α)
  /-- Counts an event. -/
  | record (event : Event) (next : Call α)
  /-- Asks a store. -/
  | ask (request : Request) (next : request.Answer → Call α)

/-- What answers requests, keeping a state from one to the next. -/
abbrev Stores (σ : Type) : Type := (r : Request) → σ → r.Answer × σ

namespace Call

variable {α : Type}

/-- The end of a call that failed, which is counted. -/
def failed (event : Event) (e : Error) : Call α := .record event (.done (.error e))

/-- What a run of a call leaves behind. -/
structure Outcome (σ α : Type) where
  /-- How the call ended. -/
  result : Except Error α
  /-- The state of the stores. -/
  state : σ
  /-- The counters. -/
  counters : Counters

/-- Runs a call while nothing else happens and the clock stands still. -/
def run {σ : Type} (stores : Stores σ) (now : Instant) : Call α → σ → Counters → Outcome σ α
  | .done result, s, c => ⟨result, s, c⟩
  | .readClock next, s, c => run stores now (next now) s c
  | .record event next, s, c => run stores now next s (c.record event)
  | .ask request next, s, c =>
    let (answer, s) := stores request s
    run stores now (next answer) s c

end Call

namespace Stores

/-- Stores that also write down what they are asked, in order. -/
def logged {σ : Type} (stores : Stores σ) : Stores (σ × List Request) :=
  fun request s =>
    let (answer, state) := stores request s.1
    (answer, (state, s.2 ++ [request]))

/-- The stores of a database. -/
def ofTables (d : Dialect) : Stores Tables := fun request t => request.perform d t

end Stores

end LeaseCatalog
