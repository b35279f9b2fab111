import LeaseCatalog.Proofs.Exchanges

/-!
# What attempts are counted as

Each attempt on a lease should be counted once, as what came of it. It is, with one exception. An
attempt that loses at the write is counted as one that met another owner before the second look is
taken, and if that look fails, it is counted as a failed one as well
(`blinded_attempt_counted_twice`). The five counters of outcomes therefore rise by the number of
attempts and the number of these exceptions (`Desk.attempts_counted`).

This holds of calls side by side, in front of stores about which nothing is known. A `Desk` is a
manager that serves such calls, with what each of them has seen. What a call has counted is among
what it has seen, and the counters have risen by what all calls have counted
(`Desk.Accounts`), whatever the order of their steps.
-/

namespace LeaseCatalog

/-! ## Attempts and their outcomes -/

/-- Whether an event is what came of an attempt on a lease. -/
def Event.isOutcome : Event → Bool
  | .acquiredByCreation | .acquiredByUpdate | .alreadyInProgress | .acquireFailed
  | .extendFailed => true
  | .releaseFailed | .tagLookupFailed => false

/-- How many outcomes of attempts were counted. -/
def Counters.outcomes (c : Counters) : Nat :=
  c.acquired + c.alreadyInProgress + c.acquireFailed + c.extendFailed

namespace Observation

/-- A call is told that its key stands for nothing. -/
def missesTag : Observation → Bool
  | .answer (.getTag _) (.error e) => e.isNotFound
  | _ => false

/-- A call is told that its write lost. -/
def loses : Observation → Bool
  | .answer (.createOrUpdate _ _) (.error e) => e.isLeaseConflict
  | _ => false

/-- A call looks at its key, and the look fails. -/
def seesNothing : Observation → Bool
  | .answer (.get _) (.error e) => !e.isNotFound
  | _ => false

end Observation

/-- The outcomes that were counted of all that was seen. -/
def outcomes (seen : List Observation) : List Event := (eventsIn seen).filter (·.isOutcome)

/-- Whether a call that has seen so much loses at its write, and then cannot see to whom. -/
def isBlinded (seen : List Observation) : Bool :=
  seen.any (·.loses) && seen.any (·.seesNothing)

/-- Whether a call that has seen so much makes an attempt on a lease. -/
def Operation.attempts (operation : Operation) (seen : List Observation) : Bool :=
  match operation with
  | .reserve c => c.validate.isOk && seen.any (·.missesTag)
  | .extend c => c.validate.isOk
  | .release _ | .get _ => false

/-- As what it is counted if the call of an operation fails. -/
def Operation.failure? : Operation → Option Event
  | .reserve _ => some .acquireFailed
  | .extend _ => some .extendFailed
  | .release _ => some .releaseFailed
  | .get _ => none

/-- The outcomes that the call of an operation counts, if it has seen so much when it ends. -/
inductive Operation.Counts (operation : Operation) (seen : List Observation) :
    List Event → Prop where
  /-- Who makes no attempt counts none. -/
  | nothing (attempts : operation.attempts seen = false) (sighted : isBlinded seen = false) :
      Counts operation seen []
  /-- Who makes an attempt counts one. -/
  | once {event : Event} (attempts : operation.attempts seen = true)
      (sighted : isBlinded seen = false) : Counts operation seen [event]
  /-- Who ends blinded counts the attempt a second time. -/
  | twice {failure : Event} (attempts : operation.attempts seen = true)
      (blind : isBlinded seen = true) (fails : operation.failure? = some failure)
      (differs : failure ≠ .alreadyInProgress) :
      Counts operation seen [.alreadyInProgress, failure]

section Course

variable {α : Type} {c : Claim} {timing : LeaseTiming} {failure : Event} {give : Attempt → α}
  {way : List Observation}

theorem Claim.MayWrite.sees {now : Instant} {look : Except Error Reservation}
    (may : c.MayWrite now look) : (Observation.answer (.get c.key) look).seesNothing = false := by
  cases look with
  | ok current => rfl
  | error e => exact congrArg not may

/-- Contending is counted once, as what came of it, unless it ends blinded. -/
theorem Claim.Course.outcomes_eq {result : Except Error α}
    (course : c.Course timing failure give way result) (isOutcome : failure.isOutcome = true) :
    (isBlinded way = true ∧ outcomes way = [.alreadyInProgress, failure]) ∨
      (isBlinded way = false ∧ ∃ event, outcomes way = [event]) := by
  have failed : [failure].filter (·.isOutcome) = [failure] := by simp [isOutcome]
  cases course with
  | unread | leaseless => exact .inr ⟨rfl, failure, failed⟩
  | held => exact .inr ⟨rfl, .alreadyInProgress, rfl⟩
  | @won now look => exact .inr ⟨rfl, .acquiredAfter look, by cases look <;> rfl⟩
  | unwritten may defined fails =>
    refine .inr ⟨?_, failure, failed⟩
    simp [isBlinded, Observation.loses, fails]
  -- The first look lets the write be made, so it has not failed: it is the second that decides.
  | lost may defined loses =>
    refine .inr ⟨?_, .alreadyInProgress, rfl⟩
    change (_ && (Observation.seesNothing _ || false)) = false
    rw [may.sees, Bool.or_false, Bool.and_false]
  | vanished may defined loses notFound =>
    refine .inr ⟨?_, .alreadyInProgress, rfl⟩
    change (_ && (Observation.seesNothing _ || (!Error.isNotFound _ || false))) = false
    rw [may.sees, notFound, Bool.not_true, Bool.or_false, Bool.or_false, Bool.and_false]
  | blinded may defined loses fails =>
    refine .inl ⟨?_, congrArg (Event.alreadyInProgress :: ·) failed⟩
    simp [isBlinded, Observation.loses, Observation.seesNothing, loses, fails]

/-- An attempt whose end is in what a call has seen is counted as that of the call. -/
theorem Operation.Counts.of_contending {result : Except Error α} {operation : Operation}
    {seen : List Observation} (course : c.Course timing failure give way result)
    (attempts : operation.attempts seen = true) (sight : isBlinded seen = isBlinded way)
    (same : outcomes seen = outcomes way) (fails : operation.failure? = some failure)
    (isOutcome : failure.isOutcome = true) (differs : failure ≠ .alreadyInProgress) :
    operation.Counts seen (outcomes seen) := by
  rw [same]
  rcases course.outcomes_eq isOutcome with ⟨blind, both⟩ | ⟨sighted, event, one⟩
  · rw [both]
    exact .twice attempts (sight.trans blind) fails differs
  · rw [one]
    exact .once attempts (sight.trans sighted)

/-- Whichever way a call goes, it counts what it should, unless it ends blinded. -/
theorem Operation.Course.counts {operation : Operation} {seen : List Observation}
    {result : Except Error Reply} (course : operation.Course timing seen result) :
    operation.Counts seen (outcomes seen) := by
  cases course with
  | invalid fault =>
    refine .nothing ?_ rfl
    cases operation with
    | reserve c => exact Bool.and_false _
    | extend c =>
      change c.validate.isOk = false
      rw [show c.validate = _ from fault]
      rfl
    | release key | get key => rfl
  | resolved => exact .nothing (Bool.and_false _) rfl
  | @unresolved c e valid fails =>
    refine .nothing ?_ rfl
    change (_ && (e.isNotFound || false)) = false
    rw [fails, Bool.or_false, Bool.and_false]
  | @reserving c e way result valid notFound course =>
    refine .of_contending course ?_ rfl rfl rfl rfl (by decide)
    change (c.validate.isOk && (e.isNotFound || _)) = true
    rw [valid, notFound]
    rfl
  | @extending c way result valid course =>
    refine .of_contending course ?_ rfl rfl rfl rfl (by decide)
    change c.validate.isOk = true
    rw [valid]
    rfl
  | released | unreleased | shown | free | unseen => exact .nothing rfl rfl

end Course

/-! ## Calls side by side -/

/-- What a call sees at its next step, what is left of it then, and the stores. -/
def Call.step? {α σ : Type} (stores : Stores σ) (now : Instant) :
    Call α → σ → Option (Observation × Call α × σ)
  | .done _, _ => none
  | .readClock next, s => some (.reading now, next now, s)
  | .record event next, s => some (.counting event, next, s)
  | .ask request next, s =>
    let (answer, s) := stores request s
    some (.answer request answer, next answer, s)

theorem Call.reaches_of_step? {α σ : Type} {stores : Stores σ} {now : Instant} {call rest : Call α}
    {s s' : σ} {o : Observation} (h : call.step? stores now s = some (o, rest, s')) :
    call.Reaches [o] rest := by
  cases call with
  | done result => cases h
  | readClock next =>
    cases h
    exact Reaches.start.readClock now
  | record event next =>
    cases h
    exact Reaches.start.record
  | ask request next =>
    cases h
    exact Reaches.start.ask _

/-- A manager that serves some calls. -/
structure Desk (σ : Type) (n : Nat) where
  /-- What it has counted. -/
  counters : Counters
  /-- The stores. -/
  stores : σ
  /-- What is left of each call. -/
  calls : Fin n → Call Reply
  /-- What each call has seen. -/
  seen : Fin n → List Observation

namespace Desk

variable {σ : Type} {n : Nat}

/-- A manager that is asked to serve some operations. -/
def opening (timing : LeaseTiming) (operations : Fin n → Operation) (counters : Counters) (s : σ) :
    Desk σ n where
  counters := counters
  stores := s
  calls i := (operations i).call timing
  seen _ := []

/-- One call takes its next step, at a time at which the clock shows some instant. -/
def turn (stores : Stores σ) (d : Desk σ n) : Fin n × Instant → Desk σ n
  | (i, now) =>
    match (d.calls i).step? stores now d.stores with
    | none => d
    | some (o, rest, s) =>
      { counters := d.counters.recordAll [o]
        stores := s
        calls := Function.update d.calls i rest
        seen := Function.update d.seen i (d.seen i ++ [o]) }

/-- Calls take their steps one after the other. -/
def run (stores : Stores σ) (d : Desk σ n) (turns : List (Fin n × Instant)) : Desk σ n :=
  turns.foldl (turn stores) d

/-- How a call has ended, if it has. -/
def result? (d : Desk σ n) (i : Fin n) : Option (Except Error Reply) :=
  match d.calls i with
  | .done result => some result
  | _ => none

/-- The books of a manager balance: each call has come as far as what it has seen leads it, and what
all calls have counted is what the counters have risen by since it began with `before`. -/
structure Accounts (timing : LeaseTiming) (operations : Fin n → Operation) (before : Counters)
    (d : Desk σ n) : Prop where
  /-- Each call has come as far as what it has seen leads it. -/
  reaches : ∀ i, ((operations i).call timing).Reaches (d.seen i) (d.calls i)
  /-- The counters have risen by what the calls have counted. -/
  counted : ∀ event,
    d.counters.count event = before.count event + ∑ i, (eventsIn (d.seen i)).count event

variable {timing : LeaseTiming} {operations : Fin n → Operation} {before : Counters}

theorem opening_accounts (s : σ) :
    (opening timing operations before s).Accounts timing operations before where
  reaches i := .start
  counted event := by
    have none : ∑ i : Fin n, (eventsIn []).count event = 0 :=
      Finset.sum_eq_zero fun _ _ => rfl
    exact (congrArg (before.count event + ·) none).symm

theorem turn_of_ended {stores : Stores σ} {d : Desk σ n} {i : Fin n} {now : Instant}
    (h : (d.calls i).step? stores now d.stores = none) : d.turn stores (i, now) = d := by
  unfold turn
  dsimp only
  rw [h]

theorem turn_of_step {stores : Stores σ} {d : Desk σ n} {i : Fin n} {now : Instant}
    {o : Observation} {rest : Call Reply} {s : σ}
    (h : (d.calls i).step? stores now d.stores = some (o, rest, s)) :
    d.turn stores (i, now) =
      ⟨d.counters.recordAll [o], s, Function.update d.calls i rest,
        Function.update d.seen i (d.seen i ++ [o])⟩ := by
  unfold turn
  dsimp only
  rw [h]

/-- A call that takes all its steps while the others wait leaves behind what a run of it leaves
behind. -/
def RunsAlone (stores : Stores σ) (d : Desk σ n) (i : Fin n) (now : Instant) : Prop :=
  ∃ (steps : Nat) (seen : List Observation),
    let outcome := (d.calls i).run stores now d.stores d.counters
    d.run stores (List.replicate steps (i, now)) =
      ⟨outcome.counters, outcome.state, Function.update d.calls i (.done outcome.result),
        Function.update d.seen i seen⟩

theorem RunsAlone.of_turn {stores : Stores σ} {d : Desk σ n} {i : Fin n} {now : Instant}
    {o : Observation} {rest : Call Reply} {s : σ}
    (h : (d.calls i).step? stores now d.stores = some (o, rest, s))
    (same : (d.calls i).run stores now d.stores d.counters =
      rest.run stores now s (d.counters.recordAll [o]))
    (later : RunsAlone stores (d.turn stores (i, now)) i now) : RunsAlone stores d i now := by
  obtain ⟨steps, seen, later⟩ := later
  refine ⟨steps + 1, seen, ?_⟩
  rw [List.replicate_succ]
  -- The call overwrites its own entries once more, so the ones of this turn do not show.
  change (d.turn stores (i, now)).run stores _ = _
  rw [later, turn_of_step h]
  simp only [Function.update_self, Function.update_idem, same]

/-- Calls that are served one after the other are therefore calls side by side as well. -/
theorem runsAlone (stores : Stores σ) (d : Desk σ n) (i : Fin n) (now : Instant) :
    RunsAlone stores d i now := by
  generalize hcall : d.calls i = call
  induction call generalizing d with
  | done result =>
    refine ⟨0, d.seen i, ?_⟩
    simp only [hcall, Call.run, Function.update_eq_self]
    rw [← hcall, Function.update_eq_self]
    rfl
  | readClock next ih =>
    have h : (d.calls i).step? stores now d.stores = some (.reading now, next now, d.stores) := by
      rw [hcall]
      rfl
    refine .of_turn h (by rw [hcall]; rfl) (ih now _ ?_)
    rw [turn_of_step h]
    exact Function.update_self ..
  | record event next ih =>
    have h : (d.calls i).step? stores now d.stores = some (.counting event, next, d.stores) := by
      rw [hcall]
      rfl
    refine .of_turn h (by rw [hcall]; rfl) (ih _ ?_)
    rw [turn_of_step h]
    exact Function.update_self ..
  | ask request next ih =>
    have h : (d.calls i).step? stores now d.stores =
        some (.answer request (stores request d.stores).1, next (stores request d.stores).1,
          (stores request d.stores).2) := by
      rw [hcall]
      rfl
    refine .of_turn h (by rw [hcall]; rfl) (ih (stores request d.stores).1 _ ?_)
    rw [turn_of_step h]
    exact Function.update_self ..

/-- The books balance after a step of a call if they did before it. -/
theorem Accounts.turn {d : Desk σ n} (accounts : d.Accounts timing operations before)
    (stores : Stores σ) (next : Fin n × Instant) :
    (d.turn stores next).Accounts timing operations before := by
  obtain ⟨i, now⟩ := next
  cases h : (d.calls i).step? stores now d.stores with
  | none =>
    rw [turn_of_ended h]
    exact accounts
  | some step =>
    obtain ⟨o, rest, s⟩ := step
    rw [turn_of_step h]
    refine ⟨fun j => ?_, fun event => ?_⟩
    · by_cases hj : j = i
      · subst hj
        simp only [Function.update_self]
        exact (accounts.reaches j).trans (Call.reaches_of_step? h)
      · simp only [Function.update_of_ne hj]
        exact accounts.reaches j
    · -- Only call `i` has seen more, so only its summand rises, by what the counters rise by.
      have seen (j : Fin n) :
          (eventsIn (Function.update d.seen i (d.seen i ++ [o]) j)).count event =
            (eventsIn (d.seen j)).count event +
              if j = i then (eventsIn [o]).count event else 0 := by
        by_cases hj : j = i
        · subst hj
          rw [Function.update_self, eventsIn_append, List.count_append, if_pos rfl]
        · rw [Function.update_of_ne hj, if_neg hj, Nat.add_zero]
      simp only [seen, Finset.sum_add_distrib, Finset.sum_ite_eq', Finset.mem_univ, if_true]
      rw [Counters.count_recordAll, accounts.counted, Nat.add_assoc]

/-- The books balance after any steps of the calls. -/
theorem Accounts.run {d : Desk σ n} (accounts : d.Accounts timing operations before)
    (stores : Stores σ) (turns : List (Fin n × Instant)) :
    (d.run stores turns).Accounts timing operations before := by
  induction turns generalizing d with
  | nil => exact accounts
  | cons next turns ih => exact ih (accounts.turn stores next)

end Desk

/-! ## All that was counted -/

theorem Event.countP_isOutcome (events : List Event) :
    events.countP (·.isOutcome) =
      events.count .acquiredByCreation + events.count .acquiredByUpdate +
        events.count .alreadyInProgress + events.count .acquireFailed +
          events.count .extendFailed := by
  induction events with
  | nil => rfl
  | cons event events ih =>
    rw [List.countP_cons, ih]
    cases event <;> simp [isOutcome] <;> omega

namespace Operation.Counts

variable {operation : Operation} {seen : List Observation} {events : List Event}

theorem length_eq (counts : operation.Counts seen events) :
    events.length =
      (if operation.attempts seen then 1 else 0) + if isBlinded seen then 1 else 0 := by
  cases counts with
  | nothing attempts sighted => rw [attempts, sighted]; rfl
  | once attempts sighted => rw [attempts, sighted]; rfl
  | twice attempts blind => rw [attempts, blind]; rfl

theorem nodup (counts : operation.Counts seen events) : events.Nodup := by
  cases counts with
  | nothing => exact List.nodup_nil
  | once => exact List.nodup_singleton _
  | twice _ _ _ differs => simpa using differs.symm

end Operation.Counts

namespace Desk

variable {σ : Type} {n : Nat} {timing : LeaseTiming} {operations : Fin n → Operation}
  {before : Counters} {d : Desk σ n}

/-- The counters of outcomes have risen by all outcomes that calls have counted. -/
theorem Accounts.outcomes_eq (accounts : d.Accounts timing operations before) :
    d.counters.outcomes = before.outcomes + ∑ i, (outcomes (d.seen i)).length := by
  have five (c : Counters) : c.outcomes =
      c.count .acquiredByCreation + c.count .acquiredByUpdate + c.count .alreadyInProgress +
        c.count .acquireFailed + c.count .extendFailed := rfl
  simp only [five, outcomes, ← List.countP_eq_length_filter, Event.countP_isOutcome, Finset.sum_add_distrib,
    accounts.counted]
  omega

theorem calls_of_ended {i : Fin n} (h : (d.result? i).isSome = true) :
    ∃ result, d.calls i = .done result := by
  unfold result? at h
  cases hd : d.calls i with
  | done result => exact ⟨result, rfl⟩
  | readClock next | record event next | ask request next =>
    rw [hd] at h
    cases h

/-- A call that has ended has counted what it should, unless it ended blinded. -/
theorem Accounts.counts (accounts : d.Accounts timing operations before) {i : Fin n}
    (ended : (d.result? i).isSome = true) :
    (operations i).Counts (d.seen i) (outcomes (d.seen i)) := by
  obtain ⟨result, ended⟩ := calls_of_ended ended
  exact (Operation.course_of_reaches (ended ▸ accounts.reaches i)).counts

/-- Whatever the stores answer, in whichever order calls take their steps and whatever the clock
shows at each: once all have ended, the counters of outcomes have risen by the number of attempts
and the number of those that ended blinded. A call that made no attempt counts none of them, an
attempt counts one, and one that ended blinded counts the failure as well. -/
theorem attempts_counted (stores : Stores σ) (timing : LeaseTiming) (operations : Fin n → Operation)
    (before : Counters) (s : σ) (turns : List (Fin n × Instant))
    (ended : ∀ i, (((opening timing operations before s).run stores turns).result? i).isSome = true) :
    let d := (opening timing operations before s).run stores turns
    d.counters.outcomes = before.outcomes +
        (Finset.univ.filter fun i => (operations i).attempts (d.seen i)).card +
        (Finset.univ.filter fun i => isBlinded (d.seen i)).card ∧
      (∀ i, (operations i).Counts (d.seen i) (outcomes (d.seen i))) ∧
      ∀ event, event.isOutcome = true →
        d.counters.count event = before.count event +
          (Finset.univ.filter fun i => event ∈ outcomes (d.seen i)).card := by
  intro d
  have accounts : d.Accounts timing operations before :=
    (opening_accounts s).run stores turns
  have counts (i : Fin n) := accounts.counts (ended i)
  refine ⟨?_, counts, fun event isOutcome => ?_⟩
  · rw [accounts.outcomes_eq, Finset.card_filter, Finset.card_filter, Nat.add_assoc,
      ← Finset.sum_add_distrib]
    exact congrArg _ (Finset.sum_congr rfl fun i _ => (counts i).length_eq)
  · rw [accounts.counted, Finset.card_filter]
    refine congrArg _ (Finset.sum_congr rfl fun i _ => ?_)
    rw [← List.count_filter (p := (·.isOutcome)) isOutcome]
    exact (counts i).nodup.count

/-- The same number of steps of each call, at one instant, in turn. -/
def inTurn (n steps : Nat) : List (Fin n × Instant) :=
  (List.replicate steps ((List.finRange n).map fun i => (i, .epoch))).flatten

/-- An attempt that ends blinded has failed, and is counted as one that met another owner all the
same. -/
theorem blinded_attempt_counted_twice :
    let operation := Operation.reserve (Session.claimOf "first")
    let d := (opening .standard (fun _ : Fin 1 => operation) .zero Script.blinding).run
      Script.stores (inTurn 1 8)
    d.result? 0 = some (.error (.reported .internal "disk I/O error")) ∧
      operation.attempts (d.seen 0) = true ∧
      d.counters = { Counters.zero with alreadyInProgress := 1, acquireFailed := 1 } ∧
      d.counters.outcomes = 2 :=
  ⟨rfl, rfl, rfl, rfl⟩

/-- Two callers who find a key free, of whom the first loses at the write. -/
def closeOperations : Fin 2 → Operation
  | 0 => .extend (Session.claimOf "first")
  | 1 => .reserve (Session.claimOf "second")

/-- The two in turn, in front of stores that fail when the first looks for the winner. -/
def closeDesk : Desk Script 2 :=
  (opening .standard closeOperations .zero
    { tags := []
      reservations := [.error .entryNotFound, .error .entryNotFound,
        .error (.reported .internal "disk I/O error")]
      writes := [.error (.duplicateKey "reservations.key"), .ok ()] }).run Script.stores (inTurn 2 6)

theorem close_attempts_counted :
    (∀ i, (closeDesk.result? i).isSome = true) ∧
      closeDesk.counters.outcomes = Counters.zero.outcomes + 2 + 1 := by
  have ended : ∀ i, (closeDesk.result? i).isSome = true := by decide +kernel
  have attempts : (Finset.univ.filter fun i =>
      (closeOperations i).attempts (closeDesk.seen i)).card = 2 := by decide +kernel
  have blind : (Finset.univ.filter fun i => isBlinded (closeDesk.seen i)).card = 1 := by
    decide +kernel
  have total : closeDesk.counters.outcomes = Counters.zero.outcomes +
      (Finset.univ.filter fun i => (closeOperations i).attempts (closeDesk.seen i)).card +
      (Finset.univ.filter fun i => isBlinded (closeDesk.seen i)).card :=
    (attempts_counted Script.stores .standard closeOperations .zero _ _ ended).1
  rw [attempts, blind] at total
  exact ⟨ended, total⟩

end Desk

end LeaseCatalog
