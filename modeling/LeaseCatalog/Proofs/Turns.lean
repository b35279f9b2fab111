import LeaseCatalog.Manager.Concurrent
import LeaseCatalog.Proofs.Calls
import Mathlib.Tactic

/-!
# Turns

What one turn does to the traffic: the step of a call changes that call, and at most the counters of
its manager or the tables. `Traffic.before` is the traffic when a turn of a run comes, and
`Traffic.before_induction` shows what holds whenever a turn comes.

A call that has had as many turns as it can take steps has ended
(`Traffic.result?_isSome_of_count`).
-/

namespace LeaseCatalog.Traffic

variable {s : Traffic} {i j : Nat}

/-! ## One step of a call -/

@[simp] theorem advance_session (s : Traffic) (i : Nat) (rest : Call Reply) :
    (s.advance i rest).session = s.session := rfl

@[simp] theorem advance_call_self (s : Traffic) (i : Nat) (rest : Call Reply) :
    ((s.advance i rest).threads i).call = rest := by
  simp [advance]

theorem advance_threads_of_ne (h : j ≠ i) (rest : Call Reply) :
    (s.advance i rest).threads j = s.threads j := if_neg h

@[simp] theorem advance_manager (s : Traffic) (i j : Nat) (rest : Call Reply) :
    ((s.advance i rest).threads j).manager = (s.threads j).manager := by
  by_cases h : j = i
  · subst h
    simp [advance]
  · rw [advance_threads_of_ne h]

theorem stepThread_done {result : Except Error Reply} (h : (s.threads i).call = .done result) :
    s.stepThread i = s := by
  unfold stepThread
  dsimp only
  rw [h]

theorem stepThread_readClock {next : Instant → Call Reply}
    (h : (s.threads i).call = .readClock next) :
    s.stepThread i =
      s.advance i (next (s.session.managers (s.threads i).manager).clock.now) := by
  unfold stepThread
  dsimp only
  rw [h]

theorem stepThread_record {event : Event} {next : Call Reply}
    (h : (s.threads i).call = .record event next) :
    s.stepThread i =
      { s.advance i next with
        session := s.session.replace (s.threads i).manager
          { s.session.managers (s.threads i).manager with
            counters :=
              (s.session.managers (s.threads i).manager).counters.record event } } := by
  unfold stepThread
  dsimp only
  rw [h]

theorem stepThread_ask {request : Request} {next : request.Answer → Call Reply}
    (h : (s.threads i).call = .ask request next) :
    s.stepThread i =
      { s.advance i (next (request.perform s.session.dialect s.session.tables).1) with
        session :=
          { s.session with
            tables := (request.perform s.session.dialect s.session.tables).2 } } := by
  unfold stepThread
  dsimp only
  rw [h]

/-- The step of a call leaves all other calls. -/
theorem stepThread_threads_of_ne (h : j ≠ i) : (s.stepThread i).threads j = s.threads j := by
  cases hc : (s.threads i).call with
  | done result => rw [stepThread_done hc]
  | readClock next => rw [stepThread_readClock hc, advance_threads_of_ne h]
  | record event next =>
    rw [stepThread_record hc]
    exact advance_threads_of_ne h next
  | ask request next =>
    rw [stepThread_ask hc]
    exact advance_threads_of_ne h _

theorem stepThread_manager (s : Traffic) (i j : Nat) :
    ((s.stepThread i).threads j).manager = (s.threads j).manager := by
  cases hc : (s.threads i).call with
  | done result => rw [stepThread_done hc]
  | readClock next => rw [stepThread_readClock hc, advance_manager]
  | record event next =>
    rw [stepThread_record hc]
    exact advance_manager s i j next
  | ask request next =>
    rw [stepThread_ask hc]
    exact advance_manager s i j _

/-! ## Runs of turns -/

/-- The traffic when turn `n` comes. -/
def before (s : Traffic) (turns : List Turn) (n : Nat) : Traffic := s.run (turns.take n)

theorem before_length (s : Traffic) (turns : List Turn) :
    s.before turns turns.length = s.run turns := by
  unfold before
  rw [List.take_length]

theorem before_succ {turns : List Turn} {n : Nat} {x : Turn} (h : turns[n]? = some x) :
    s.before turns (n + 1) = (s.before turns n).turn x := by
  unfold before run
  rw [List.take_add_one, h, List.foldl_append]
  rfl

/-- What holds at the start, and after a turn if it holds before it, holds whenever a turn
comes. -/
theorem before_induction {turns : List Turn} {P : Nat → Traffic → Prop} (start : P 0 s)
    (turn : ∀ n x, turns[n]? = some x → P n (s.before turns n) →
      P (n + 1) ((s.before turns n).turn x)) :
    ∀ n ≤ turns.length, P n (s.before turns n) := by
  intro n
  induction n with
  | zero => exact fun _ => start
  | succ n ih =>
    intro hn
    have hx : turns[n]? = some turns[n] := List.getElem?_eq_getElem hn
    rw [before_succ hx]
    exact turn n _ hx (ih (Nat.le_of_succ_le hn))

/-- What holds at the start, and after a turn if it holds before it, holds at the end. -/
theorem run_induction {turns : List Turn} {P : Traffic → Prop} (start : P s)
    (turn : ∀ s, ∀ x ∈ turns, P s → P (s.turn x)) : P (s.run turns) := by
  induction turns generalizing s with
  | nil => exact start
  | cons x rest ih =>
    exact ih (turn s x List.mem_cons_self start) fun s y hy => turn s y (List.mem_cons_of_mem _ hy)

/-! ## The end of a call -/

theorem result?_eq_some_iff {result : Except Error Reply} :
    s.result? i = some result ↔ (s.threads i).call = .done result := by
  unfold result?
  constructor
  · intro h
    split at h
    · rename_i hc
      rw [hc, Option.some.inj h]
    · cases h
  · intro h
    rw [h]

theorem stepThread_endsWithin {n : Nat} (h : (s.threads i).call.EndsWithin n) :
    ((s.stepThread i).threads i).call.EndsWithin (n - 1) := by
  cases hc : (s.threads i).call with
  | done result =>
    rw [stepThread_done hc, hc]
    exact Call.done_endsWithin _ result
  | readClock next =>
    rw [hc] at h
    rw [stepThread_readClock hc, advance_call_self]
    cases n with
    | zero => exact h.elim
    | succ n => exact h _
  | record event next =>
    rw [hc] at h
    rw [stepThread_record hc]
    change ((s.advance i next).threads i).call.EndsWithin (n - 1)
    rw [advance_call_self]
    cases n with
    | zero => exact h.elim
    | succ n => exact h
  | ask request next =>
    rw [hc] at h
    rw [stepThread_ask hc]
    change ((s.advance i (next _)).threads i).call.EndsWithin (n - 1)
    rw [advance_call_self]
    cases n with
    | zero => exact h.elim
    | succ n => exact h _

/-- A turn takes a step from the steps that its call can still take, and none from those of other
calls. -/
theorem turn_endsWithin {n : Nat} (h : (s.threads i).call.EndsWithin n) (x : Turn) :
    ((s.turn x).threads i).call.EndsWithin (n - if x == .thread i then 1 else 0) := by
  by_cases hx : x = .thread i
  · subst hx
    rw [if_pos (beq_self_eq_true _)]
    exact stepThread_endsWithin h
  · rw [if_neg fun hb => hx (eq_of_beq hb)]
    cases x with
    | step x => exact h
    | thread j =>
      change ((s.stepThread j).threads i).call.EndsWithin n
      rw [stepThread_threads_of_ne fun hij => hx (congrArg Turn.thread hij.symm)]
      exact h

theorem run_endsWithin {n : Nat} (turns : List Turn) (h : (s.threads i).call.EndsWithin n)
    (enough : n ≤ turns.count (.thread i)) : ((s.run turns).threads i).call.EndsWithin 0 := by
  induction turns generalizing s n with
  | nil =>
    rw [List.count_nil, Nat.le_zero] at enough
    subst enough
    exact h
  | cons x rest ih =>
    rw [List.count_cons] at enough
    exact ih (turn_endsWithin h x) (by omega)

/-- A call that has had as many turns as it can take steps has ended. -/
theorem result?_isSome_of_count {n : Nat} (turns : List Turn)
    (h : (s.threads i).call.EndsWithin n) (enough : n ≤ turns.count (.thread i)) :
    ((s.run turns).result? i).isSome = true := by
  have ended := run_endsWithin turns h enough
  unfold result?
  cases hc : ((s.run turns).threads i).call with
  | done result => rfl
  | readClock next => exact (hc ▸ ended : (Call.readClock next).EndsWithin 0).elim
  | record event next => exact (hc ▸ ended : (Call.record event next).EndsWithin 0).elim
  | ask request next => exact (hc ▸ ended : (Call.ask request next).EndsWithin 0).elim

end LeaseCatalog.Traffic
