import LeaseCatalog.Proofs.Contending
import LeaseCatalog.Proofs.Instants
import LeaseCatalog.Proofs.Turns

/-!
# Callers who race for one key

A `Race` is a number of callers, each with a name of its own, who reserve one key through one
manager while its clock stands still. Each call is at one of few stages, and `Race.Moves` says how a
step takes it from one stage to the next, given the leases that the tables hold, and how it changes
them.

`Race.Tracks` ties the stages to the traffic: what is left of each call is what its stage says, and
the counters of the manager have risen by what the stages have counted. One step of a call is one
move (`Race.Tracks.step`), so all that is left to show of a race can be shown of its stages.
-/

namespace LeaseCatalog

/-- Callers who reserve one key through one manager at once. -/
structure Race where
  /-- How many callers there are. -/
  count : Nat
  /-- The key. -/
  key : Key
  /-- The names of the callers. -/
  owners : Nat → String
  /-- What each caller keeps with a lease. -/
  metadata : Nat → Metadata
  /-- The manager, as it is when the race begins. -/
  manager : Manager
  /-- How many seconds a lease lasts. -/
  seconds : Nat
  /-- When a lease ends that starts now. -/
  ends : Instant
  /-- What the callers supply is sound. -/
  valid : ∀ i < count, (⟨key, owners i, metadata i⟩ : Claim).validate = .ok ()
  /-- No two callers have one name. -/
  distinct : ∀ i < count, ∀ j < count, owners i = owners j → i = j
  /-- The leases of the manager are not too long. -/
  ttl : manager.timing.ttl? = .ok seconds
  /-- They last for some time. -/
  positive : 0 < seconds
  /-- A lease that starts now ends within the calendar. -/
  ends_eq : manager.clock.now.addSeconds? seconds = some ends
  /-- Rows can hold the start of a lease. -/
  now_storable : manager.clock.now.Storable
  /-- Rows can hold its end. -/
  ends_storable : ends.Storable

/-- The counters of what went wrong. -/
def Counters.failures (c : Counters) : Nat × Nat × Nat × Nat :=
  (c.acquireFailed, c.extendFailed, c.releaseFailed, c.tagLookupFailed)

/-- Whether a lease was found free or not, it counts as one. -/
theorem Counters.acquired_record (c : Counters) (free : Bool) :
    (c.record (if free then .acquiredByCreation else .acquiredByUpdate)).acquired =
      c.acquired + 1 := by
  cases free with
  | false => rfl
  | true => exact Nat.add_right_comm _ _ _

namespace Race

variable (race : Race)

/-- What the clock shows throughout. -/
def now : Instant := race.manager.clock.now

/-- What a caller wants. -/
def claim (i : Nat) : Claim := ⟨race.key, race.owners i, race.metadata i⟩

/-- What a caller gets who gets the lease. -/
def lease (i : Nat) : Reservation :=
  .taken race.key (race.owners i) race.ends race.now (race.metadata i)

/-- What a caller is granted who gets the lease. -/
def grant (i : Nat) : Grant := ⟨race.owners i, race.ends, race.metadata i⟩

/-- What a caller is told of an attempt. -/
def told (a : Attempt) : Reply := .reserved (.status (a.status race.manager.timing))

theorem lasts : race.manager.timing.Lasts race.now race.ends :=
  ⟨⟨race.seconds, race.ttl, race.ends_eq⟩, race.now_storable, race.ends_storable⟩

theorem now_lt_ends : race.now < race.ends := Instant.lt_of_addSeconds? race.positive race.ends_eq

theorem shown_now : race.now.shown = race.now := ManualClock.shown_now _

theorem kept_ends : race.ends.kept = race.ends := race.lasts.kept (ManualClock.kept_now _)

/-! ## Stages -/

/-- How far a call has come. -/
inductive Stage where
  /-- It is to look for a tag. -/
  | starting
  /-- It is to read the clock. -/
  | reading
  /-- It is to look at the reservation. -/
  | looking
  /-- It is to write, having found the key free or not. -/
  | writing (free : Bool)
  /-- It has the lease, which is to be counted. -/
  | acquiring (free : Bool)
  /-- It has found a live lease of another owner, which is to be counted. -/
  | blocked (found : Reservation)
  /-- It has lost at the write, which is to be counted. -/
  | conflicted
  /-- It is to look for the winner. -/
  | asking
  /-- It has ended. -/
  | ended (a : Attempt)

/-- What is left of a call at a stage. -/
def Stage.call (i : Nat) : Stage → Call Reply
  | .starting =>
    .ask (.getTag race.key) (Call.tagLooked race.manager.timing (race.claim i) Reply.reserved)
  | .reading =>
    .readClock fun now => .ask (.get race.key)
      (Call.looked (race.claim i) race.manager.timing now .acquireFailed race.told)
  | .looking =>
    .ask (.get race.key)
      (Call.looked (race.claim i) race.manager.timing race.now .acquireFailed race.told)
  | .writing free =>
    .ask (.createOrUpdate (race.lease i) race.now)
      (Call.written (race.claim i) (race.lease i) race.now free .acquireFailed race.told)
  | .acquiring free =>
    .record (if free then .acquiredByCreation else .acquiredByUpdate)
      (.done (.ok (race.told ⟨true, race.lease i⟩)))
  | .blocked found => .record .alreadyInProgress (.done (.ok (race.told ⟨false, found⟩)))
  | .conflicted =>
    .record .alreadyInProgress
      (.ask (.get race.key) (Call.reported race.key race.now .acquireFailed race.told))
  | .asking => .ask (.get race.key) (Call.reported race.key race.now .acquireFailed race.told)
  | .ended a => .done (.ok (race.told a))

/-- Whether a call has been counted as having the lease. -/
def Stage.gained : Stage → Nat
  | .ended a => if a.acquired then 1 else 0
  | _ => 0

/-- Whether a call has been counted as being too late. -/
def Stage.missed : Stage → Nat
  | .asking => 1
  | .ended a => if a.acquired then 0 else 1
  | _ => 0

/-- How a step takes the call of a caller from one stage to the next, and one map of leases to the
next. -/
inductive Moves (i : Nat) (m : LeaseMap) : Stage → Stage → LeaseMap → Prop where
  /-- No tag is found. -/
  | start : Moves i m .starting .reading m
  /-- The clock is read. -/
  | read : Moves i m .reading .looking m
  /-- The key is found free. -/
  | lookFree (h : m.lookup race.key = none) : Moves i m .looking (.writing true) m
  /-- A lease is found that the caller may claim. -/
  | lookClaimable {e : Entry} (h : m.lookup race.key = some e)
      (claimable : (e.on race.key).isClaimableBy (race.owners i) race.now = true) :
      Moves i m .looking (.writing false) m
  /-- A lease is found that the caller may not claim. -/
  | lookLive {e : Entry} (h : m.lookup race.key = some e)
      (live : ¬ (e.on race.key).isClaimableBy (race.owners i) race.now = true) :
      Moves i m .looking (.blocked (e.on race.key)) m
  /-- The lease is written. -/
  | write {free : Bool} {e : Entry}
      (claimable : ∀ old, m.lookup race.key = some old →
        (old.on race.key).isClaimableBy (race.owners i) race.now = true)
      (grant : e.grant = race.grant i) :
      Moves i m (.writing free) (.acquiring free) (m.insert race.key e)
  /-- The lease is not written, because there is one that the caller may not claim. -/
  | conflict {free : Bool} {e : Entry} (h : m.lookup race.key = some e)
      (live : ¬ (e.on race.key).isClaimableBy (race.owners i) race.now = true) :
      Moves i m (.writing free) .conflicted m
  /-- A lease is counted. -/
  | gain {free : Bool} : Moves i m (.acquiring free) (.ended ⟨true, race.lease i⟩) m
  /-- A lease of another owner is counted. -/
  | miss {found : Reservation} : Moves i m (.blocked found) (.ended ⟨false, found⟩) m
  /-- A lost write is counted. -/
  | lose : Moves i m .conflicted .asking m
  /-- The winner is found. -/
  | learn {e : Entry} (h : m.lookup race.key = some e) :
      Moves i m .asking (.ended ⟨false, e.on race.key⟩) m
  /-- The winner has gone. -/
  | learnNothing (h : m.lookup race.key = none) :
      Moves i m .asking (.ended ⟨false, .taken race.key "" race.now race.now none⟩) m
  /-- A call that has ended stays so. -/
  | rest {a : Attempt} : Moves i m (.ended a) (.ended a) m

/-! ## Stages and traffic -/

/-- The traffic of a race: manager `k` serves all calls, each of which is at its stage, and the
tables hold a map of leases. -/
structure Tracks (k : Nat) (stages : Nat → Stage) (m : LeaseMap) (s : Traffic) : Prop where
  /-- What is left of a call is what its stage says. -/
  calls : ∀ i < race.count, (s.threads i).call = (stages i).call race i
  /-- The manager serves all calls. -/
  managers : ∀ i < race.count, (s.threads i).manager = k
  /-- Its clock stands still. -/
  clock : (s.session.managers k).clock = race.manager.clock
  /-- The key stands for no artifact. -/
  untagged : s.session.tables.selectTag race.key = .error .rowNotFound
  /-- The tables hold the map. -/
  holds : s.session.tables.Holds m
  /-- The leases that were acquired have been counted. -/
  acquired : (s.session.managers k).counters.acquired =
    race.manager.counters.acquired + ∑ i ∈ Finset.range race.count, (stages i).gained
  /-- The calls that were too late have been counted. -/
  alreadyInProgress : (s.session.managers k).counters.alreadyInProgress =
    race.manager.counters.alreadyInProgress + ∑ i ∈ Finset.range race.count, (stages i).missed
  /-- Nothing has gone wrong. -/
  failures : (s.session.managers k).counters.failures = race.manager.counters.failures

/-- What holds of all calls holds of them when one moves, if it holds of that one. -/
theorem forall_update {n i : Nat} {stages : Nat → Stage} {stage : Stage}
    {P : Nat → Stage → Prop} (others : ∀ j < n, P j (stages j)) (self : P i stage) :
    ∀ j < n, P j (Function.update stages i stage j) := by
  intro j hj
  by_cases hji : j = i
  · rw [hji, Function.update_self]
    exact self
  · rw [Function.update_of_ne hji]
    exact others j hj

theorem sum_update {n i : Nat} (hi : i < n) (stages : Nat → Stage) (stage : Stage)
    (f : Stage → Nat) :
    ∑ j ∈ Finset.range n, f (Function.update stages i stage j) + f (stages i) =
      ∑ j ∈ Finset.range n, f (stages j) + f stage := by
  have hmem : i ∈ Finset.range n := Finset.mem_range.mpr hi
  have rest : ∑ j ∈ (Finset.range n).erase i, f (Function.update stages i stage j) =
      ∑ j ∈ (Finset.range n).erase i, f (stages j) := by
    refine Finset.sum_congr rfl fun j hj => ?_
    rw [Function.update_of_ne (Finset.ne_of_mem_erase hj)]
  rw [← Finset.add_sum_erase _ _ hmem, ← Finset.add_sum_erase _ _ hmem, rest,
    Function.update_self]
  omega

section Tracks

variable {race} {k : Nat} {stages : Nat → Stage} {m m' : LeaseMap} {s : Traffic} {i : Nat}
  {stage : Stage}

theorem Tracks.next (h : race.Tracks k stages m s) (hi : i < race.count)
    (own : ((s.stepThread i).threads i).call = stage.call race i)
    (clock : ((s.stepThread i).session.managers k).clock = (s.session.managers k).clock)
    (untagged : (s.stepThread i).session.tables.selectTag race.key = .error .rowNotFound)
    (holds : (s.stepThread i).session.tables.Holds m')
    (acquired : ((s.stepThread i).session.managers k).counters.acquired + (stages i).gained =
      (s.session.managers k).counters.acquired + stage.gained)
    (alreadyInProgress :
      ((s.stepThread i).session.managers k).counters.alreadyInProgress + (stages i).missed =
        (s.session.managers k).counters.alreadyInProgress + stage.missed)
    (failures : ((s.stepThread i).session.managers k).counters.failures =
      (s.session.managers k).counters.failures) :
    race.Tracks k (Function.update stages i stage) m' (s.stepThread i) where
  calls j hj := by
    by_cases hji : j = i
    · rw [hji, Function.update_self]
      exact own
    · rw [Function.update_of_ne hji, Traffic.stepThread_threads_of_ne hji]
      exact h.calls j hj
  managers j hj := by
    rw [Traffic.stepThread_manager]
    exact h.managers j hj
  clock := clock.trans h.clock
  untagged := untagged
  holds := holds
  acquired := by
    have := sum_update hi stages stage Stage.gained
    have := h.acquired
    omega
  alreadyInProgress := by
    have := sum_update hi stages stage Stage.missed
    have := h.alreadyInProgress
    omega
  failures := failures.trans h.failures

variable {old : Stage}

theorem Tracks.readClock (h : race.Tracks k stages m s) (hi : i < race.count)
    (hs : stages i = old) {next : Instant → Call Reply}
    (hc : old.call race i = .readClock next) (own : next race.now = stage.call race i)
    (gained : old.gained = stage.gained) (missed : old.missed = stage.missed) :
    race.Tracks k (Function.update stages i stage) m (s.stepThread i) := by
  subst hs
  have step := Traffic.stepThread_readClock ((h.calls i hi).trans hc)
  rw [h.managers i hi, h.clock] at step
  have session : (s.stepThread i).session = s.session := by rw [step, Traffic.advance_session]
  refine h.next hi ?_ ?_ ?_ ?_ ?_ ?_ ?_
  · rw [step, Traffic.advance_call_self]
    exact own
  · rw [session]
  · rw [session]
    exact h.untagged
  · rw [session]
    exact h.holds
  · rw [session, gained]
  · rw [session, missed]
  · rw [session]

theorem Tracks.record (h : race.Tracks k stages m s) (hi : i < race.count)
    (hs : stages i = old) {event : Event} (hc : old.call race i = .record event (stage.call race i))
    (acquired : ∀ c : Counters, (c.record event).acquired + old.gained =
      c.acquired + stage.gained)
    (alreadyInProgress : ∀ c : Counters, (c.record event).alreadyInProgress + old.missed =
      c.alreadyInProgress + stage.missed)
    (failures : ∀ c : Counters, (c.record event).failures = c.failures) :
    race.Tracks k (Function.update stages i stage) m (s.stepThread i) := by
  subst hs
  have step := Traffic.stepThread_record ((h.calls i hi).trans hc)
  rw [h.managers i hi] at step
  have manager : (s.stepThread i).session.managers k =
      { s.session.managers k with
        counters := (s.session.managers k).counters.record event } := by
    rw [step]
    exact if_pos rfl
  refine h.next hi ?_ ?_ ?_ ?_ ?_ ?_ ?_
  · rw [step]
    exact Traffic.advance_call_self s i _
  · rw [manager]
  · rw [step]
    exact h.untagged
  · rw [step]
    exact h.holds
  · rw [manager]
    exact acquired _
  · rw [manager]
    exact alreadyInProgress _
  · rw [manager]
    exact failures _

theorem Tracks.ask (h : race.Tracks k stages m s) (hi : i < race.count)
    (hs : stages i = old) {request : Request} {next : request.Answer → Call Reply}
    (hc : old.call race i = .ask request next)
    (own : next (request.perform s.session.dialect s.session.tables).1 = stage.call race i)
    (holds : (request.perform s.session.dialect s.session.tables).2.Holds m')
    (same : s.session.tables.SameTags (request.perform s.session.dialect s.session.tables).2)
    (gained : old.gained = stage.gained) (missed : old.missed = stage.missed) :
    race.Tracks k (Function.update stages i stage) m' (s.stepThread i) := by
  subst hs
  have step := Traffic.stepThread_ask ((h.calls i hi).trans hc)
  have managers : (s.stepThread i).session.managers k = s.session.managers k := by
    rw [step]
  refine h.next hi ?_ ?_ ?_ ?_ ?_ ?_ ?_
  · rw [step]
    exact (Traffic.advance_call_self s i _).trans own
  · rw [managers]
  · rw [step]
    exact (same.selectTag race.key).trans h.untagged
  · rw [step]
    exact holds
  · rw [managers, gained]
  · rw [managers, missed]
  · rw [managers]

theorem Tracks.step_looking (h : race.Tracks k stages m s) (hi : i < race.count)
    (hs : stages i = .looking) :
    ∃ stage m', race.Moves i m .looking stage m' ∧
      race.Tracks k (Function.update stages i stage) m' (s.stepThread i) := by
  have found := h.holds.foundOrNone_get s.session.dialect race.key
  cases he : m.lookup race.key with
  | none =>
    rw [he] at found
    refine ⟨.writing true, m, .lookFree he, h.ask hi hs rfl ?_ h.holds (.refl _) rfl rfl⟩
    exact (Call.looked_none found).trans (Call.write_eq (race.lasts.lease? (race.claim i)) _ _ _)
  | some e =>
    rw [he] at found
    by_cases claimable : (e.on race.key).isClaimableBy (race.owners i) race.now = true
    · refine ⟨.writing false, m, .lookClaimable he claimable,
        h.ask hi hs rfl ?_ h.holds (.refl _) rfl rfl⟩
      exact (Call.looked_claimable found claimable).trans
        (Call.write_eq (race.lasts.lease? (race.claim i)) _ _ _)
    · refine ⟨.blocked (e.on race.key), m, .lookLive he claimable,
        h.ask hi hs rfl ?_ h.holds (.refl _) rfl rfl⟩
      exact Call.looked_live found claimable

theorem Tracks.step_writing (h : race.Tracks k stages m s) (hi : i < race.count) {free : Bool}
    (hs : stages i = .writing free) :
    ∃ stage m', race.Moves i m (.writing free) stage m' ∧
      race.Tracks k (Function.update stages i stage) m' (s.stepThread i) := by
  have storable := race.lasts.storable (race.claim i)
  have perform := Request.perform_createOrUpdate s.session.dialect s.session.tables (race.lease i)
    race.now
  have same := Request.perform_sameTags s.session.dialect s.session.tables
    (r := .createOrUpdate (race.lease i) race.now) rfl
  by_cases claimable : ∀ old, m.lookup race.key = some old →
      (old.on race.key).isClaimableBy (race.owners i) race.now = true
  · obtain ⟨t, ht⟩ := h.holds.createOrUpdate_accepted s.session.dialect storable claimable
    obtain ⟨-, e, hold, hgrant⟩ := h.holds.createOrUpdate_ok ht
    have hgrant : e.grant = race.grant i := by
      rw [hgrant]
      exact congrArg (Grant.mk _ · _) race.kept_ends
    refine ⟨.acquiring free, m.insert race.key e, .write claimable hgrant,
      h.ask hi hs rfl ?_ ?_ same rfl rfl⟩
    · rw [perform, show Leases.createOrUpdate _ _ (race.lease i) race.now = _ from ht]
      exact Call.written_ok (race.lease i) free
    · rw [perform, show Leases.createOrUpdate _ _ (race.lease i) race.now = _ from ht]
      exact hold
  · obtain ⟨e, he, live⟩ : ∃ e, m.lookup race.key = some e ∧
        ¬ (e.on race.key).isClaimableBy (race.owners i) race.now = true := by
      by_contra none
      exact claimable fun e he => by_contra fun live => none ⟨e, he, live⟩
    have live' : ¬ (e.on race.key).isClaimableBy (race.owners i) race.now.shown = true := by
      rwa [race.shown_now]
    have refused := h.holds.createOrUpdate_refused s.session.dialect storable he live'
    refine ⟨.conflicted, m, .conflict he live, h.ask hi hs rfl ?_ ?_ same rfl rfl⟩
    · rw [perform, show Leases.createOrUpdate _ _ (race.lease i) race.now = _ from refused]
      exact (Call.written_conflict (race.lease i) free race.key).trans
        (Call.reportWinner_eq race.key race.now _ _)
    · rw [perform, show Leases.createOrUpdate _ _ (race.lease i) race.now = _ from refused]
      exact h.holds

theorem Tracks.step_asking (h : race.Tracks k stages m s) (hi : i < race.count)
    (hs : stages i = .asking) :
    ∃ stage m', race.Moves i m .asking stage m' ∧
      race.Tracks k (Function.update stages i stage) m' (s.stepThread i) := by
  have found := h.holds.foundOrNone_get s.session.dialect race.key
  cases he : m.lookup race.key with
  | none =>
    rw [he] at found
    refine ⟨_, m, .learnNothing he, h.ask hi hs rfl ?_ h.holds (.refl _) rfl rfl⟩
    exact Call.reported_none found
  | some e =>
    rw [he] at found
    refine ⟨_, m, .learn he, h.ask hi hs rfl ?_ h.holds (.refl _) rfl rfl⟩
    exact Call.reported_some found

/-- One step of a call is one move. -/
theorem Tracks.step (h : race.Tracks k stages m s) (hi : i < race.count) :
    ∃ stage m', race.Moves i m (stages i) stage m' ∧
      race.Tracks k (Function.update stages i stage) m' (s.stepThread i) := by
  cases hs : stages i with
  | starting =>
    refine ⟨.reading, m, .start, h.ask hi hs rfl ?_ h.holds (.refl _) rfl rfl⟩
    exact Call.tagLooked_none (foundOrNone_getTag h.untagged s.session.dialect)
  | reading => exact ⟨.looking, m, .read, h.readClock hi hs rfl rfl rfl rfl⟩
  | looking => exact h.step_looking hi hs
  | writing free => exact h.step_writing hi hs
  | acquiring free =>
    refine ⟨_, m, .gain, h.record hi hs rfl (fun c => c.acquired_record free) ?_ ?_⟩
    · intro c
      cases free <;> rfl
    · intro c
      cases free <;> rfl
  | blocked found =>
    exact ⟨_, m, .miss, h.record hi hs rfl (fun _ => rfl) (fun _ => rfl) (fun _ => rfl)⟩
  | conflicted =>
    exact ⟨_, m, .lose, h.record hi hs rfl (fun _ => rfl) (fun _ => rfl) (fun _ => rfl)⟩
  | asking => exact h.step_asking hi hs
  | ended a =>
    refine ⟨_, m, .rest, ?_⟩
    rw [Traffic.stepThread_done ((h.calls i hi).trans (by rw [hs]; rfl)), ← hs,
      Function.update_eq_self]
    exact h

end Tracks

/-- The traffic when manager `k` has been asked by all callers. -/
def start (s : Session) (k : Nat) : Traffic :=
  .start s fun i => (k, .reserve (race.claim i))

theorem tracks_start {s : Session} {k : Nat} (hk : s.managers k = race.manager) {m : LeaseMap}
    (hold : s.tables.Holds m) (untagged : s.tables.selectTag race.key = .error .rowNotFound) :
    race.Tracks k (fun _ => .starting) m (race.start s k) where
  calls i hi := by
    show Call.reserve (s.managers k).timing (race.claim i) Reply.reserved = _
    rw [hk]
    exact Call.reserve_eq _ _ (race.valid i hi)
  managers _ _ := rfl
  clock := congrArg Manager.clock hk
  untagged := untagged
  holds := hold
  acquired := by
    have none : ∑ i ∈ Finset.range race.count, Stage.starting.gained = 0 :=
      Finset.sum_eq_zero fun _ _ => rfl
    rw [none]
    exact congrArg (Counters.acquired ∘ Manager.counters) hk
  alreadyInProgress := by
    have none : ∑ i ∈ Finset.range race.count, Stage.starting.missed = 0 :=
      Finset.sum_eq_zero fun _ _ => rfl
    rw [none]
    exact congrArg (Counters.alreadyInProgress ∘ Manager.counters) hk
  failures := congrArg (Counters.failures ∘ Manager.counters) hk

/-- What holds of the stages at first, and after a move if it holds before it, holds of them after
any turns of the callers. -/
theorem Tracks.run {race : Race} {k : Nat} {stages : Nat → Stage} {m : LeaseMap} {s : Traffic}
    {I : (Nat → Stage) → LeaseMap → Prop} (h : race.Tracks k stages m s) (start : I stages m)
    (move : ∀ stages m i stage m', i < race.count → I stages m →
      race.Moves i m (stages i) stage m' → I (Function.update stages i stage) m')
    {turns : List Turn} (callers : ∀ x ∈ turns, ∃ i < race.count, x = .thread i) :
    ∃ stages m, race.Tracks k stages m (s.run turns) ∧ I stages m := by
  refine Traffic.run_induction (P := fun s => ∃ stages m, race.Tracks k stages m s ∧ I stages m)
    ⟨stages, m, h, start⟩ ?_
  rintro s x hx ⟨stages, m, h, inv⟩
  obtain ⟨i, hi, rfl⟩ := callers x hx
  obtain ⟨stage, m', moves, h'⟩ := h.step hi
  exact ⟨_, m', h', move stages m i stage m' hi inv moves⟩

end Race

end LeaseCatalog
