import LeaseCatalog.Manager.Script
import LeaseCatalog.Proofs.Courses

/-!
# Calls and their stores

What a manager makes of stores about which nothing is known: they may answer each request with
anything at all, and with another thing each time. What a call asks them follows a short protocol
(`Operation.Asks`): one look at the key, at most one write, and a second look only after a write
that lost. And a call ends with an error only where the stores, or the terms of the lease, gave it
one that stands for no ordinary outcome (`Operation.Fails`). Such an error is passed on as it is
and counted once, except by a caller who only asks who holds a lease.

That nothing is there, and that a write lost, are errors of a store as well. The two relations say
where they are taken for an outcome and where they are not.
-/

namespace LeaseCatalog

/-! ## Leases -/

/-- A lease that starts at `now` ends at `ends`. -/
def LeaseTiming.EndsAt (timing : LeaseTiming) (now ends : Instant) : Prop :=
  ∃ seconds, timing.ttl? = .ok seconds ∧ now.addSeconds? seconds = some ends

section Lease

variable {c : Claim} {timing : LeaseTiming} {now : Instant}

theorem Claim.lease?_eq_ok_iff {lease : Reservation} :
    c.lease? timing now = .ok lease ↔
      ∃ ends, timing.EndsAt now ends ∧ lease = ⟨c.key, c.owner, ends, now, now, c.metadata⟩ := by
  constructor
  · intro h
    obtain ⟨seconds, ends, hseconds, hends, rfl⟩ := lease?_eq_ok h
    exact ⟨ends, ⟨seconds, hseconds, hends⟩, rfl⟩
  · rintro ⟨ends, ⟨seconds, hseconds, hends⟩, rfl⟩
    unfold lease?
    rw [hseconds]
    dsimp only
    rw [hends]
    rfl

theorem Claim.lease?_eq_error_iff {e : Error} :
    c.lease? timing now = .error e ↔
      timing.ttl? = .error e ∨ ∃ seconds, timing.ttl? = .ok seconds ∧
        now.addSeconds? seconds = none ∧ e = .expiryOverflow now := by
  unfold lease?
  cases timing.ttl? with
  | error e' => simp
  | ok seconds =>
    cases hends : now.addSeconds? seconds with
    | none => simp [hends, eq_comm]
    | some ends => simp [hends]

end Lease

/-! ## What is asked -/

/-- What a caller who contends for a lease at `now` asks the store, and what it answers. -/
inductive Claim.Asks (c : Claim) (timing : LeaseTiming) (now : Instant) :
    List Observation → Prop where
  /-- It looks at the key. It may not write after that, or there is no lease that it could write. -/
  | look {look : Except Error Reservation}
      (stays : ∀ ends, c.MayWrite now look → ¬ timing.EndsAt now ends) :
      Asks c timing now [.answer (.get c.key) look]
  /-- It looks at the key, and writes its lease. The answer is not that the write lost. -/
  | write {look : Except Error Reservation} {ends : Instant} {answer : Except Error Unit}
      (may : c.MayWrite now look) (endsAt : timing.EndsAt now ends)
      (settled : ∀ e, answer = .error e → e.isLeaseConflict = false) :
      Asks c timing now
        [.answer (.get c.key) look,
          .answer (.createOrUpdate ⟨c.key, c.owner, ends, now, now, c.metadata⟩ now) answer]
  /-- It looks at the key, writes its lease, loses, and looks at the key again. -/
  | lookAgain {look again : Except Error Reservation} {ends : Instant} {conflict : Error}
      (may : c.MayWrite now look) (endsAt : timing.EndsAt now ends)
      (loses : conflict.isLeaseConflict = true) :
      Asks c timing now
        [.answer (.get c.key) look,
          .answer (.createOrUpdate ⟨c.key, c.owner, ends, now, now, c.metadata⟩ now)
            (.error conflict),
          .answer (.get c.key) again]

/-- What a call that serves an operation at `now` asks the stores, and what they answer. -/
inductive Operation.Asks (timing : LeaseTiming) (now : Instant) :
    Operation → List Observation → Prop where
  /-- A caller who supplies something unsound has nothing asked. -/
  | invalid {operation : Operation} {e : Error} (fault : operation.validate = .error e) :
      Asks timing now operation []
  /-- Who reserves a key has nothing asked but what it stands for, unless it stands for nothing. -/
  | resolve {c : Claim} {answer : Except Error Tag} (valid : c.validate = .ok ())
      (settled : ∀ e, answer = .error e → e.isNotFound = false) :
      Asks timing now (.reserve c) [.answer (.getTag c.key) answer]
  /-- Who reserves a key that stands for nothing contends for the lease. -/
  | reserve {c : Claim} {e : Error} {leases : List Observation} (valid : c.validate = .ok ())
      (notFound : e.isNotFound = true) (asks : c.Asks timing now leases) :
      Asks timing now (.reserve c) (.answer (.getTag c.key) (.error e) :: leases)
  /-- Who extends a lease contends for it. -/
  | extend {c : Claim} {leases : List Observation} (valid : c.validate = .ok ())
      (asks : c.Asks timing now leases) : Asks timing now (.extend c) leases
  /-- Who releases a key has its lease deleted. -/
  | release {key : Key} {answer : Except Error Unit} (valid : key.validate = .ok ()) :
      Asks timing now (.release key) [.answer (.delete key) answer]
  /-- Who asks for the lease on a key has a look taken at it. -/
  | get {key : Key} {answer : Except Error Reservation} (valid : key.validate = .ok ()) :
      Asks timing now (.get key) [.answer (.get key) answer]

/-! ## What fails -/

/-- What of the answers to a caller who contends for a lease at `now` makes this fail, and the error.
Whatever may be asked after that, it has failed. -/
inductive Claim.Fails (c : Claim) (timing : LeaseTiming) (now : Instant) :
    List Observation → Error → Prop where
  /-- The look at the key fails. -/
  | look {e : Error} {rest : List Observation} (fails : e.isNotFound = false) :
      Fails c timing now (.answer (.get c.key) (.error e) :: rest) e
  /-- A lease could be written, but would last too long. -/
  | ttl {look : Except Error Reservation} {e : Error} {rest : List Observation}
      (may : c.MayWrite now look) (undefined : timing.ttl? = .error e) :
      Fails c timing now (.answer (.get c.key) look :: rest) e
  /-- A lease could be written, but would end after the last instant. -/
  | expiry {look : Except Error Reservation} {seconds : Nat} {rest : List Observation}
      (may : c.MayWrite now look) (lasts : timing.ttl? = .ok seconds)
      (undefined : now.addSeconds? seconds = none) :
      Fails c timing now (.answer (.get c.key) look :: rest) (.expiryOverflow now)
  /-- The write fails. -/
  | write {look : Except Error Reservation} {lease : Reservation} {e : Error}
      {rest : List Observation} (fails : e.isLeaseConflict = false) :
      Fails c timing now
        (.answer (.get c.key) look :: .answer (.createOrUpdate lease now) (.error e) :: rest) e
  /-- The write loses, and the second look fails. -/
  | lookAgain {look : Except Error Reservation} {lease : Reservation} {conflict e : Error}
      {rest : List Observation} (loses : conflict.isLeaseConflict = true)
      (fails : e.isNotFound = false) :
      Fails c timing now
        (.answer (.get c.key) look :: .answer (.createOrUpdate lease now) (.error conflict) ::
          .answer (.get c.key) (.error e) :: rest) e

/-- What of the answers to a call that serves an operation at `now` makes it fail, as what this is
counted, and the error. Whatever may be asked after that, it has failed. -/
inductive Operation.Fails (timing : LeaseTiming) (now : Instant) :
    Operation → List Observation → Option Event → Error → Prop where
  /-- It cannot be found out what the key stands for. -/
  | resolve {c : Claim} {e : Error} {rest : List Observation} (fails : e.isNotFound = false) :
      Fails timing now (.reserve c) (.answer (.getTag c.key) (.error e) :: rest)
        (some .tagLookupFailed) e
  /-- The key stands for nothing, and contending for the lease fails. -/
  | reserve {c : Claim} {e notFound : Error} {leases : List Observation}
      (missing : notFound.isNotFound = true) (fails : c.Fails timing now leases e) :
      Fails timing now (.reserve c) (.answer (.getTag c.key) (.error notFound) :: leases)
        (some .acquireFailed) e
  /-- Contending for the lease fails. -/
  | extend {c : Claim} {e : Error} {leases : List Observation}
      (fails : c.Fails timing now leases e) :
      Fails timing now (.extend c) leases (some .extendFailed) e
  /-- The lease cannot be deleted. -/
  | release {key : Key} {e : Error} {rest : List Observation} :
      Fails timing now (.release key) (.answer (.delete key) (.error e) :: rest)
        (some .releaseFailed) e
  /-- The look at the key fails, which is not counted. -/
  | get {key : Key} {e : Error} {rest : List Observation} (fails : e.isNotFound = false) :
      Fails timing now (.get key) (.answer (.get key) (.error e) :: rest) none e

/-- Whether an event is a failure. -/
def Event.isFailure : Event → Bool
  | .acquireFailed | .extendFailed | .releaseFailed | .tagLookupFailed => true
  | .acquiredByCreation | .acquiredByUpdate | .alreadyInProgress => false

/-! ## The courses of calls -/

/-- What was asked of all that was seen. -/
def asked (seen : List Observation) : List Observation := seen.filter (·.isExchange)

/-- The failures that were counted of all that was seen. -/
def failures (seen : List Observation) : List Event :=
  (eventsIn seen).filter (·.isFailure)

/-- How a call that has ended stands to what makes it fail, and to how that is counted: either there
was one thing that did, and the call ended with its error and counted it, or there was none. -/
inductive Reports {α : Type} (fails : Option Event → Error → Prop) :
    Except Error α → List Event → Prop where
  /-- One thing failed. -/
  | failed (event? : Option Event) {e : Error}
      (only : ∀ event' e', fails event' e' ↔ event' = event? ∧ e' = e) :
      Reports fails (.error e) event?.toList
  /-- Nothing failed. -/
  | ended {x : α} (nothing : ∀ event e, ¬ fails event e) : Reports fails (.ok x) []

namespace Reports

variable {α : Type} {fails fails' : Option Event → Error → Prop} {result : Except Error α}
  {counted : List Event}

theorem congr (h : Reports fails result counted)
    (same : ∀ event e, fails' event e ↔ fails event e) : Reports fails' result counted := by
  cases h with
  | failed _ only =>
    exact .failed _ fun event e => (same event e).trans (only event e)
  | ended nothing => exact .ended fun event e h => nothing event e ((same event e).mp h)

theorem eq_error_iff (h : Reports fails result counted) {e : Error} :
    result = .error e ↔ ∃ event, fails event e := by
  cases h with
  | failed event? only =>
    rw [Except.error.injEq, eq_comm]
    simp only [only, exists_eq_left]
  | ended nothing => simp only [nothing, exists_const, reduceCtorEq]

theorem count_of_fails (h : Reports fails result counted) {event : Event} {e : Error}
    (he : fails (some event) e) : counted.count event = 1 := by
  cases h with
  | failed _ only =>
    obtain ⟨rfl, rfl⟩ := (only _ _).mp he
    exact List.count_singleton_self
  | ended nothing => exact absurd he (nothing _ _)

theorem count_of_not_fails (h : Reports fails result counted) {event : Event}
    (he : ¬ ∃ e, fails (some event) e) : counted.count event = 0 := by
  cases h with
  | failed event? only =>
    refine List.count_eq_zero.mpr fun hmem => he ⟨_, (only _ _).mpr ⟨?_, rfl⟩⟩
    exact (Option.mem_toList.mp hmem).symm
  | ended nothing => rfl

end Reports

section Claim

variable {α : Type} {c : Claim} {timing : LeaseTiming} {now : Instant} {failure : Event}
  {give : Attempt → α} {way : List Observation} {result : Except Error α}

/-- Every course of contending begins by reading the clock. -/
theorem Claim.Course.reads (course : c.Course timing failure give way result) :
    ∃ t rest, way = .reading t :: rest := by
  cases course <;> exact ⟨_, _, rfl⟩

/-- A look that lets the claim be written has not failed. -/
theorem Claim.MayWrite.not_failed {look : Except Error Reservation} (may : c.MayWrite now look)
    {e : Error} : ¬ (look = .error e ∧ e.isNotFound = false) := by
  rintro ⟨rfl, fails⟩
  exact Bool.eq_false_iff.mp fails may

/-- Every course of contending asks as a claim asks. -/
theorem Claim.Course.asks (course : c.Course timing failure give way result)
    (clock : ∀ t, .reading t ∈ way → t = now) : c.Asks timing now (asked way) := by
  obtain ⟨t, rest, rfl⟩ := course.reads
  obtain rfl := clock t (List.mem_cons_self ..)
  cases course with
  | unread fails => exact .look fun ends may => absurd ⟨rfl, fails⟩ may.not_failed
  | held live => exact .look fun ends may => absurd may live
  | leaseless may undefined =>
    -- The look would allow a write, but there is no lease to write.
    refine .look fun ends _ endsAt => ?_
    rw [lease?_eq_ok_iff.mpr ⟨ends, endsAt, rfl⟩] at undefined
    cases undefined
  | won may defined =>
    obtain ⟨ends, endsAt, rfl⟩ := lease?_eq_ok_iff.mp defined
    exact .write may endsAt fun e he => nomatch he
  | unwritten may defined fails =>
    obtain ⟨ends, endsAt, rfl⟩ := lease?_eq_ok_iff.mp defined
    refine .write may endsAt fun e he => ?_
    cases he
    exact fails
  | lost may defined loses | vanished may defined loses | blinded may defined loses =>
    obtain ⟨ends, endsAt, rfl⟩ := lease?_eq_ok_iff.mp defined
    exact .lookAgain may endsAt loses

/-- A claim fails after one look if that failed, or if it might be written but not be defined. -/
theorem Claim.fails_look_iff {look : Except Error Reservation} {e : Error} :
    c.Fails timing now [.answer (.get c.key) look] e ↔
      (look = .error e ∧ e.isNotFound = false) ∨
        (c.MayWrite now look ∧ c.lease? timing now = .error e) := by
  rw [lease?_eq_error_iff]
  constructor
  · intro h
    cases h with
    | look fails => exact .inl ⟨rfl, fails⟩
    | ttl may undefined => exact .inr ⟨may, .inl undefined⟩
    | expiry may lasts undefined => exact .inr ⟨may, .inr ⟨_, lasts, undefined, rfl⟩⟩
  · rintro (⟨rfl, fails⟩ | ⟨may, undefined | ⟨seconds, lasts, undefined, rfl⟩⟩)
    · exact .look fails
    · exact .ttl may undefined
    · exact .expiry may lasts undefined

/-- Where a look lets the claim be written and there is a lease to write, nothing has failed yet. -/
theorem Claim.not_fails_look {look : Except Error Reservation} {lease : Reservation}
    (may : c.MayWrite now look) (defined : c.lease? timing now = .ok lease) (e : Error) :
    ¬ c.Fails timing now [.answer (.get c.key) look] e := by
  rw [fails_look_iff, defined]
  rintro (failed | ⟨-, undefined⟩)
  · exact may.not_failed failed
  · cases undefined

/-- A claim that was written fails if the write failed and did not lose. -/
theorem Claim.fails_write_iff {look : Except Error Reservation} {lease : Reservation}
    {answer : Except Error Unit} {e : Error} (may : c.MayWrite now look)
    (defined : c.lease? timing now = .ok lease) :
    c.Fails timing now
        [.answer (.get c.key) look, .answer (.createOrUpdate lease now) answer] e ↔
      answer = .error e ∧ e.isLeaseConflict = false := by
  have fine := not_fails_look may defined e
  constructor
  · intro h
    cases h with
    | look fails => exact absurd (.look fails) fine
    | ttl may undefined => exact absurd (.ttl may undefined) fine
    | expiry may lasts undefined => exact absurd (.expiry may lasts undefined) fine
    | write fails => exact ⟨rfl, fails⟩
  · rintro ⟨rfl, fails⟩
    exact .write fails

/-- A claim that was written and lost fails if the second look failed. -/
theorem Claim.fails_lookAgain_iff {look again : Except Error Reservation} {lease : Reservation}
    {conflict e : Error} (may : c.MayWrite now look)
    (defined : c.lease? timing now = .ok lease) (loses : conflict.isLeaseConflict = true) :
    c.Fails timing now
        [.answer (.get c.key) look, .answer (.createOrUpdate lease now) (.error conflict),
          .answer (.get c.key) again] e ↔
      again = .error e ∧ e.isNotFound = false := by
  have fine := not_fails_look may defined e
  constructor
  · intro h
    cases h with
    | look fails => exact absurd (.look fails) fine
    | ttl may undefined => exact absurd (.ttl may undefined) fine
    | expiry may lasts undefined => exact absurd (.expiry may lasts undefined) fine
    | write fails => exact absurd loses (Bool.eq_false_iff.mp fails)
    | lookAgain _ fails => exact ⟨rfl, fails⟩
  · rintro ⟨rfl, fails⟩
    exact .lookAgain loses fails

/-- What is passed on is the error that failed. -/
theorem error_eq_iff {β : Type} {ordinary : Error → Bool} {e e' : Error}
    (fails : ordinary e' = false) :
    (Except.error e' : Except Error α) = .error e ↔
      (Except.error e' : Except Error β) = .error e ∧ ordinary e = false := by
  rw [Except.error.injEq, Except.error.injEq]
  constructor
  · rintro rfl
    exact ⟨rfl, fails⟩
  · exact And.left

/-- Contending ends with an error exactly if the claim failed, and with that error. -/
theorem Claim.Course.eq_error_iff (course : c.Course timing failure give way result)
    (clock : ∀ t, .reading t ∈ way → t = now) {e : Error} :
    result = .error e ↔ c.Fails timing now (asked way) e := by
  obtain ⟨t, rest, rfl⟩ := course.reads
  obtain rfl := clock t (List.mem_cons_self ..)
  -- How far a course has come decides which of the three ways to fail is left.
  cases course with
  | @unread _ e' fails =>
    have stays : ¬ c.MayWrite t (.error e') := Bool.eq_false_iff.mp fails
    refine Iff.trans ?_ fails_look_iff.symm
    rw [or_iff_left fun h => stays h.1]
    exact error_eq_iff fails
  | held live =>
    refine Iff.trans ?_ fails_look_iff.symm
    simp only [reduceCtorEq, false_and, false_or, false_iff]
    exact fun h => live h.1
  | leaseless may undefined =>
    refine Iff.trans ?_ fails_look_iff.symm
    rw [or_iff_right may.not_failed, undefined, and_iff_right may]
    simp only [Except.error.injEq]
  | won may defined =>
    refine Iff.trans ?_ (fails_write_iff may defined).symm
    simp only [reduceCtorEq, false_and]
  | unwritten may defined fails =>
    exact (error_eq_iff fails).trans (fails_write_iff may defined).symm
  | lost may defined loses =>
    refine Iff.trans ?_ (fails_lookAgain_iff may defined loses).symm
    simp only [reduceCtorEq, false_and]
  | vanished may defined loses notFound =>
    refine Iff.trans ?_ (fails_lookAgain_iff may defined loses).symm
    simp only [reduceCtorEq, false_iff]
    rintro ⟨h, fails⟩
    cases h
    exact Bool.eq_false_iff.mp fails notFound
  | blinded may defined loses fails =>
    exact (error_eq_iff fails).trans (fails_lookAgain_iff may defined loses).symm

/-- Contending counts one failure if it ends with an error, and none otherwise. -/
theorem Claim.Course.failures_eq (course : c.Course timing failure give way result)
    (isFailure : failure.isFailure = true) :
    failures way = match result with
      | .error _ => [failure]
      | .ok _ => [] := by
  have counted : [failure].filter (·.isFailure) = [failure] := by simp [isFailure]
  cases course with
  | unread | leaseless | unwritten | blinded => exact counted
  | @won _ look => cases look <;> rfl
  | held | lost | vanished => rfl

/-- Contending ends with an error exactly if the claim failed, which it counts. -/
theorem Claim.Course.reports (course : c.Course timing failure give way result)
    (clock : ∀ t, .reading t ∈ way → t = now) (isFailure : failure.isFailure = true) :
    Reports (fun event e => event = some failure ∧ c.Fails timing now (asked way) e) result
      (failures way) := by
  have fails_iff (e : Error) := (course.eq_error_iff clock (e := e)).symm
  rw [course.failures_eq isFailure]
  cases result with
  | error e =>
    refine .failed (some failure) fun event' e' => and_congr_right fun _ => ?_
    rw [fails_iff, Except.error.injEq, eq_comm]
  | ok x => exact .ended fun event e h => nomatch (fails_iff e).mp h.2

end Claim

/-! ## The calls that serve operations -/

section Operation

variable {timing : LeaseTiming} {now : Instant} {operation : Operation} {seen : List Observation}
  {result : Except Error Reply}

/-- Every course of a call asks as its operation asks. -/
theorem Operation.Course.asks (course : operation.Course timing seen result)
    (clock : ∀ t, .reading t ∈ seen → t = now) : operation.Asks timing now (asked seen) := by
  cases course with
  | invalid fault => exact .invalid fault
  | resolved valid => exact .resolve valid fun e he => nomatch he
  | unresolved valid fails =>
    refine .resolve valid fun e he => ?_
    cases he
    exact fails
  | reserving valid notFound course =>
    exact .reserve valid notFound (course.asks fun t ht => clock t (List.mem_cons_of_mem _ ht))
  | extending valid course => exact .extend valid (course.asks clock)
  | released valid | unreleased valid => exact .release valid
  | shown valid | free valid | unseen valid => exact .get valid

theorem Operation.fails_reserve_iff {c : Claim} {notFound : Error} {leases : List Observation}
    (missing : notFound.isNotFound = true) {event : Option Event} {e : Error} :
    Operation.Fails timing now (.reserve c) (.answer (.getTag c.key) (.error notFound) :: leases)
        event e ↔
      event = some .acquireFailed ∧ c.Fails timing now leases e := by
  constructor
  · intro h
    cases h with
    | resolve fails => exact absurd missing (Bool.eq_false_iff.mp fails)
    | reserve _ fails => exact ⟨rfl, fails⟩
  · rintro ⟨rfl, fails⟩
    exact .reserve missing fails

theorem Operation.fails_extend_iff {c : Claim} {leases : List Observation} {event : Option Event}
    {e : Error} :
    Operation.Fails timing now (.extend c) leases event e ↔
      event = some .extendFailed ∧ c.Fails timing now leases e := by
  constructor
  · intro h
    cases h with
    | extend fails => exact ⟨rfl, fails⟩
  · rintro ⟨rfl, fails⟩
    exact .extend fails

/-- A call on sound arguments ends with an error exactly if something failed that its operation
rests on, which it counts as its operation says. -/
theorem Operation.Course.reports (course : operation.Course timing seen result)
    (clock : ∀ t, .reading t ∈ seen → t = now) (valid : operation.validate = .ok ()) :
    Reports (operation.Fails timing now (asked seen)) result (failures seen) := by
  cases course with
  | invalid fault => cases valid.symm.trans fault
  | resolved | released | shown =>
    refine .ended fun event e h => ?_
    cases h
  | @unresolved c e _ fails =>
    refine .failed (some .tagLookupFailed) fun event' e' => ?_
    constructor
    · intro h
      cases h with
      | resolve => exact ⟨rfl, rfl⟩
      | reserve missing => exact absurd missing (Bool.eq_false_iff.mp fails)
    · rintro ⟨rfl, rfl⟩
      exact .resolve fails
  | reserving _ notFound course =>
    have reports := course.reports (fun t ht => clock t (List.mem_cons_of_mem _ ht)) rfl
    exact reports.congr fun event e => fails_reserve_iff notFound
  | extending _ course =>
    exact (course.reports clock rfl).congr fun event e => fails_extend_iff
  | unreleased =>
    refine .failed (some .releaseFailed) fun event' e' => ?_
    constructor
    · intro h
      cases h
      exact ⟨rfl, rfl⟩
    · rintro ⟨rfl, rfl⟩
      exact .release
  | free _ notFound =>
    refine .ended fun event e h => ?_
    cases h with
    | get fails => exact Bool.eq_false_iff.mp fails notFound
  | unseen _ fails =>
    refine .failed none fun event' e' => ?_
    constructor
    · intro h
      cases h
      exact ⟨rfl, rfl⟩
    · rintro ⟨rfl, rfl⟩
      exact .get fails

end Operation

/-! ## Calls that are run -/

/-- Whatever its stores answer, a call asks them as its operation asks: nothing for a caller who
supplies something unsound, at most one write, and that only after a look that allows it, and a
second look exactly if that write lost. -/
theorem stores_asked_in_order {σ : Type} (stores : Stores σ) (timing : LeaseTiming) (now : Instant)
    (operation : Operation) (s : σ) :
    operation.Asks timing now ((operation.call timing).exchanges stores now s) := by
  obtain ⟨seen, sees⟩ := Call.exists_sees stores now (operation.call timing) s .zero
  rw [sees.exchanges]
  exact (Operation.course_of_reaches sees.reaches).asks sees.readings

/-- Stores in which a key is free, a write to it loses all the same, and the next look fails. -/
def Script.blinding : Script where
  tags := []
  reservations := [.error .entryNotFound, .error (.reported .internal "disk I/O error")]
  writes := [.error (.duplicateKey "reservations.key")]

theorem second_look_after_losing :
    let c := Session.claimOf "first"
    let ends : Instant := ⟨15, 0, by decide, by decide, by decide⟩
    let exchanges := ((Operation.reserve c).call .standard).exchanges Script.stores .epoch .blinding
    exchanges =
        [.answer (.getTag c.key) (.error .entryNotFound),
          .answer (.get c.key) (.error .entryNotFound),
          .answer (.createOrUpdate ⟨c.key, "first", ends, .epoch, .epoch, none⟩ .epoch)
            (.error (.duplicateKey "reservations.key")),
          .answer (.get c.key) (.error (.reported .internal "disk I/O error"))] ∧
      (Operation.reserve c).Asks .standard .epoch exchanges :=
  ⟨rfl, stores_asked_in_order Script.stores .standard .epoch _ .blinding⟩

/-- The count of an event rises by one if something is so, and stays as it is if not. -/
def Counters.RisesIf (before after : Counters) (event : Event) (so : Prop) : Prop :=
  (so → after.count event = before.count event + 1) ∧
    (¬ so → after.count event = before.count event)

/-- What becomes of errors in a call that serves an operation, if `exchanges` is what it asked and
was answered. -/
structure Operation.PassesErrors {σ : Type} (operation : Operation) (timing : LeaseTiming)
    (now : Instant) (exchanges : List Observation) (counters : Counters)
    (outcome : Call.Outcome σ Reply) : Prop where
  /-- It asks as its operation asks, and goes no further than that after an answer that fails. -/
  asks : operation.Asks timing now exchanges
  /-- Who supplies something unsound is told so. -/
  refused : ∀ e, operation.validate = .error e →
    outcome.result = .error e ∧ outcome.counters = counters
  /-- Who does not is told of an error exactly if something failed, and of just that error. -/
  told : operation.validate = .ok () →
    ∀ e, outcome.result = .error e ↔ ∃ event, operation.Fails timing now exchanges event e
  /-- What failed is counted once, as what it is, and nothing else is counted as a failure. -/
  counted : operation.validate = .ok () → ∀ event, event.isFailure = true →
    counters.RisesIf outcome.counters event
      (∃ e, operation.Fails timing now exchanges (some event) e)
  /-- Who only asks for a lease is told that there is none exactly if the store says that nothing is
  there, and is not counted. -/
  asking : ∀ key, operation = .get key →
    outcome.counters = counters ∧
      (key.validate = .ok () → (outcome.result = .ok (.found none) ↔
        ∃ e, e.isNotFound = true ∧ exchanges = [.answer (.get key) (.error e)]))

theorem Operation.Course.get_counts_nothing {timing : LeaseTiming} {key : Key}
    {seen : List Observation} {result : Except Error Reply}
    (course : (Operation.get key).Course timing seen result) (c : Counters) :
    c.recordAll seen = c := by
  cases course <;> rfl

theorem Operation.Course.get_finds_none_iff {timing : LeaseTiming} {key : Key}
    {seen : List Observation} {result : Except Error Reply}
    (course : (Operation.get key).Course timing seen result) (valid : key.validate = .ok ()) :
    result = .ok (.found none) ↔
      ∃ e, e.isNotFound = true ∧ asked seen = [.answer (.get key) (.error e)] := by
  cases course with
  | invalid fault => cases valid.symm.trans fault
  | shown =>
    refine ⟨(nomatch ·), ?_⟩
    rintro ⟨e, _, h⟩
    cases h
  | free _ notFound => exact ⟨fun _ => ⟨_, notFound, rfl⟩, fun _ => rfl⟩
  | unseen _ fails =>
    refine ⟨(nomatch ·), ?_⟩
    rintro ⟨e, notFound, h⟩
    cases h
    exact absurd notFound (Bool.eq_false_iff.mp fails)

/-- Whatever its stores answer, a call passes on the errors that it should, and counts them. -/
theorem errors_passed_on {σ : Type} (stores : Stores σ) (timing : LeaseTiming) (now : Instant)
    (operation : Operation) (s : σ) (counters : Counters) :
    operation.PassesErrors timing now ((operation.call timing).exchanges stores now s) counters
      ((operation.call timing).run stores now s counters) := by
  obtain ⟨seen, sees⟩ := Call.exists_sees stores now (operation.call timing) s counters
  have course := Operation.course_of_reaches sees.reaches
  have exchanged : (operation.call timing).exchanges stores now s = asked seen := sees.exchanges
  have reports := course.reports sees.readings
  rw [exchanged]
  refine ⟨course.asks sees.readings, ?_, fun valid e => (reports valid).eq_error_iff, ?_, ?_⟩
  · intro e fault
    rw [Operation.call_of_invalid fault]
    exact ⟨rfl, rfl⟩
  · intro valid event isFailure
    -- A failure is counted by the counters as often as it is among the failures.
    have counts := sees.counters ▸ Counters.count_recordAll counters seen event
    rw [← List.count_filter (p := (·.isFailure)) isFailure] at counts
    constructor
    · rintro ⟨e, fails⟩
      rw [counts]
      exact congrArg _ ((reports valid).count_of_fails fails)
    · intro nothing
      rw [counts]
      exact congrArg _ ((reports valid).count_of_not_fails nothing)
  · rintro key rfl
    exact ⟨sees.counters.trans (course.get_counts_nothing counters), course.get_finds_none_iff⟩

theorem failed_look_passed_on :
    let c := Session.claimOf "first"
    let outcome := ((Operation.extend c).call .standard).run Script.stores .epoch .blinding .zero
    outcome.result = .error (.reported .internal "disk I/O error") ∧
      outcome.counters.count .extendFailed = Counters.zero.count .extendFailed + 1 := by
  have passes := errors_passed_on Script.stores .standard .epoch
    (.extend (Session.claimOf "first")) .blinding .zero
  have loses : (Error.duplicateKey "reservations.key").isLeaseConflict = true := rfl
  have fails : Operation.Fails .standard .epoch (.extend (Session.claimOf "first"))
      (((Operation.extend (Session.claimOf "first")).call .standard).exchanges Script.stores .epoch
        .blinding)
      (some .extendFailed) (.reported .internal "disk I/O error") :=
    .extend (.lookAgain loses rfl)
  exact ⟨(passes.told rfl _).mpr ⟨_, fails⟩, (passes.counted rfl _ rfl).1 ⟨_, fails⟩⟩

end LeaseCatalog
