import LeaseCatalog.Proofs.Outcomes

/-!
# How a call can go

The stores may answer a call in any way, and yet a call can go in few ways only. A course is one of
these ways: the instants that the call reads, the requests that it makes with the answers to them,
and the events that it counts, all in one order, together with the end to which that leads.
`Claim.Course` lists the courses of contending for a lease, one constructor for each way through,
and `Operation.Course` those of the calls that serve operations.

Every call that has ended went by one of its courses (`Operation.course_of_reaches`), also a call
that is run against stores while nothing else happens, of which these keep a record
(`Call.exists_sees`). So what a call asks, what it counts and how it ends, and what these have to do
with each other, are read off a list of cases in which the call itself no longer occurs.
-/

namespace LeaseCatalog

/-- What a look at a key shows lets a claim be written: nothing is there, or what is there may be
claimed. -/
def Claim.MayWrite (c : Claim) (now : Instant) : Except Error Reservation → Prop
  | .ok current => current.isClaimableBy c.owner now = true
  | .error e => e.isNotFound = true

/-- How an acquired lease is counted, by what the look at the key has shown. -/
def Event.acquiredAfter : Except Error Reservation → Event
  | .ok _ => .acquiredByUpdate
  | .error _ => .acquiredByCreation

/-- How contending for a lease can go: what is seen on the way, and how it ends. -/
inductive Claim.Course {α : Type} (c : Claim) (timing : LeaseTiming) (failure : Event)
    (give : Attempt → α) : List Observation → Except Error α → Prop where
  /-- The look at the key fails. -/
  | unread {now : Instant} {e : Error} (fails : e.isNotFound = false) :
      Course c timing failure give
        [.reading now, .answer (.get c.key) (.error e), .counting failure] (.error e)
  /-- Another owner's lease is live. -/
  | held {now : Instant} {current : Reservation}
      (live : ¬ current.isClaimableBy c.owner now = true) :
      Course c timing failure give
        [.reading now, .answer (.get c.key) (.ok current), .counting .alreadyInProgress]
        (.ok (give ⟨false, current⟩))
  /-- There is no lease that could be written. -/
  | leaseless {now : Instant} {look : Except Error Reservation} {e : Error}
      (may : c.MayWrite now look) (undefined : c.lease? timing now = .error e) :
      Course c timing failure give
        [.reading now, .answer (.get c.key) look, .counting failure] (.error e)
  /-- The write succeeds. -/
  | won {now : Instant} {look : Except Error Reservation} {lease : Reservation}
      (may : c.MayWrite now look) (defined : c.lease? timing now = .ok lease) :
      Course c timing failure give
        [.reading now, .answer (.get c.key) look, .answer (.createOrUpdate lease now) (.ok ()),
          .counting (.acquiredAfter look)]
        (.ok (give ⟨true, lease⟩))
  /-- The write fails. -/
  | unwritten {now : Instant} {look : Except Error Reservation} {lease : Reservation} {e : Error}
      (may : c.MayWrite now look) (defined : c.lease? timing now = .ok lease)
      (fails : e.isLeaseConflict = false) :
      Course c timing failure give
        [.reading now, .answer (.get c.key) look, .answer (.createOrUpdate lease now) (.error e),
          .counting failure]
        (.error e)
  /-- The write loses, and the second look shows the winner's lease. -/
  | lost {now : Instant} {look : Except Error Reservation} {lease winner : Reservation}
      {conflict : Error} (may : c.MayWrite now look) (defined : c.lease? timing now = .ok lease)
      (loses : conflict.isLeaseConflict = true) :
      Course c timing failure give
        [.reading now, .answer (.get c.key) look,
          .answer (.createOrUpdate lease now) (.error conflict), .counting .alreadyInProgress,
          .answer (.get c.key) (.ok winner)]
        (.ok (give ⟨false, winner⟩))
  /-- The write loses, and the second look shows that nothing is there any more. -/
  | vanished {now : Instant} {look : Except Error Reservation} {lease : Reservation}
      {conflict e : Error} (may : c.MayWrite now look) (defined : c.lease? timing now = .ok lease)
      (loses : conflict.isLeaseConflict = true) (notFound : e.isNotFound = true) :
      Course c timing failure give
        [.reading now, .answer (.get c.key) look,
          .answer (.createOrUpdate lease now) (.error conflict), .counting .alreadyInProgress,
          .answer (.get c.key) (.error e)]
        (.ok (give ⟨false, .taken c.key "" now now none⟩))
  /-- The write loses, and the second look fails. -/
  | blinded {now : Instant} {look : Except Error Reservation} {lease : Reservation}
      {conflict e : Error} (may : c.MayWrite now look) (defined : c.lease? timing now = .ok lease)
      (loses : conflict.isLeaseConflict = true) (fails : e.isNotFound = false) :
      Course c timing failure give
        [.reading now, .answer (.get c.key) look,
          .answer (.createOrUpdate lease now) (.error conflict), .counting .alreadyInProgress,
          .answer (.get c.key) (.error e), .counting failure]
        (.error e)

/-- How a call that serves an operation can go. -/
inductive Operation.Course (timing : LeaseTiming) :
    Operation → List Observation → Except Error Reply → Prop where
  /-- The caller supplies something unsound. -/
  | invalid {operation : Operation} {e : Error} (fault : operation.validate = .error e) :
      Course timing operation [] (.error e)
  /-- The key stands for an artifact. -/
  | resolved {c : Claim} {tag : Tag} (valid : c.validate = .ok ()) :
      Course timing (.reserve c) [.answer (.getTag c.key) (.ok tag)]
        (.ok (.reserved (.artifact tag.artifact)))
  /-- The look for a tag fails. -/
  | unresolved {c : Claim} {e : Error} (valid : c.validate = .ok ())
      (fails : e.isNotFound = false) :
      Course timing (.reserve c)
        [.answer (.getTag c.key) (.error e), .counting .tagLookupFailed] (.error e)
  /-- The key stands for nothing, and the caller contends for the lease. -/
  | reserving {c : Claim} {e : Error} {way : List Observation} {result : Except Error Reply}
      (valid : c.validate = .ok ()) (notFound : e.isNotFound = true)
      (course : c.Course timing .acquireFailed
        (fun attempt => .reserved (.status (attempt.status timing))) way result) :
      Course timing (.reserve c) (.answer (.getTag c.key) (.error e) :: way) result
  /-- The caller contends for the lease. -/
  | extending {c : Claim} {way : List Observation} {result : Except Error Reply}
      (valid : c.validate = .ok ())
      (course : c.Course timing .extendFailed
        (fun attempt => .extended (attempt.holder.toLease timing)) way result) :
      Course timing (.extend c) way result
  /-- The key is freed. -/
  | released {key : Key} (valid : key.validate = .ok ()) :
      Course timing (.release key) [.answer (.delete key) (.ok ())] (.ok .released)
  /-- The key cannot be freed. -/
  | unreleased {key : Key} {e : Error} (valid : key.validate = .ok ()) :
      Course timing (.release key)
        [.answer (.delete key) (.error e), .counting .releaseFailed] (.error e)
  /-- The look at the key shows a lease. -/
  | shown {key : Key} {r : Reservation} (valid : key.validate = .ok ()) :
      Course timing (.get key) [.answer (.get key) (.ok r)]
        (.ok (.found (some (r.toLease timing))))
  /-- The look at the key shows that nothing is there. -/
  | free {key : Key} {e : Error} (valid : key.validate = .ok ()) (notFound : e.isNotFound = true) :
      Course timing (.get key) [.answer (.get key) (.error e)] (.ok (.found none))
  /-- The look at the key fails. -/
  | unseen {key : Key} {e : Error} (valid : key.validate = .ok ())
      (fails : e.isNotFound = false) :
      Course timing (.get key) [.answer (.get key) (.error e)] (.error e)

theorem foundOrNone_eq_error {β : Type} {answer : Except Error β} {e : Error}
    (h : foundOrNone answer = .error e) : answer = .error e ∧ e.isNotFound = false := by
  cases answer with
  | ok found => cases h
  | error e' =>
    unfold foundOrNone at h
    dsimp only at h
    split_ifs at h with notFound
    cases h
    exact ⟨rfl, Bool.eq_false_iff.mpr notFound⟩

namespace Call

variable {α : Type}

/-- What fits the end of a call by itself fits it also if something was seen before the call, which
is then to be taken away. -/
theorem Ensures.after {fits : List Observation → Except Error α → Prop} {call : Call α}
    {seen : List Observation} (ensures : call.Ensures fits seen) (before : List Observation) :
    call.Ensures (fun all result => ∃ way, all = before ++ way ∧ fits way result)
      (before ++ seen) := by
  induction call generalizing seen with
  | done result => exact ⟨seen, rfl, ensures⟩
  | readClock next ih =>
    intro now
    rw [List.append_assoc]
    exact ih now (ensures now)
  | record event next ih =>
    change next.Ensures _ (before ++ seen ++ [.counting event])
    rw [List.append_assoc]
    exact ih ensures
  | ask request next ih =>
    intro answer
    rw [List.append_assoc]
    exact ih answer (ensures answer)

/-! ## Contending -/

section Contend

variable {c : Claim} {timing : LeaseTiming} {now : Instant} {failure : Event} {give : Attempt → α}

theorem reportWinner_course {look : Except Error Reservation} {lease : Reservation}
    {conflict : Error} (may : c.MayWrite now look) (defined : c.lease? timing now = .ok lease)
    (loses : conflict.isLeaseConflict = true) :
    (reportWinner c.key now failure give).Ensures (c.Course timing failure give)
      [.reading now, .answer (.get c.key) look,
        .answer (.createOrUpdate lease now) (.error conflict)] := by
  rw [reportWinner_eq]
  intro answer
  cases found : foundOrNone answer with
  | error e =>
    obtain ⟨rfl, fails⟩ := foundOrNone_eq_error found
    unfold reported
    rw [found]
    exact .blinded may defined loses fails
  | ok shown =>
    cases shown with
    | some winner =>
      obtain rfl : answer = .ok winner := foundOrNone_eq_some found
      exact .lost may defined loses
    | none =>
      obtain ⟨e, rfl, notFound⟩ := foundOrNone_eq_none found
      rw [reported_none found]
      exact .vanished may defined loses notFound

theorem write_course {look : Except Error Reservation} {free : Bool} (may : c.MayWrite now look)
    (counted : (if free then .acquiredByCreation else .acquiredByUpdate) =
      Event.acquiredAfter look) :
    (write c timing now free failure give).Ensures (c.Course timing failure give)
      [.reading now, .answer (.get c.key) look] := by
  cases lease : c.lease? timing now with
  | error e =>
    unfold write
    rw [lease]
    exact .leaseless may lease
  | ok r =>
    rw [write_eq lease]
    intro answer
    cases answer with
    | ok value =>
      cases value
      rw [written_ok, counted]
      exact .won may lease
    | error e =>
      unfold written
      dsimp only
      split
      · rename_i loses
        exact reportWinner_course may lease loses
      · rename_i fails
        exact .unwritten may lease (Bool.eq_false_iff.mpr fails)

/-- Whatever it is told, contending for a lease goes by one of its courses. -/
theorem contend_course (c : Claim) (timing : LeaseTiming) (failure : Event) (give : Attempt → α) :
    (contend c timing failure give).Ensures (c.Course timing failure give) [] := by
  rw [contend_eq]
  intro now answer
  cases found : foundOrNone answer with
  | error e =>
    obtain ⟨rfl, fails⟩ := foundOrNone_eq_error found
    rw [looked_error found]
    exact .unread fails
  | ok shown =>
    cases shown with
    | none =>
      obtain ⟨e, rfl, notFound⟩ := foundOrNone_eq_none found
      rw [looked_none found]
      exact write_course notFound rfl
    | some current =>
      obtain rfl : answer = .ok current := foundOrNone_eq_some found
      by_cases claimable : current.isClaimableBy c.owner now = true
      · rw [looked_claimable found claimable]
        exact write_course claimable rfl
      · rw [looked_live found claimable]
        exact .held claimable

end Contend

end Call

/-! ## The calls that serve operations -/

namespace Operation

variable {timing : LeaseTiming} {operation : Operation}

/-- Whatever it is told, a call that serves an operation goes by one of its courses. -/
theorem call_course (timing : LeaseTiming) (operation : Operation) :
    (operation.call timing).Ensures (Operation.Course timing operation) [] := by
  cases hv : operation.validate with
  | error e =>
    rw [call_of_invalid hv]
    exact .invalid hv
  | ok =>
    cases operation with
    | reserve c =>
      change (Call.reserve timing c Reply.reserved).Ensures _ []
      rw [Call.reserve_eq timing _ hv]
      intro answer
      cases found : foundOrNone answer with
      | error e =>
        obtain ⟨rfl, fails⟩ := foundOrNone_eq_error found
        rw [Call.tagLooked_error found]
        exact .unresolved hv fails
      | ok shown =>
        cases shown with
        | some tag =>
          obtain rfl : answer = .ok tag := foundOrNone_eq_some found
          exact .resolved hv
        | none =>
          obtain ⟨e, rfl, notFound⟩ := foundOrNone_eq_none found
          rw [Call.tagLooked_none found]
          have contending := (Call.contend_course c timing .acquireFailed
            fun attempt => Reply.reserved (.status (attempt.status timing))).after
              [.answer (.getTag c.key) (.error e)]
          refine contending.mono ?_
          rintro seen result ⟨way, rfl, course⟩
          exact .reserving hv notFound course
    | extend c =>
      change (Call.extend timing c Reply.extended).Ensures _ []
      rw [Call.extend_eq timing _ hv]
      refine (Call.contend_course c timing .extendFailed _).mono ?_
      intro seen result course
      exact .extending hv course
    | release key =>
      change (Call.release key Reply.released).Ensures _ []
      rw [Call.release_eq _ hv]
      intro answer
      cases answer with
      | ok value => exact .released hv
      | error e => exact .unreleased hv
    | get key =>
      change (Call.get timing key Reply.found).Ensures _ []
      rw [Call.get_eq timing _ hv]
      intro answer
      cases found : foundOrNone answer with
      | error e =>
        obtain ⟨rfl, fails⟩ := foundOrNone_eq_error found
        rw [Call.shown_error found]
        exact .unseen hv fails
      | ok shown =>
        rw [Call.shown_ok found]
        cases shown with
        | some r =>
          obtain rfl : answer = .ok r := foundOrNone_eq_some found
          exact .shown hv
        | none =>
          obtain ⟨e, rfl, notFound⟩ := foundOrNone_eq_none found
          exact .free hv notFound

/-- A call that has ended went by one of its courses. -/
theorem course_of_reaches {seen : List Observation} {result : Except Error Reply}
    (h : (operation.call timing).Reaches seen (.done result)) :
    operation.Course timing seen result :=
  (call_course timing operation).of_reaches h

end Operation

/-! ## Calls that are run -/

/-- Stores that also write down what they are asked and what they answer, in order. -/
def Stores.recorded {σ : Type} (stores : Stores σ) : Stores (σ × List Observation) :=
  fun request s =>
    let (answer, state) := stores request s.1
    (answer, (state, s.2 ++ [.answer request answer]))

/-- Whether a call asks something. -/
def Observation.isExchange : Observation → Bool
  | .answer _ _ => true
  | .reading _ | .counting _ => false

/-- The event that a call counts. -/
def Observation.event? : Observation → Option Event
  | .counting event => some event
  | .reading _ | .answer _ _ => none

/-- The events that were counted of all that was seen. -/
def eventsIn (seen : List Observation) : List Event := seen.filterMap Observation.event?

theorem eventsIn_append (seen more : List Observation) :
    eventsIn (seen ++ more) = eventsIn seen ++ eventsIn more :=
  List.filterMap_append ..

namespace Counters

/-- How often an event has happened. -/
def count (c : Counters) : Event → Nat
  | .acquiredByCreation => c.acquiredByCreation
  | .acquiredByUpdate => c.acquiredByUpdate
  | .alreadyInProgress => c.alreadyInProgress
  | .acquireFailed => c.acquireFailed
  | .extendFailed => c.extendFailed
  | .releaseFailed => c.releaseFailed
  | .tagLookupFailed => c.tagLookupFailed

theorem count_record (c : Counters) (event counted : Event) :
    (c.record event).count counted = c.count counted + if event = counted then 1 else 0 := by
  cases event <;> cases counted <;> rfl

/-- The counters after some more events. -/
def recordAll (c : Counters) (seen : List Observation) : Counters :=
  (eventsIn seen).foldl record c

theorem count_recordAll (c : Counters) (seen : List Observation) (event : Event) :
    (c.recordAll seen).count event = c.count event + (eventsIn seen).count event := by
  unfold recordAll
  induction eventsIn seen generalizing c with
  | nil => rfl
  | cons first rest ih =>
    rw [List.foldl_cons, ih, count_record, List.count_cons, Nat.add_assoc,
      Nat.add_comm (ite _ _ _)]
    simp only [beq_iff_eq]

end Counters

namespace Call

variable {α σ : Type} (stores : Stores σ) (now : Instant)

/-- What the stores are asked while a call runs, and what they answer, in order. -/
def exchanges (call : Call α) (s : σ) : List Observation :=
  (call.run stores.recorded now (s, []) .zero).state.2

/-- What is written down does not depend on what was written down or counted before. -/
theorem run_recorded (call : Call α) (s : σ) (log : List Observation)
    (counters counters' : Counters) :
    (call.run stores.recorded now (s, log) counters).state.2 =
      log ++ (call.run stores.recorded now (s, []) counters').state.2 := by
  induction call generalizing s log counters counters' with
  | done result => exact (List.append_nil log).symm
  | readClock next ih => exact ih now s log counters counters'
  | record event next ih => exact ih s log _ _
  | ask request next ih =>
    change (run _ _ (next _) (_, log ++ [_]) counters).state.2 =
      log ++ (run _ _ (next _) (_, [_]) counters').state.2
    rw [ih _ _ (log ++ [_]) _ counters', ih _ _ [_] counters' counters', List.append_assoc]

theorem exchanges_ask (request : Request) (next : request.Answer → Call α) (s : σ) :
    (Call.ask request next).exchanges stores now s =
      .answer request (stores request s).1 ::
        (next (stores request s).1).exchanges stores now (stores request s).2 :=
  run_recorded stores now (next (stores request s).1) (stores request s).2
    [.answer request (stores request s).1] .zero .zero

theorem exchanges_record (event : Event) (next : Call α) (s : σ) :
    (Call.record event next).exchanges stores now s = next.exchanges stores now s :=
  run_recorded stores now next s [] _ _

/-- What a call sees that is run while nothing else happens. -/
structure Sees (call : Call α) (s : σ) (counters : Counters) (seen : List Observation) :
    Prop where
  /-- It is what leads to the end of the run. -/
  reaches : call.Reaches seen (.done (call.run stores now s counters).result)
  /-- The clock stands still. -/
  readings : ∀ t, .reading t ∈ seen → t = now
  /-- The stores tell it what it is answered. -/
  exchanges : call.exchanges stores now s = seen.filter (·.isExchange)
  /-- It counts its events. -/
  counters : (call.run stores now s counters).counters = counters.recordAll seen

theorem exists_sees (call : Call α) (s : σ) (counters : Counters) :
    ∃ seen, call.Sees stores now s counters seen := by
  induction call generalizing s counters with
  | done result => exact ⟨[], .start, fun _ h => (nomatch h), rfl, rfl⟩
  | readClock next ih =>
    obtain ⟨seen, sees⟩ := ih now s counters
    refine ⟨.reading now :: seen, (Reaches.start.readClock now).trans sees.reaches, ?_,
      sees.exchanges, sees.counters⟩
    intro t ht
    rcases List.mem_cons.mp ht with ht | ht
    · exact Observation.reading.inj ht
    · exact sees.readings t ht
  | record event next ih =>
    obtain ⟨seen, sees⟩ := ih s (counters.record event)
    refine ⟨.counting event :: seen, Reaches.start.record.trans sees.reaches, ?_,
      (exchanges_record stores now event next s).trans sees.exchanges, sees.counters⟩
    intro t ht
    rcases List.mem_cons.mp ht with ht | ht
    · cases ht
    · exact sees.readings t ht
  | ask request next ih =>
    obtain ⟨seen, sees⟩ := ih (stores request s).1 (stores request s).2 counters
    refine ⟨.answer request (stores request s).1 :: seen,
      (Reaches.start.ask (stores request s).1).trans sees.reaches, ?_, ?_, sees.counters⟩
    · intro t ht
      rcases List.mem_cons.mp ht with ht | ht
      · cases ht
      · exact sees.readings t ht
    · rw [exchanges_ask, sees.exchanges]
      rfl

end Call

end LeaseCatalog
