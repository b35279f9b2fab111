import LeaseCatalog.Proofs.Exclusion
import LeaseCatalog.Proofs.History
import LeaseCatalog.Proofs.RowOfKey

/-!
# What a call sees

A call under way knows nothing of the stores but what it has been told: it sees the instants that it
reads from its clock and the answers to its requests. `Call.Reaches` is about one call in any
surroundings: what is left of it once it has seen this and that. `Traffic.observations` is about one
call in a traffic: what it sees in the course of some turns. Both say the same of the call's way
(`Traffic.reaches_run`), so what is shown of a call from what it sees holds of it in every traffic,
and what it sees can be looked up at the turn at which it saw it (`Traffic.mem_observations_iff`).

So much is known of what calls ask that a turn can do only three things to the row of a key: write a
lease of the key, release the key, or leave the row (`Traffic.row?_before_succ`). What holds of each
row that is written therefore holds of all rows that are found later (`Traffic.rows_induction`).
-/

namespace LeaseCatalog

/-- What a call sees at one of its steps. -/
inductive Observation where
  /-- It reads an instant from the clock. -/
  | reading (now : Instant)
  /-- It counts an event. -/
  | counting (event : Event)
  /-- It is answered a request. -/
  | answer (request : Request) (answer : request.Answer)

namespace Call

variable {α : Type}

/-- What is left of a call that has seen some things, one after the other. -/
inductive Reaches (call : Call α) : List Observation → Call α → Prop where
  /-- It has seen nothing yet. -/
  | start : Reaches call [] call
  /-- It has read an instant. -/
  | readClock {seen : List Observation} {next : Instant → Call α} (now : Instant)
      (h : Reaches call seen (.readClock next)) : Reaches call (seen ++ [.reading now]) (next now)
  /-- It has counted an event. -/
  | record {seen : List Observation} {event : Event} {next : Call α}
      (h : Reaches call seen (.record event next)) : Reaches call (seen ++ [.counting event]) next
  /-- It has been answered a request. -/
  | ask {seen : List Observation} {request : Request} {next : request.Answer → Call α}
      (answer : request.Answer) (h : Reaches call seen (.ask request next)) :
      Reaches call (seen ++ [.answer request answer]) (next answer)

section Reaches

variable {call rest : Call α} {seen : List Observation}

theorem Reaches.trans {last : Call α} {more : List Observation} (h : call.Reaches seen rest)
    (h' : rest.Reaches more last) : call.Reaches (seen ++ more) last := by
  induction h' with
  | start => simpa using h
  | readClock now _ ih => simpa using ih.readClock now
  | record _ ih => simpa using ih.record
  | ask answer _ ih => simpa using ih.ask answer

/-- A call that has ended sees nothing more. -/
theorem Reaches.eq_done {result : Except Error α} (h : (Call.done result).Reaches seen rest) :
    rest = .done result := by
  induction h with
  | start => rfl
  | readClock _ _ ih => exact nomatch ih
  | record _ ih => exact nomatch ih
  | ask _ _ ih => exact nomatch ih

/-- A call that asks something has not been answered yet, or goes on as it was answered. -/
theorem Reaches.ask_cases {request : Request} {next : request.Answer → Call α}
    (h : (Call.ask request next).Reaches seen rest) :
    (seen = [] ∧ rest = .ask request next) ∨
      ∃ answer more, seen = .answer request answer :: more ∧ (next answer).Reaches more rest := by
  induction h with
  | start => exact .inl ⟨rfl, rfl⟩
  | readClock now _ ih =>
    rcases ih with ⟨-, h⟩ | ⟨answer, more, rfl, h⟩
    · cases h
    · exact .inr ⟨answer, _, rfl, h.readClock now⟩
  | record _ ih =>
    rcases ih with ⟨-, h⟩ | ⟨answer, more, rfl, h⟩
    · cases h
    · exact .inr ⟨answer, _, rfl, h.record⟩
  | ask answer _ ih =>
    rcases ih with ⟨rfl, h⟩ | ⟨first, more, rfl, h⟩
    · cases h
      exact .inr ⟨answer, [], rfl, .start⟩
    · exact .inr ⟨first, _, rfl, h.ask answer⟩

/-- A call goes on asking only what it may, and knows no instant but what it has read. -/
theorem Obeys.of_reaches {may : Option Instant → Request → Prop} (obeys : call.Obeys may none)
    (h : call.Reaches seen rest) :
    ∃ reading, rest.Obeys may reading ∧ ∀ t, reading = some t → .reading t ∈ seen := by
  induction h with
  | start => exact ⟨none, obeys, by simp⟩
  | readClock now _ ih =>
    obtain ⟨reading, obeys, -⟩ := ih
    refine ⟨some now, obeys now, ?_⟩
    intro t ht
    cases ht
    simp
  | record _ ih =>
    obtain ⟨reading, obeys, hread⟩ := ih
    exact ⟨reading, obeys, fun t ht => List.mem_append_left _ (hread t ht)⟩
  | ask answer _ ih =>
    obtain ⟨reading, obeys, hread⟩ := ih
    exact ⟨reading, obeys.2 answer, fun t ht => List.mem_append_left _ (hread t ht)⟩

end Reaches

/-- A call that can end only in such a way that its end fits what it has seen. -/
def Ensures (fits : List Observation → Except Error α → Prop) : List Observation → Call α → Prop
  | seen, .done result => fits seen result
  | seen, .readClock next => ∀ now, Ensures fits (seen ++ [.reading now]) (next now)
  | seen, .record event next => Ensures fits (seen ++ [.counting event]) next
  | seen, .ask request next =>
    ∀ answer, Ensures fits (seen ++ [.answer request answer]) (next answer)

/-- What always fits the end of a call fits it if something stronger does. -/
theorem Ensures.mono {fits fits' : List Observation → Except Error α → Prop}
    (h : ∀ seen result, fits seen result → fits' seen result) {call : Call α}
    {seen : List Observation} (ensures : call.Ensures fits seen) : call.Ensures fits' seen := by
  induction call generalizing seen with
  | done result => exact h seen result ensures
  | readClock next ih => exact fun now => ih now (ensures now)
  | record event next ih => exact ih ensures
  | ask request next ih => exact fun answer => ih answer (ensures answer)

/-- What holds of the end of a call whatever it sees holds of the end of what is left of it. -/
theorem Ensures.of_reaches {fits : List Observation → Except Error α → Prop} {call rest : Call α}
    {seen more : List Observation} (ensures : call.Ensures fits seen)
    (h : call.Reaches more rest) : rest.Ensures fits (seen ++ more) := by
  induction h with
  | start => simpa using ensures
  | readClock now _ ih =>
    rw [← List.append_assoc]
    exact ih now
  | record _ ih =>
    rw [← List.append_assoc]
    exact ih
  | ask answer _ ih =>
    rw [← List.append_assoc]
    exact ih answer

end Call

/-- A call whose caller supplies something unsound asks nothing. -/
theorem Operation.call_of_invalid {operation : Operation} {e : Error}
    (h : operation.validate = .error e) (timing : LeaseTiming) :
    operation.call timing = .done (.error e) := by
  cases operation with
  | reserve c =>
    change Call.reserve timing c Reply.reserved = _
    unfold Call.reserve
    rw [show c.validate = .error e from h]
  | extend c =>
    change Call.extend timing c Reply.extended = _
    unfold Call.extend
    rw [show c.validate = .error e from h]
  | release key =>
    change Call.release key Reply.released = _
    unfold Call.release
    rw [show key.validate = .error e from h]
  | get key =>
    change Call.get timing key Reply.found = _
    unfold Call.get
    rw [show key.validate = .error e from h]

theorem Operation.validate_of_claim? {operation : Operation} {c : Claim}
    (h : operation.claim? = some c) : operation.validate = c.validate := by
  cases operation with
  | reserve c' =>
    cases h
    rfl
  | extend c' =>
    cases h
    rfl
  | release => cases h
  | get => cases h

/-! ## Traffic -/

namespace Traffic

/-- What a call sees at a turn. -/
def observation? (s : Traffic) (i : Nat) (x : Turn) : Option Observation :=
  if x = .thread i then
    match (s.threads i).call with
    | .done _ => none
    | .readClock _ => some (.reading (s.session.managers (s.threads i).manager).clock.now)
    | .record event _ => some (.counting event)
    | .ask request _ =>
      some (.answer request (request.perform s.session.dialect s.session.tables).1)
  else none

/-- What a call sees in the course of some turns. -/
def observations (s : Traffic) (i : Nat) : List Turn → List Observation
  | [] => []
  | x :: rest => (s.observation? i x).toList ++ observations (s.turn x) i rest

theorem reaches_turn (s : Traffic) (i : Nat) (x : Turn) :
    (s.threads i).call.Reaches (s.observation? i x).toList ((s.turn x).threads i).call := by
  unfold observation?
  by_cases hx : x = .thread i
  · subst hx
    change Call.Reaches _ _ ((s.stepThread i).threads i).call
    rw [if_pos rfl]
    cases hc : (s.threads i).call with
    | done result =>
      rw [stepThread_done hc, hc]
      exact .start
    | readClock next =>
      rw [stepThread_readClock hc, advance_call_self]
      exact Call.Reaches.start.readClock _
    | record event next =>
      rw [stepThread_record hc]
      change Call.Reaches _ _ ((s.advance i next).threads i).call
      rw [advance_call_self]
      exact Call.Reaches.start.record
    | ask request next =>
      rw [stepThread_ask hc]
      change Call.Reaches _ _ ((s.advance i (next _)).threads i).call
      rw [advance_call_self]
      exact Call.Reaches.start.ask _
  · rw [if_neg hx]
    have same : (s.turn x).threads i = s.threads i := by
      cases x with
      | step x => rfl
      | thread j => exact stepThread_threads_of_ne fun hij => hx (congrArg Turn.thread hij.symm)
    rw [same]
    exact .start

/-- What is left of a call is what is left once it has seen what it sees. -/
theorem reaches_run (s : Traffic) (i : Nat) (turns : List Turn) :
    (s.threads i).call.Reaches (s.observations i turns) ((s.run turns).threads i).call := by
  induction turns generalizing s with
  | nil => exact .start
  | cons x rest ih => exact (s.reaches_turn i x).trans (ih (s.turn x))

/-- At turn `n` call `i` sees something. -/
def ObservesAt (start : Traffic) (turns : List Turn) (n i : Nat) (o : Observation) : Prop :=
  ∃ x, turns[n]? = some x ∧ (start.before turns n).observation? i x = some o

section ObservesAt

variable {start : Traffic} {turns : List Turn} {n i : Nat} {o : Observation}

theorem observesAt_zero {x : Turn} {rest : List Turn} :
    start.ObservesAt (x :: rest) 0 i o ↔ start.observation? i x = some o := by
  constructor
  · rintro ⟨y, hy, ho⟩
    cases hy
    exact ho
  · exact fun ho => ⟨x, rfl, ho⟩

theorem observesAt_succ {x : Turn} {rest : List Turn} :
    start.ObservesAt (x :: rest) (n + 1) i o ↔ (start.turn x).ObservesAt rest n i o := Iff.rfl

/-- What a call sees, it sees at some turn. -/
theorem mem_observations_iff :
    o ∈ start.observations i turns ↔ ∃ n, start.ObservesAt turns n i o := by
  induction turns generalizing start with
  | nil => simp [observations, ObservesAt]
  | cons x rest ih =>
    rw [observations, List.mem_append, ih, Option.mem_toList]
    constructor
    · rintro (ho | ⟨n, ho⟩)
      · exact ⟨0, observesAt_zero.mpr ho⟩
      · exact ⟨n + 1, observesAt_succ.mpr ho⟩
    · rintro ⟨n, ho⟩
      cases n with
      | zero => exact .inl (observesAt_zero.mp ho)
      | succ n => exact .inr ⟨n, observesAt_succ.mp ho⟩

/-- What a call sees first, it sees at an earlier turn. -/
theorem exists_observesAt_of_sublist {o' : Observation}
    (h : [o, o'].Sublist (start.observations i turns)) :
    ∃ m n, m < n ∧ start.ObservesAt turns m i o ∧ start.ObservesAt turns n i o' := by
  induction turns generalizing start with
  | nil => cases h
  | cons x rest ih =>
    rw [observations] at h
    cases hx : start.observation? i x with
    | none =>
      rw [hx] at h
      obtain ⟨m, n, hmn, hm, hn⟩ := ih h
      exact ⟨m + 1, n + 1, by omega, observesAt_succ.mpr hm, observesAt_succ.mpr hn⟩
    | some seen =>
      rw [hx] at h
      cases h with
      | cons _ h =>
        obtain ⟨m, n, hmn, hm, hn⟩ := ih h
        exact ⟨m + 1, n + 1, by omega, observesAt_succ.mpr hm, observesAt_succ.mpr hn⟩
      | cons_cons _ h =>
        obtain ⟨n, hn⟩ := mem_observations_iff.mp (List.singleton_sublist.mp h)
        exact ⟨0, n + 1, by omega, observesAt_zero.mpr hx, observesAt_succ.mpr hn⟩

theorem ObservesAt.lt (h : start.ObservesAt turns n i o) : n < turns.length := by
  obtain ⟨x, hx, -⟩ := h
  exact (List.getElem?_eq_some_iff.mp hx).1

/-- What is seen in the course of the first turns is seen then in the course of all. -/
theorem ObservesAt.of_take {k : Nat} (h : start.ObservesAt (turns.take k) n i o) :
    n < k ∧ start.ObservesAt turns n i o := by
  have hn : n < k := by
    have := h.lt
    rw [List.length_take] at this
    omega
  obtain ⟨x, hx, ho⟩ := h
  rw [List.getElem?_take_of_lt hn] at hx
  refine ⟨hn, x, hx, ?_⟩
  rwa [before, List.take_take, min_eq_left (Nat.le_of_lt hn)] at ho

/-- What is seen is what the call's step shows. -/
theorem ObservesAt.stepsAt (h : start.ObservesAt turns n i o) :
    turns[n]? = some (.thread i) ∧ (start.before turns n).observation? i (.thread i) = some o := by
  obtain ⟨x, hx, ho⟩ := h
  have hi : x = .thread i := by
    by_contra hne
    rw [observation?, if_neg hne] at ho
    cases ho
  subst hi
  exact ⟨hx, ho⟩

theorem ObservesAt.readsAt {now : Instant} (h : start.ObservesAt turns n i (.reading now)) :
    start.ReadsAt turns n i now := by
  obtain ⟨hi, ho⟩ := h.stepsAt
  rw [observation?, if_pos rfl] at ho
  cases hc : ((start.before turns n).threads i).call with
  | readClock next =>
    rw [hc] at ho
    cases ho
    exact ⟨⟨next, hi, hc⟩, rfl⟩
  | done => rw [hc] at ho; cases ho
  | record => rw [hc] at ho; cases ho
  | ask => rw [hc] at ho; cases ho

theorem ObservesAt.asks {request : Request} {answer : request.Answer}
    (h : start.ObservesAt turns n i (.answer request answer)) :
    (∃ next, start.StepsAt turns n i (.ask request next)) ∧
      (request.perform (start.before turns n).session.dialect
        (start.before turns n).session.tables).1 = answer := by
  obtain ⟨hi, ho⟩ := h.stepsAt
  rw [observation?, if_pos rfl] at ho
  cases hc : ((start.before turns n).threads i).call with
  | ask request next =>
    rw [hc] at ho
    cases ho
    exact ⟨⟨next, hi, hc⟩, rfl⟩
  | done => rw [hc] at ho; cases ho
  | readClock => rw [hc] at ho; cases ho
  | record => rw [hc] at ho; cases ho

theorem StepsAt.observesAt {request : Request} {next : request.Answer → Call Reply}
    (h : start.StepsAt turns n i (.ask request next)) :
    start.ObservesAt turns n i (.answer request
      (request.perform (start.before turns n).session.dialect
        (start.before turns n).session.tables).1) := by
  obtain ⟨hi, hc⟩ := h
  refine ⟨_, hi, ?_⟩
  rw [observation?, if_pos rfl, hc]

/-- A lease is written where the call is told so. -/
theorem writesAt_iff {r : Reservation} {now : Instant} :
    start.WritesAt turns n i r now ↔
      start.ObservesAt turns n i (.answer (.createOrUpdate r now) (.ok ())) := by
  constructor
  · rintro ⟨⟨next, hstep⟩, t, hwrite⟩
    have := hstep.observesAt
    rwa [Request.perform_createOrUpdate, hwrite] at this
  · intro h
    obtain ⟨hstep, hanswer⟩ := h.asks
    refine ⟨hstep, ?_⟩
    rw [Request.perform_createOrUpdate] at hanswer
    cases hwrite : Leases.createOrUpdate (start.before turns n).session.dialect
        (start.before turns n).session.tables r now with
    | ok t => exact ⟨t, rfl⟩
    | error e =>
      rw [hwrite] at hanswer
      cases hanswer

end ObservesAt

/-! ## Calls that serve operations -/

section Operations

variable {s : Session} {operations : Nat → Nat × Operation} {turns : List Turn} {n i : Nat}

theorem reaches_before (s : Session) (operations : Nat → Nat × Operation) (turns : List Turn)
    (n i : Nat) :
    ((operations i).2.call (s.managers (operations i).1).timing).Reaches
      ((start s operations).observations i (turns.take n))
      (((start s operations).before turns n).threads i).call :=
  (start s operations).reaches_run i (turns.take n)

/-- A call asks only what its operation may ask, and writes only at an instant that it has read. -/
theorem StepsAt.mayAsk {request : Request} {next : request.Answer → Call Reply}
    (h : (start s operations).StepsAt turns n i (.ask request next)) :
    ∃ reading,
      (operations i).2.MayAsk (s.managers (operations i).1).timing reading request ∧
      ∀ t, reading = some t → ∃ k < n, (start s operations).ReadsAt turns k i t := by
  obtain ⟨reading, obeys, hread⟩ :=
    ((operations i).2.call_obeys _).of_reaches (reaches_before s operations turns n i)
  rw [h.2] at obeys
  refine ⟨reading, obeys.1, fun t ht => ?_⟩
  obtain ⟨k, hk⟩ := mem_observations_iff.mp (hread t ht)
  obtain ⟨hkn, hk⟩ := hk.of_take
  exact ⟨k, hkn, hk.readsAt⟩

/-- A call that asks anything has a caller who supplies what is sound. -/
theorem StepsAt.valid {request : Request} {next : request.Answer → Call Reply}
    (h : (start s operations).StepsAt turns n i (.ask request next)) :
    (operations i).2.validate = .ok () := by
  cases hv : (operations i).2.validate with
  | ok => rfl
  | error e =>
    have reaches := reaches_before s operations turns n i
    rw [Operation.call_of_invalid hv, h.2] at reaches
    exact nomatch reaches.eq_done

/-- Only the call of a caller who releases a key removes its row. -/
theorem ReleasesAt.operation_eq {key : Key} (h : (start s operations).ReleasesAt turns n i key) :
    (operations i).2 = .release key := by
  obtain ⟨⟨next, hstep⟩, -⟩ := h
  obtain ⟨reading, released, -⟩ := hstep.mayAsk
  exact released

end Operations

/-! ## What a turn does to the row of a key -/

section Rows

variable {s : Session} {operations : Nat → Nat × Operation} {turns : List Turn} {n i : Nat}

/-- After the turn of a call that asks something the tables are as the request leaves them. -/
theorem StepsAt.tables_succ {request : Request} {next : request.Answer → Call Reply}
    (h : (start s operations).StepsAt turns n i (.ask request next)) :
    ((start s operations).before turns (n + 1)).session.tables =
      (request.perform ((start s operations).before turns n).session.dialect
        ((start s operations).before turns n).session.tables).2 := by
  rw [before_succ h.1]
  change (stepThread _ i).session.tables = _
  rw [stepThread_ask h.2]

/-- A write leaves the row of its lease. -/
theorem WritesAt.row?_succ {r : Reservation} {now : Instant}
    (h : (start s operations).WritesAt turns n i r now) :
    ∃ row, ((start s operations).before turns (n + 1)).session.tables.row? r.key = some row ∧
      row.owner = r.owner ∧ row.expiresAt = Timestamp.text r.expiresAt ∧
      row.updatedAt = Timestamp.text r.updatedAt := by
  obtain ⟨⟨next, hstep⟩, t, hwrite⟩ := h
  have tables := hstep.tables_succ
  rw [Request.perform_createOrUpdate, hwrite] at tables
  rw [tables]
  exact Leases.createOrUpdate_row? hwrite

/-- The step of a call changes the tables only if it writes a lease or releases a key. -/
theorem tables_before_succ (hi : turns[n]? = some (.thread i)) :
    (∃ r now, (start s operations).WritesAt turns n i r now) ∨
    (∃ key, (start s operations).ReleasesAt turns n i key) ∨
    ((start s operations).before turns (n + 1)).session.tables =
      ((start s operations).before turns n).session.tables := by
  have step : (start s operations).before turns (n + 1) = stepThread _ i := before_succ hi
  cases hc : (((start s operations).before turns n).threads i).call with
  | done result =>
    rw [step, stepThread_done hc]
    exact .inr (.inr rfl)
  | readClock next =>
    rw [step, stepThread_readClock hc, advance_session]
    exact .inr (.inr rfl)
  | record event next =>
    rw [step, stepThread_record hc]
    exact .inr (.inr rfl)
  | ask request next =>
    have hstep : (start s operations).StepsAt turns n i (.ask request next) := ⟨hi, hc⟩
    obtain ⟨reading, may, -⟩ := hstep.mayAsk
    have tables := hstep.tables_succ
    cases request with
    | getTag => exact .inr (.inr tables)
    | get => exact .inr (.inr tables)
    | createOrUpdate r now =>
      rw [Request.perform_createOrUpdate] at tables
      cases hwrite : Leases.createOrUpdate ((start s operations).before turns n).session.dialect
          ((start s operations).before turns n).session.tables r now with
      | ok t => exact .inl ⟨r, now, ⟨next, hstep⟩, t, hwrite⟩
      | error e =>
        rw [hwrite] at tables
        exact .inr (.inr tables)
    | delete key =>
      rw [Request.perform_delete] at tables
      cases hdelete : Leases.delete ((start s operations).before turns n).session.dialect
          ((start s operations).before turns n).session.tables key with
      | ok t => exact .inr (.inl ⟨key, ⟨next, hstep⟩, t, hdelete⟩)
      | error e =>
        rw [hdelete] at tables
        exact .inr (.inr tables)
    | createArtifact => exact may.elim
    | addTag => exact may.elim
    | create => exact may.elim
    | update => exact may.elim

/-- What a turn does to the row of a key: it writes a lease of the key, or releases the key, or
leaves the row. -/
theorem row?_before_succ {x : Turn} (hx : turns[n]? = some x) (leaves : x.leavesLeases = true)
    (key : Key) :
    (∃ i r now, (start s operations).WritesAt turns n i r now ∧ r.key = key) ∨
    (∃ i, (start s operations).ReleasesAt turns n i key ∧
      ((start s operations).before turns (n + 1)).session.tables.row? key = none) ∨
    ((start s operations).before turns (n + 1)).session.tables.row? key =
      ((start s operations).before turns n).session.tables.row? key := by
  cases x with
  | step x =>
    right; right
    rw [before_succ hx]
    cases x with
    | serve => cases leaves
    | ask request =>
      refine Request.perform_row? _ _ fun hr => ?_
      change request.writtenKey?.isNone = true at leaves
      rw [hr] at leaves
      cases leaves
    | move => rfl
    | initialise => exact Tables.row?_create _ key
  | thread i =>
    rcases tables_before_succ hx with ⟨r, now, hwrite⟩ | ⟨released, hrelease⟩ | same
    · by_cases hk : r.key = key
      · exact .inl ⟨i, r, now, hwrite, hk⟩
      · obtain ⟨⟨next, hstep⟩, -⟩ := hwrite
        right; right
        rw [hstep.tables_succ]
        exact Request.perform_row? _ _ fun hr => hk (Option.some.inj hr)
    · obtain ⟨⟨next, hstep⟩, t, hdelete⟩ := id hrelease
      have tables := hstep.tables_succ
      rw [Request.perform_delete, hdelete] at tables
      have row := Leases.delete_row? hdelete key
      rw [← show _ = t from tables] at row
      by_cases hk : key = released
      · subst hk
        rw [if_pos rfl] at row
        exact .inr (.inl ⟨i, hrelease, row⟩)
      · rw [if_neg hk] at row
        exact .inr (.inr row)
    · rw [same]
      exact .inr (.inr rfl)

/-- What holds of all rows at the start, and of each row that is written, holds of all rows whenever
a turn comes. -/
theorem rows_induction {P : ReservationRow → Prop} (leaves : ∀ x ∈ turns, x.leavesLeases = true)
    (first : ∀ key row, s.tables.row? key = some row → P row)
    (written : ∀ n i r now, (start s operations).WritesAt turns n i r now → ∀ row,
      ((start s operations).before turns (n + 1)).session.tables.row? r.key = some row → P row) :
    ∀ n ≤ turns.length, ∀ key row,
      ((start s operations).before turns n).session.tables.row? key = some row → P row := by
  intro n
  induction n with
  | zero => exact fun _ => first
  | succ n ih =>
    intro hn key row hrow
    have hx : turns[n]? = some turns[n] := List.getElem?_eq_getElem hn
    rcases row?_before_succ hx (leaves _ (List.getElem_mem hn)) key with
      ⟨i, r, now, hwrite, rfl⟩ | ⟨i, -, free⟩ | same
    · exact written n i r now hwrite row hrow
    · rw [free] at hrow
      cases hrow
    · rw [same] at hrow
      exact ih (Nat.le_of_succ_le hn) key row hrow

end Rows

end Traffic

end LeaseCatalog
