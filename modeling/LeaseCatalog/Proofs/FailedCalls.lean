import LeaseCatalog.Proofs.Courses

/-!
# Calls that fail

A call that ends with an error has changed nothing, whatever the tables hold, and also where some of
them are missing. For a request this is so because it comes to one statement: a statement that
fails writes nothing, and neither does one that is carried out and then held to be refused
(`Request.perform_tables`). For a call it is so because each of its courses that ends with an error
does so before the store has accepted a write, and no course asks for a write after an accepted one
(`Operation.Course.refused`).
-/

namespace LeaseCatalog

/-! ## What statements write -/

section Statements

variable {t t' : Tables}

/-- An upsert that writes no row leaves the reservations. -/
theorem Tables.eq_of_upsertReservation_refused {row : ReservationRow} {now : String}
    (h : t.upsertReservation row now = .ok (false, t')) : t' = t := by
  unfold Tables.upsertReservation at h
  obtain ⟨rows, -, h⟩ := bind_eq_ok h
  split at h
  · cases h
  · split_ifs at h
    · cases h
    · cases h
      rfl

/-- An upsert that writes no row leaves the tags. -/
theorem Tables.eq_of_upsertTag_refused {row : TagRow}
    (h : t.upsertTag row = .ok (false, t')) : t' = t := by
  unfold Tables.upsertTag at h
  obtain ⟨tags, -, h⟩ := bind_eq_ok h
  obtain ⟨artifacts, -, h⟩ := bind_eq_ok h
  split_ifs at h
  · cases h
    rfl
  · cases h
  · cases h

end Statements

/-- The tables after a statement on what was prepared for it. They are as they were if there is
nothing prepared, or if the statement fails. -/
def Tables.after {ρ : Type} (t : Tables) (prepared : Except Error ρ)
    (statement : ρ → Except Failure Tables) : Tables :=
  match prepared with
  | .error _ => t
  | .ok row =>
    match statement row with
    | .ok changed => changed
    | .error _ => t

/-- The tables as the statement of a request leaves them, whatever is then made of what the
statement gave. -/
def Request.leaves (t : Tables) : Request → Tables
  | .getTag _ | .get _ => t
  | .createArtifact a => t.after (Tags.artifactRow a) fun row => t.insertArtifact row
  | .addTag key id now =>
    t.after (Tags.tagRow key id now) fun row => (t.upsertTag row).map Prod.snd
  | .create r => t.after r.toRow fun row => t.insertReservation row
  | .update u =>
    t.after u.texts fun (expiresAt, updatedAt, expected) =>
      (t.updateReservation u.key u.owner expiresAt updatedAt expected).map Prod.snd
  | .createOrUpdate r now =>
    t.after (Leases.rowAt r now) fun (row, now) => (t.upsertReservation row now).map Prod.snd
  | .delete key => t.after (.ok ()) fun _ => t.deleteReservation key

namespace Request

variable (d : Dialect) (t : Tables)

section Changing

variable {ρ : Type} (prepared : Except Error ρ)

theorem changing_statement (statement : ρ → Except Failure Tables) :
    (changing t (prepared >>= fun row => d.executed (statement row))).2 =
      t.after prepared statement := by
  cases prepared with
  | error e => rfl
  | ok row =>
    rw [ok_bind]
    unfold Tables.after
    dsimp only
    cases statement row with
    | error failure => rfl
    | ok changed => rfl

/-- A statement that is held to be refused where it wrote no row. -/
theorem changing_upsert (statement : ρ → Except Failure (Bool × Tables)) (refusal : Error)
    (unwritten : ∀ row t', statement row = .ok (false, t') → t' = t) :
    (changing t (prepared >>= fun row => d.executed (statement row) >>= fun given =>
        if given.1 then .ok given.2 else .error refusal)).2 =
      t.after prepared fun row => (statement row).map Prod.snd := by
  cases prepared with
  | error e => rfl
  | ok row =>
    rw [ok_bind]
    unfold Tables.after
    dsimp only
    cases h : statement row with
    | error failure => rfl
    | ok given =>
      obtain ⟨written, t'⟩ := given
      cases written with
      | true => rfl
      | false => exact (unwritten row t' h).symm

end Changing

/-- The tables that a request leaves are those of its statement: nothing that a statement wrote is
taken back. -/
theorem perform_tables (r : Request) : (r.perform d t).2 = r.leaves t := by
  cases r with
  | getTag | get => rfl
  | createArtifact a => exact changing_statement d t (Tags.artifactRow a) _
  | addTag key id now =>
    exact changing_upsert d t (Tags.tagRow key id now) (fun row => t.upsertTag row) _
      fun _ _ => Tables.eq_of_upsertTag_refused
  | create r => exact changing_statement d t r.toRow _
  | update u =>
    rw [perform_update]
    change _ = t.after u.texts _
    unfold Leases.update Tables.after
    cases u.texts with
    | error e => rfl
    | ok texts =>
      obtain ⟨expiresAt, updatedAt, expected⟩ := texts
      rw [ok_bind]
      dsimp only
      cases t.updateReservation u.key u.owner expiresAt updatedAt expected with
      | error failure => rfl
      | ok given => rfl
  | createOrUpdate r now =>
    exact changing_upsert d t (Leases.rowAt r now)
      (fun texts => t.upsertReservation texts.1 texts.2) _
      fun _ _ => Tables.eq_of_upsertReservation_refused
  | delete key => exact changing_statement d t (.ok ()) fun _ => t.deleteReservation key

theorem changing_error {x : Except Error Tables} {e : Error}
    (h : (changing t x).1 = .error e) : (changing t x).2 = t := by
  cases x with
  | ok changed => cases h
  | error e => rfl

/-- A request that fails changes nothing. -/
theorem perform_error {r : Request} {e : Error} (h : (r.perform d t).1 = .error e) :
    (r.perform d t).2 = t := by
  cases r with
  | getTag | get => rfl
  | createArtifact | addTag | create | createOrUpdate | delete => exact changing_error t h
  | update u =>
    rw [perform_update] at h ⊢
    cases hu : Leases.update d t u with
    | error e => rfl
    | ok result =>
      rw [hu] at h
      cases h

end Request

/-! ## Accepted writes -/

/-- Whether a store has done what it was asked to write. -/
def Observation.isAcceptedWrite : Observation → Bool
  | .answer request given => request.writes && given.isOk
  | .reading _ | .counting _ => false

theorem isOk_error {β : Type} (e : Error) : (Except.error e : Except Error β).isOk = false := rfl

/-- A request that is none to write, or that the store does not accept, changes nothing. -/
theorem Request.perform_unaccepted (d : Dialect) (t : Tables) {r : Request}
    (h : (Observation.answer r (r.perform d t).1).isAcceptedWrite = false) :
    (r.perform d t).2 = t := by
  cases hr : (r.perform d t).1 with
  | error e => exact perform_error d t hr
  | ok value =>
    rw [hr] at h
    cases r with
    | getTag | get => rfl
    | createArtifact | addTag | create | update | createOrUpdate | delete => cases h

section Refused

variable {timing : LeaseTiming} {e : Error}

/-- Contending that ends with an error has not written. -/
theorem Claim.Course.refused {α : Type} {c : Claim} {failure : Event} {give : Attempt → α}
    {way : List Observation} {result : Except Error α}
    (course : c.Course timing failure give way result) (h : result = .error e) :
    ∀ o ∈ way, o.isAcceptedWrite = false := by
  cases course with
  | held | won | lost | vanished => cases h
  | unread | leaseless | unwritten | blinded =>
    simp [Observation.isAcceptedWrite, Request.writes, isOk_error]

/-- A call that ends with an error has not written. -/
theorem Operation.Course.refused {operation : Operation} {seen : List Observation}
    {result : Except Error Reply}
    (course : operation.Course timing seen result) (h : result = .error e) :
    ∀ o ∈ seen, o.isAcceptedWrite = false := by
  cases course with
  | resolved | released | shown | free => cases h
  | invalid | unresolved | unreleased | unseen =>
    simp [Observation.isAcceptedWrite, Request.writes, isOk_error]
  | reserving valid notFound course =>
    exact List.forall_mem_cons.mpr ⟨rfl, course.refused h⟩
  | extending valid course => exact course.refused h

end Refused

/-- A call leaves the tables as they are if all that it asked to write was refused. -/
theorem Call.run_refused {α : Type} (d : Dialect) (now : Instant) (call : Call α) (t : Tables)
    (counters : Counters)
    (refused : ∀ o ∈ call.exchanges (.ofTables d) now t, o.isAcceptedWrite = false) :
    (call.run (.ofTables d) now t counters).state = t := by
  induction call generalizing t counters with
  | done result => rfl
  | readClock next ih => exact ih now t counters refused
  | record event next ih =>
    rw [exchanges_record] at refused
    exact ih t _ refused
  | ask request next ih =>
    rw [exchanges_ask, List.forall_mem_cons] at refused
    obtain ⟨unaccepted, refused⟩ := refused
    have same : (Stores.ofTables d request t).2 = t := Request.perform_unaccepted d t unaccepted
    change (Call.run _ now (next _) (Stores.ofTables d request t).2 counters).state = t
    -- What is asked later is asked of the same tables, so the hypothesis speaks of these too.
    rw [same] at refused ⊢
    exact ih _ t counters refused

/-- Whatever the tables hold, which of them are missing, and whatever the make of the database, the
timing, the clock and the arguments are: a call that ends with an error leaves all tables as they
were, and so does a request to the stores. It is not that something was taken back: the tables that
a request leaves are always those that its statement left. -/
theorem failed_calls_change_nothing (d : Dialect) (t : Tables) :
    (∀ (timing : LeaseTiming) (operation : Operation) (now : Instant) (counters : Counters)
      (e : Error),
      ((operation.call timing).run (.ofTables d) now t counters).result = .error e →
        ((operation.call timing).run (.ofTables d) now t counters).state = t) ∧
    (∀ (request : Request) (e : Error),
      (request.perform d t).1 = .error e → (request.perform d t).2 = t) ∧
    ∀ request : Request, (request.perform d t).2 = request.leaves t := by
  refine ⟨?_, fun request e => Request.perform_error d t, Request.perform_tables d t⟩
  intro timing operation now counters e h
  obtain ⟨seen, sees⟩ :=
    (operation.call timing).exists_sees (.ofTables d) now t counters
  have refused := (Operation.course_of_reaches sees.reaches).refused h
  refine Call.run_refused d now _ t counters ?_
  rw [sees.exchanges]
  intro o ho
  exact refused o (List.mem_filter.mp ho).1

/-- Tables in which a key has a lease that has ended, but of which it cannot be read when the key was
reserved. -/
def damagedTables : Tables where
  reservations := some [⟨(Session.claimOf "first").key, "first", "1970-01-01T00:00:00.000000Z",
    "yesterday", "1970-01-01T00:00:00.000000Z", none⟩]
  artifacts := some []
  tags := some []

theorem damaged_tables_left :
    let reserving := ((Operation.reserve (Session.claimOf "second")).call .standard).run
      (.ofTables .sqlite) .epoch damagedTables .zero
    let tagging := (Request.addTag (Session.claimOf "second").key "result" .epoch).perform .sqlite
      damagedTables
    reserving.result = .error (.undecodable "created_at" .short) ∧
      reserving.state = damagedTables ∧
      tagging.1 = (.error (.artifactMissing "result" (Session.claimOf "second").key.dataset) :
        Except Error Unit) ∧
      tagging.2 = damagedTables := by
  obtain ⟨calls, requests, -⟩ := failed_calls_change_nothing .sqlite damagedTables
  exact ⟨rfl, calls .standard _ .epoch .zero _ rfl, rfl, requests _ _ rfl⟩

end LeaseCatalog
