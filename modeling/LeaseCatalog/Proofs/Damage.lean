import LeaseCatalog.Proofs.FailedCalls
import LeaseCatalog.Proofs.OpenKeys

/-!
# Damaged tables

Rows may have been edited into anything, and tables may be missing. Whoever asks for what cannot be
read there is given an error that says so, and never that nothing is there.

The kinds of errors that a request can be answered with are few (`Request.perform_failsIn`). Only a
row that is not there reads as `notFound`, and only a lease that another owner holds as
`leaseConflict`; each of the two kinds is taken for an outcome by the calls that can receive it, so
no call ends with either (`Operation.Course.failsIn`).
-/

namespace LeaseCatalog

/-! ## Kinds of failures -/

/-- A result that is no error of another kind than the given ones. -/
def FailsIn {α : Type} (kinds : List ErrorKind) (x : Except Error α) : Prop :=
  ∀ e, x = .error e → e.kind ∈ kinds

section FailsIn

variable {α β : Type} {kinds kinds' : List ErrorKind}

theorem failsIn_ok (kinds : List ErrorKind) (a : α) :
    FailsIn kinds (.ok a : Except Error α) := by
  intro e he
  cases he

theorem failsIn_error {e : Error} (h : e.kind ∈ kinds) :
    FailsIn kinds (.error e : Except Error α) := by
  intro e' he
  cases he
  exact h

theorem FailsIn.mono {x : Except Error α} (h : FailsIn kinds x) (sub : kinds ⊆ kinds') :
    FailsIn kinds' x := fun e he => sub (h e he)

theorem FailsIn.bind {x : Except Error α} {f : α → Except Error β} (h : FailsIn kinds x)
    (next : ∀ a, FailsIn kinds (f a)) : FailsIn kinds (x >>= f) := by
  cases x with
  | error e => exact failsIn_error (h e rfl)
  | ok a => exact next a

end FailsIn

section Parts

variable (d : Dialect) (t : Tables)

theorem storedText_failsIn (x : Instant) : FailsIn [.invalidArgument] (storedText x) := by
  rw [storedText_eq]
  split_ifs
  · exact failsIn_ok _ _
  · exact failsIn_error (List.mem_singleton.mpr rfl)

theorem storedInstant_failsIn (column text : String) :
    FailsIn [.internal] (storedInstant column text) := by
  unfold storedInstant
  split
  · exact failsIn_ok _ _
  · exact failsIn_error (List.mem_singleton.mpr rfl)

theorem Key.validate_failsIn (key : Key) : FailsIn [.invalidArgument] key.validate := by
  unfold Key.validate
  split
  · exact failsIn_error (List.mem_singleton.mpr rfl)
  · exact failsIn_ok _ _

theorem Dataset.validate_failsIn (dataset : Dataset) :
    FailsIn [.invalidArgument] dataset.validate := by
  unfold Dataset.validate
  split
  · exact failsIn_error (List.mem_singleton.mpr rfl)
  · exact failsIn_ok _ _

theorem validateOwner_failsIn (owner : String) :
    FailsIn [.invalidArgument] (validateOwner owner) := by
  unfold validateOwner
  split
  · exact failsIn_error (List.mem_singleton.mpr rfl)
  · exact failsIn_ok _ _

/-- In no dialect does a missing table read as a missing row or a conflict. -/
theorem Dialect.translate_noSuchTable_kind (name : String) :
    (d.translate (.noSuchTable name)).kind ∈ [ErrorKind.internal, .unknown] := by
  cases d with
  | sqlite | postgres => exact List.mem_cons_of_mem _ (List.mem_singleton.mpr rfl)
  | generic => exact List.mem_cons_self

/-- A statement on a table that may be missing. -/
theorem Dialect.executed_rows_failsIn {ρ α : Type} {kinds : List ErrorKind} (name : String)
    (table : Option (List ρ)) {f : List ρ → Except Failure α}
    (missing : [ErrorKind.internal, .unknown] ⊆ kinds)
    (next : ∀ rows, FailsIn kinds (d.executed (f rows))) :
    FailsIn kinds (d.executed (Tables.rows name table >>= f)) := by
  cases table with
  | none => exact failsIn_error (missing (d.translate_noSuchTable_kind name))
  | some rows => exact next rows

end Parts

section Stores

variable (d : Dialect) (t : Tables)

theorem Reservation.toRow_failsIn (r : Reservation) : FailsIn [.invalidArgument] r.toRow := by
  refine (storedText_failsIn _).bind fun expiresAt => ?_
  refine (storedText_failsIn _).bind fun createdAt => ?_
  exact (storedText_failsIn _).bind fun updatedAt => failsIn_ok _ _

theorem Leases.rowAt_failsIn (r : Reservation) (now : Instant) :
    FailsIn [.invalidArgument] (Leases.rowAt r now) := by
  refine (Reservation.toRow_failsIn r).bind fun row => ?_
  exact (storedText_failsIn now).bind fun text => failsIn_ok _ _

theorem Leases.Update.texts_failsIn (u : Leases.Update) : FailsIn [.invalidArgument] u.texts := by
  refine (storedText_failsIn _).bind fun expiresAt => ?_
  refine (storedText_failsIn _).bind fun updatedAt => ?_
  exact (storedText_failsIn _).bind fun expected => failsIn_ok _ _

theorem Reservation.ofRow_failsIn (row : ReservationRow) :
    FailsIn [.internal] (Reservation.ofRow row) := by
  refine (storedInstant_failsIn _ _).bind fun expiresAt => ?_
  refine (storedInstant_failsIn _ _).bind fun createdAt => ?_
  exact (storedInstant_failsIn _ _).bind fun updatedAt => failsIn_ok _ _

theorem Leases.get_failsIn (key : Key) :
    FailsIn [.notFound, .internal, .unknown] (Leases.get d t key) := by
  refine FailsIn.bind ?_ fun row => (Reservation.ofRow_failsIn row).mono (by decide)
  refine d.executed_rows_failsIn _ _ (by decide) fun rows => ?_
  cases rows.find? (·.key == key) with
  | none =>
    refine failsIn_error ?_
    rw [Dialect.translate_rowNotFound]
    exact List.mem_cons_self
  | some row => exact failsIn_ok _ _

theorem Leases.create_failsIn (r : Reservation) :
    FailsIn [.invalidArgument, .leaseConflict, .internal, .unknown] (Leases.create d t r) := by
  refine ((Reservation.toRow_failsIn r).mono (by decide)).bind fun row => ?_
  refine d.executed_rows_failsIn _ _ (by decide) fun rows => ?_
  split_ifs
  · refine failsIn_error ?_
    cases d with
    | sqlite | postgres | generic => decide
  · exact failsIn_ok _ _

theorem Leases.createOrUpdate_failsIn (r : Reservation) (now : Instant) :
    FailsIn [.invalidArgument, .leaseConflict, .internal, .unknown]
      (Leases.createOrUpdate d t r now) := by
  refine ((Leases.rowAt_failsIn r now).mono (by decide)).bind fun ⟨row, text⟩ => ?_
  refine FailsIn.bind ?_ fun ⟨written, t'⟩ => ?_
  · refine d.executed_rows_failsIn _ _ (by decide) fun rows => ?_
    split
    · exact failsIn_ok _ _
    · split_ifs
      · exact failsIn_ok _ _
      · exact failsIn_ok _ _
  · dsimp only
    split_ifs
    · exact failsIn_ok _ _
    · exact failsIn_error (List.mem_cons_of_mem _ List.mem_cons_self)

theorem Leases.update_failsIn (u : Leases.Update) :
    FailsIn [.invalidArgument, .internal, .unknown] (Leases.update d t u) := by
  refine ((Leases.Update.texts_failsIn u).mono (by decide)).bind fun texts => ?_
  exact d.executed_rows_failsIn _ _ (by decide) fun rows => failsIn_ok _ _

theorem Leases.delete_failsIn (key : Key) :
    FailsIn [.internal, .unknown] (Leases.delete d t key) :=
  d.executed_rows_failsIn _ _ (by decide) fun _ => failsIn_ok _ _

theorem Tags.artifactRow_failsIn (a : Artifact) :
    FailsIn [.invalidArgument] (Tags.artifactRow a) := by
  refine (Dataset.validate_failsIn _).bind fun _ => ?_
  split_ifs
  · exact failsIn_error (List.mem_singleton.mpr rfl)
  · exact (storedText_failsIn _).bind fun createdAt => failsIn_ok _ _

theorem Tags.tagRow_failsIn (key : Key) (id : String) (now : Instant) :
    FailsIn [.invalidArgument] (Tags.tagRow key id now) := by
  refine (Key.validate_failsIn key).bind fun _ => ?_
  exact (storedText_failsIn now).bind fun createdAt => failsIn_ok _ _

theorem Tags.createArtifact_failsIn (a : Artifact) :
    FailsIn [.invalidArgument, .internal, .unknown] (Tags.createArtifact d t a) := by
  refine ((Tags.artifactRow_failsIn a).mono (by decide)).bind fun row => ?_
  refine d.executed_rows_failsIn _ _ (by decide) fun rows => ?_
  split_ifs
  · exact failsIn_ok _ _
  · exact failsIn_ok _ _

theorem Tags.add_failsIn (key : Key) (id : String) (now : Instant) :
    FailsIn [.invalidArgument, .notFound, .internal, .unknown] (Tags.add d t key id now) := by
  refine ((Tags.tagRow_failsIn key id now).mono (by decide)).bind fun row => ?_
  refine FailsIn.bind ?_ fun ⟨written, t'⟩ => ?_
  · refine d.executed_rows_failsIn _ _ (by decide) fun tags => ?_
    refine d.executed_rows_failsIn _ _ (by decide) fun artifacts => ?_
    split_ifs
    · exact failsIn_ok _ _
    · exact failsIn_ok _ _
    · exact failsIn_ok _ _
  · dsimp only
    split_ifs
    · exact failsIn_ok _ _
    · exact failsIn_error (List.mem_cons_of_mem _ List.mem_cons_self)

theorem Tags.get_failsIn (key : Key) :
    FailsIn [.notFound, .internal, .unknown] (Tags.get d t key) := by
  refine FailsIn.bind ?_ fun ⟨tag, artifact⟩ => ?_
  · refine d.executed_rows_failsIn _ _ (by decide) fun tags => ?_
    refine d.executed_rows_failsIn _ _ (by decide) fun artifacts => ?_
    have missing : FailsIn [.notFound, .internal, .unknown]
        (d.executed (.error .rowNotFound : Except Failure (TagRow × ArtifactRow))) := by
      refine failsIn_error ?_
      rw [Dialect.translate_rowNotFound]
      exact List.mem_cons_self
    split
    · exact missing
    · split
      · exact failsIn_ok _ _
      · exact missing
  · refine ((storedInstant_failsIn _ _).mono (by decide)).bind fun artifactCreatedAt => ?_
    exact ((storedInstant_failsIn _ _).mono (by decide)).bind fun createdAt => failsIn_ok _ _

end Stores

namespace Request

/-- The kinds of errors that a request can be answered with. -/
def failureKinds : Request → List ErrorKind
  | .getTag _ | .get _ => [.notFound, .internal, .unknown]
  | .createArtifact _ | .update _ => [.invalidArgument, .internal, .unknown]
  | .addTag _ _ _ => [.invalidArgument, .notFound, .internal, .unknown]
  | .create _ | .createOrUpdate _ _ => [.invalidArgument, .leaseConflict, .internal, .unknown]
  | .delete _ => [.internal, .unknown]

theorem changing_failsIn {kinds : List ErrorKind} {t : Tables} {x : Except Error Tables}
    (h : FailsIn kinds x) : FailsIn kinds (changing t x).1 := by
  cases x with
  | ok changed => exact failsIn_ok _ _
  | error e => exact failsIn_error (h e rfl)

/-- Whatever the tables hold, and whichever are missing, a request is answered with an error of one
of its kinds if with any. -/
theorem perform_failsIn (d : Dialect) (t : Tables) (r : Request) :
    FailsIn r.failureKinds (r.perform d t).1 := by
  cases r with
  | getTag key => exact Tags.get_failsIn d t key
  | get key => exact Leases.get_failsIn d t key
  | createArtifact a => exact changing_failsIn (Tags.createArtifact_failsIn d t a)
  | addTag key id now => exact changing_failsIn (Tags.add_failsIn d t key id now)
  | create r => exact changing_failsIn (Leases.create_failsIn d t r)
  | createOrUpdate r now => exact changing_failsIn (Leases.createOrUpdate_failsIn d t r now)
  | delete key => exact changing_failsIn (Leases.delete_failsIn d t key)
  | update u =>
    have fails := Leases.update_failsIn d t u
    rw [perform_update]
    cases hu : Leases.update d t u with
    | ok result => exact failsIn_ok _ _
    | error e => exact failsIn_error (fails e hu)

end Request

/-! ## Calls that fail -/

/-- What is seen where requests are answered with errors of their kinds only. -/
def Observation.Fitting : Observation → Prop
  | .answer request given => FailsIn request.failureKinds given
  | .reading _ | .counting _ => True

theorem Call.exchanges_fitting {α : Type} (d : Dialect) (now : Instant) (call : Call α)
    (t : Tables) : ∀ o ∈ call.exchanges (.ofTables d) now t, o.Fitting := by
  induction call generalizing t with
  | done result => exact fun o ho => nomatch ho
  | readClock next ih => exact ih now t
  | record event next ih =>
    rw [exchanges_record]
    exact ih t
  | ask request next ih =>
    rw [exchanges_ask, List.forall_mem_cons]
    exact ⟨request.perform_failsIn d t, ih _ _⟩

/-- The kinds of errors with which a call can end. -/
def Operation.failureKinds : List ErrorKind :=
  [.invalidArgument, .invalidConfig, .internal, .unknown]

theorem Claim.lease?_failsIn (c : Claim) (timing : LeaseTiming) (now : Instant) :
    FailsIn [.invalidConfig, .internal] (c.lease? timing now) := by
  intro e he
  obtain ttl | ⟨seconds, -, -, rfl⟩ := Claim.lease?_eq_error_iff.mp he
  · unfold LeaseTiming.ttl? at ttl
    dsimp only at ttl
    split_ifs at ttl
    cases ttl
    exact List.mem_cons_self
  · exact List.mem_cons_of_mem _ (List.mem_singleton.mpr rfl)

theorem Operation.validate_failsIn (operation : Operation) :
    FailsIn [.invalidArgument] operation.validate := by
  cases operation with
  | reserve c | extend c =>
    exact (Key.validate_failsIn c.key).bind fun _ => validateOwner_failsIn c.owner
  | release key | get key => exact Key.validate_failsIn key

/-- A look that fails, other than by finding nothing, fails the call. -/
theorem Error.kind_of_look {e : Error} (h : e.kind ∈ [ErrorKind.notFound, .internal, .unknown])
    (fails : e.isNotFound = false) : e.kind ∈ Operation.failureKinds := by
  rcases List.mem_cons.mp h with notFound | failed
  · simp [Error.isNotFound, notFound] at fails
  · exact (show [ErrorKind.internal, .unknown] ⊆ Operation.failureKinds by decide) failed

/-- A write that fails, other than by losing, fails the call. -/
theorem Error.kind_of_write {e : Error}
    (h : e.kind ∈ [ErrorKind.invalidArgument, .leaseConflict, .internal, .unknown])
    (fails : e.isLeaseConflict = false) : e.kind ∈ Operation.failureKinds := by
  rcases List.mem_cons.mp h with invalid | h
  · rw [invalid]
    decide
  · rcases List.mem_cons.mp h with conflict | failed
    · simp [Error.isLeaseConflict, conflict] at fails
    · exact (show [ErrorKind.internal, .unknown] ⊆ Operation.failureKinds by decide) failed

section Courses

variable {timing : LeaseTiming}

theorem Claim.Course.failsIn {α : Type} {c : Claim} {failure : Event} {give : Attempt → α}
    {way : List Observation} {result : Except Error α}
    (course : c.Course timing failure give way result) (fitting : ∀ o ∈ way, o.Fitting) :
    FailsIn Operation.failureKinds result := by
  cases course with
  | held | won | lost | vanished => exact failsIn_ok _ _
  | @unread now e fails =>
    have kind := fitting (.answer (.get c.key) (.error e)) (by simp) e rfl
    exact failsIn_error (Error.kind_of_look kind fails)
  | leaseless may undefined =>
    exact failsIn_error ((c.lease?_failsIn timing _).mono (by decide) _ undefined)
  | @unwritten now look lease e may defined fails =>
    have kind := fitting (.answer (.createOrUpdate lease now) (.error e)) (by simp) e rfl
    exact failsIn_error (Error.kind_of_write kind fails)
  | @blinded now look lease conflict e may defined loses fails =>
    have kind := fitting (.answer (.get c.key) (.error e)) (by simp) e rfl
    exact failsIn_error (Error.kind_of_look kind fails)

theorem Operation.Course.failsIn {operation : Operation} {seen : List Observation}
    {result : Except Error Reply} (course : operation.Course timing seen result)
    (fitting : ∀ o ∈ seen, o.Fitting) : FailsIn Operation.failureKinds result := by
  cases course with
  | resolved | released | shown | free => exact failsIn_ok _ _
  | invalid fault =>
    exact failsIn_error (operation.validate_failsIn.mono (by decide) _ fault)
  | @unresolved c e valid fails =>
    have kind := fitting (.answer (.getTag c.key) (.error e)) (by simp) e rfl
    exact failsIn_error (Error.kind_of_look kind fails)
  | reserving valid notFound course =>
    exact course.failsIn (List.forall_mem_cons.mp fitting).2
  | extending valid course => exact course.failsIn fitting
  | @unreleased key e valid =>
    have fits := fitting (.answer (.delete key) (.error e)) (by simp)
    exact failsIn_error (fits.mono (show [ErrorKind.internal, .unknown] ⊆ _ by decide) e rfl)
  | @unseen key e valid fails =>
    have kind := fitting (.answer (.get key) (.error e)) (by simp) e rfl
    exact failsIn_error (Error.kind_of_look kind fails)

end Courses

theorem Operation.run_failsIn (operation : Operation) (timing : LeaseTiming) (d : Dialect)
    (t : Tables) (now : Instant) (counters : Counters) :
    FailsIn Operation.failureKinds
      ((operation.call timing).run (.ofTables d) now t counters).result := by
  -- A course speaks of all that was seen, the exchanges only of requests; the rest cannot fail.
  obtain ⟨seen, sees⟩ := (operation.call timing).exists_sees (.ofTables d) now t counters
  have asked := Call.exchanges_fitting d now (operation.call timing) t
  refine (Operation.course_of_reaches sees.reaches).failsIn fun o ho => ?_
  cases o with
  | reading | counting => trivial
  | answer request given =>
    refine asked _ ?_
    rw [sees.exchanges]
    exact List.mem_filter.mpr ⟨ho, rfl⟩

/-! ## What cannot be seen -/

/-- The instants of a row, as texts. -/
def ReservationRow.instants (row : ReservationRow) : List String :=
  [row.expiresAt, row.createdAt, row.updatedAt]

/-- What keeps it from being seen whether a key has a lease. -/
inductive Tables.Hides (t : Tables) (key : Key) : Prop where
  /-- The table of reservations is missing. -/
  | dropped (h : t.reservations = none)
  /-- The key has a row, and one of the texts in it is no instant. -/
  | undecodable {row : ReservationRow} {text : String} (found : t.row? key = some row)
      (column : text ∈ row.instants) (unread : ∀ x, Timestamp.decode text ≠ .ok x)

section Hides

variable {t : Tables} {key : Key}

theorem storedInstant_of_decode {column text : String} {x : Instant}
    (h : Timestamp.decode text = .ok x) : storedInstant column text = .ok x := by
  unfold storedInstant
  rw [h]

theorem Reservation.exists_ofRow_iff {row : ReservationRow} :
    (∃ r, Reservation.ofRow row = .ok r) ↔
      ∀ text ∈ row.instants, ∃ x, Timestamp.decode text = .ok x := by
  unfold ReservationRow.instants
  simp only [List.forall_mem_cons, List.not_mem_nil, false_implies, implies_true, and_true]
  constructor
  · rintro ⟨r, h⟩
    obtain ⟨expiresAt, expires, h⟩ := bind_eq_ok h
    obtain ⟨createdAt, created, h⟩ := bind_eq_ok h
    obtain ⟨updatedAt, updated, -⟩ := bind_eq_ok h
    exact ⟨⟨_, storedInstant_eq_ok expires⟩, ⟨_, storedInstant_eq_ok created⟩,
      ⟨_, storedInstant_eq_ok updated⟩⟩
  · rintro ⟨⟨expiresAt, expires⟩, ⟨createdAt, created⟩, ⟨updatedAt, updated⟩⟩
    unfold Reservation.ofRow
    rw [storedInstant_of_decode expires, ok_bind, storedInstant_of_decode created, ok_bind,
      storedInstant_of_decode updated, ok_bind]
    exact ⟨_, rfl⟩

/-- A key is free, or has a lease that can be seen, or it cannot be seen whether it has one. -/
theorem Tables.free_or_seen_or_hides (t : Tables) (key : Key) :
    t.Free key ∨ (∃ row r, t.row? key = some row ∧ Reservation.ofRow row = .ok r) ∨
      t.Hides key := by
  cases found : t.row? key with
  | none =>
    cases hrows : t.reservations with
    | none => exact .inr (.inr (.dropped hrows))
    | some rows =>
      rw [row?_of_rows hrows] at found
      exact .inl ⟨rows, hrows, by simpa using found⟩
  | some row =>
    right
    by_cases readable : ∃ r, Reservation.ofRow row = .ok r
    · obtain ⟨r, decoded⟩ := readable
      exact .inl ⟨row, r, rfl, decoded⟩
    · rw [Reservation.exists_ofRow_iff] at readable
      push Not at readable
      obtain ⟨text, column, unread⟩ := readable
      exact .inr (.undecodable found column unread)

/-- Where nothing can be seen, the store says so. -/
theorem Leases.get_of_hides (h : t.Hides key) (d : Dialect) :
    ∃ e, Leases.get d t key = .error e ∧ e.kind ∈ [ErrorKind.internal, .unknown] := by
  cases h with
  | dropped missing =>
    refine ⟨d.translate (.noSuchTable "reservations"), ?_, d.translate_noSuchTable_kind _⟩
    unfold Leases.get Tables.selectReservation
    rw [missing]
    rfl
  | undecodable found column unread =>
    rw [Leases.get_of_row? found]
    cases decoded : Reservation.ofRow _ with
    | ok r =>
      obtain ⟨x, hx⟩ := Reservation.exists_ofRow_iff.mp ⟨r, decoded⟩ _ column
      exact absurd hx (unread x)
    | error e =>
      exact ⟨e, rfl, List.mem_cons.mpr (.inl (List.mem_singleton.mp
        (Reservation.ofRow_failsIn _ e decoded)))⟩

theorem Tags.get_of_missing (h : t.tags = none ∨ t.artifacts = none) (d : Dialect) (key : Key) :
    ∃ e, Tags.get d t key = .error e ∧ e.kind ∈ [ErrorKind.internal, .unknown] := by
  unfold Tags.get Tables.selectTag
  cases htags : t.tags with
  | none => exact ⟨_, rfl, d.translate_noSuchTable_kind "tags"⟩
  | some tags =>
    have missing : t.artifacts = none := by
      rcases h with missing | missing
      · rw [htags] at missing
        cases missing
      · exact missing
    rw [missing]
    exact ⟨_, rfl, d.translate_noSuchTable_kind "artifacts"⟩

end Hides

theorem Error.isNotFound_of_failed {e : Error} (h : e.kind ∈ [ErrorKind.internal, .unknown]) :
    e.isNotFound = false := by
  unfold Error.isNotFound
  rw [beq_eq_false_iff_ne]
  intro notFound
  rw [notFound] at h
  exact absurd h (by decide)

theorem foundOrNone_of_failed {β : Type} {e : Error}
    (h : e.kind ∈ [ErrorKind.internal, .unknown]) :
    foundOrNone (.error e : Except Error β) = .error e :=
  if_neg (Bool.eq_false_iff.mp (Error.isNotFound_of_failed h))

/-! ## Calls on damaged tables -/

/-- What keeps the stores from telling what an operation has to know. -/
def Operation.Hindered (d : Dialect) (t : Tables) : Operation → Prop
  | .reserve c =>
    (∀ tag, Tags.get d t c.key ≠ .ok tag) ∧
      ((t.tags = none ∨ t.artifacts = none) ∨ t.Hides c.key)
  | .extend c => t.Hides c.key
  | .release _ => t.reservations = none
  | .get key => t.Hides key

section Hindered

variable {d : Dialect} {t : Tables} {timing : LeaseTiming} {now : Instant} {counters : Counters}

theorem Tables.Hides.run_contend {α : Type} {c : Claim} (h : t.Hides c.key) (d : Dialect)
    (failure : Event) (give : Attempt → α) :
    ∃ e, ((Call.contend c timing failure give).run (.ofTables d) now t counters).result = .error e ∧
      e.kind ∈ [ErrorKind.internal, .unknown] := by
  obtain ⟨e, look, kind⟩ := Leases.get_of_hides h d
  have failed : foundOrNone (Leases.get d t c.key) = .error e := by
    rw [look, foundOrNone_of_failed kind]
  refine ⟨e, ?_, kind⟩
  rw [Call.contend_eq, Call.run_readClock, Call.run_ask, Request.perform_get,
    Call.looked_error failed]
  rfl

theorem Operation.run_get {key : Key} (valid : key.validate = .ok ()) :
    (((get key).call timing).run (.ofTables d) now t counters).result =
      (foundOrNone (Leases.get d t key)).map fun found =>
        .found (found.map fun r => r.toLease timing) := by
  change ((Call.get timing key Reply.found).run _ _ _ _).result = _
  rw [Call.get_eq timing _ valid, Call.run_ask, Request.perform_get]
  cases look : foundOrNone (Leases.get d t key) with
  | ok found =>
    rw [Call.shown_ok look]
    rfl
  | error e =>
    rw [Call.shown_error look]
    rfl

theorem Operation.Hindered.run {operation : Operation} (h : operation.Hindered d t)
    (valid : operation.validate = .ok ()) :
    ∃ e, ((operation.call timing).run (.ofTables d) now t counters).result = .error e ∧
      e.kind ∈ [ErrorKind.internal, .unknown] := by
  cases operation with
  | reserve c =>
    obtain ⟨unresolved, hindered⟩ := h
    change ∃ e, ((Call.reserve timing c Reply.reserved).run _ _ _ _).result = _ ∧ _
    rw [Call.reserve_eq timing _ valid, Call.run_ask]
    change ∃ e, ((Call.tagLooked timing c Reply.reserved (Tags.get d t c.key)).run _ _ _ _).result =
      _ ∧ _
    cases look : Tags.get d t c.key with
    | ok tag => exact absurd look (unresolved tag)
    | error e =>
      by_cases notFound : e.isNotFound = true
      · -- the tables of tags and artifacts were there to be looked at
        have missed : foundOrNone (.error e : Except Error Tag) = .ok none := if_pos notFound
        rw [Call.tagLooked_none missed]
        rcases hindered with missing | hides
        · obtain ⟨e', look', kind⟩ := Tags.get_of_missing missing d c.key
          cases look.symm.trans look'
          rw [Error.isNotFound_of_failed kind] at notFound
          cases notFound
        · exact hides.run_contend d _ _
      · have failed : foundOrNone (.error e : Except Error Tag) = .error e := if_neg notFound
        rw [Call.tagLooked_error failed]
        refine ⟨e, rfl, ?_⟩
        rcases List.mem_cons.mp (Tags.get_failsIn d t c.key e look) with kind | kind
        · exact absurd (beq_iff_eq.mpr kind) notFound
        · exact kind
  | extend c =>
    change ∃ e, ((Call.extend timing c Reply.extended).run _ _ _ _).result = _ ∧ _
    rw [Call.extend_eq timing _ valid]
    exact Tables.Hides.run_contend h d _ _
  | release key =>
    have missing : Leases.delete d t key = .error (d.translate (.noSuchTable "reservations")) := by
      unfold Leases.delete Tables.deleteReservation
      rw [show t.reservations = none from h]
      rfl
    refine ⟨_, ?_, d.translate_noSuchTable_kind "reservations"⟩
    change ((Call.release key Reply.released).run _ _ _ _).result = _
    rw [Call.release_eq _ valid, Call.run_ask, Request.perform_delete, missing]
    rfl
  | get key =>
    obtain ⟨e, look, kind⟩ := Leases.get_of_hides h d
    refine ⟨e, ?_, kind⟩
    rw [run_get valid, look, foundOrNone_of_failed kind]
    rfl

/-- Nobody is told that a key is free unless it is. -/
theorem Operation.run_get_none_iff {key : Key} (valid : key.validate = .ok ()) :
    (((get key).call timing).run (.ofTables d) now t counters).result = .ok (.found none) ↔
      t.Free key := by
  rw [run_get valid]
  constructor
  · intro none
    rcases t.free_or_seen_or_hides key with free | ⟨row, r, found, decoded⟩ | hides
    · exact free
    · rw [Leases.get_of_row? found, decoded] at none
      cases none
    · obtain ⟨e, look, kind⟩ := Leases.get_of_hides hides d
      rw [look, foundOrNone_of_failed kind] at none
      cases none
  · intro free
    rw [Leases.get_of_free free]
    rfl

end Hindered

/-- Whatever the tables hold and whichever are missing, for every dialect, timing, clock and
argument: no call ends with an error that stands for an outcome inside the catalog. A call that has
to know what the tables do not tell fails, as an error of the database or of its data, and nobody is
told that a key is free which is not. -/
theorem damage_is_no_free_key (d : Dialect) (t : Tables) (timing : LeaseTiming)
    (operation : Operation) (now : Instant) (counters : Counters) :
    let result := ((operation.call timing).run (.ofTables d) now t counters).result
    (∀ e, result = .error e → e.kind ≠ .notFound ∧ e.kind ≠ .leaseConflict) ∧
    (operation.validate = .ok () → operation.Hindered d t →
      ∃ e, result = .error e ∧ (e.kind = .internal ∨ e.kind = .unknown)) ∧
    ∀ key, operation = .get key →
      (result = .ok (.found none) ↔ key.validate = .ok () ∧ t.Free key) := by
  intro result
  refine ⟨?_, ?_, ?_⟩
  · intro e failed
    have kind := operation.run_failsIn timing d t now counters e failed
    constructor
    · rintro notFound
      rw [notFound] at kind
      exact absurd kind (by decide)
    · rintro conflict
      rw [conflict] at kind
      exact absurd kind (by decide)
  · intro valid hindered
    obtain ⟨e, failed, kind⟩ := hindered.run valid
    exact ⟨e, failed, by simpa using kind⟩
  · rintro key rfl
    cases valid : key.validate with
    | ok =>
      rw [eq_self_iff_true, true_and]
      exact Operation.run_get_none_iff valid
    | error e =>
      have invalid : (Operation.get key).validate = .error e := valid
      have refused : result = .error e := by
        change (Call.run (.ofTables d) now ((Operation.get key).call timing) t counters).result = _
        rw [Operation.call_of_invalid invalid]
        rfl
      rw [refused]
      exact ⟨nofun, fun h => nomatch h.1⟩

theorem yesterday_is_no_free_key :
    let result := ((Operation.reserve (Session.claimOf "second")).call .standard).run
      (.ofTables .postgres) .epoch damagedTables .zero |>.result
    (Operation.reserve (Session.claimOf "second")).validate = .ok () ∧
      (Operation.reserve (Session.claimOf "second")).Hindered .postgres damagedTables ∧
      ∃ e, result = .error e ∧ (e.kind = .internal ∨ e.kind = .unknown) := by
  have hindered : (Operation.reserve (Session.claimOf "second")).Hindered .postgres
      damagedTables := by
    refine ⟨?_, .inr ?_⟩
    · intro tag found
      cases found
    · have found : damagedTables.row? (Session.claimOf "second").key = some _ := rfl
      refine .undecodable found (List.mem_cons_of_mem _ List.mem_cons_self) ?_
      intro x decoded
      cases decoded
  obtain ⟨-, fails, -⟩ := damage_is_no_free_key .postgres damagedTables .standard
    (.reserve (Session.claimOf "second")) .epoch .zero
  exact ⟨rfl, hindered, fails rfl hindered⟩

end LeaseCatalog
