import LeaseCatalog.Proofs.FailedCalls
import LeaseCatalog.Proofs.OpenKeys
import LeaseCatalog.Proofs.OtherKeys

/-!
# Dialects

A dialect says what the failures of statements mean. Where all three tables are there, statements
fail in two ways: a row is asked for that is not there, which means the same in all dialects, and a
reservation is inserted for a key that has one, which means something else in each
(`Request.create_tells_dialect`). The second happens only to who asks the stores to create a
reservation, and the calls of managers never do. So unless somebody creates a reservation that is
there already, nobody can tell the dialect of a database (`Session.dialect_irrelevant`).

All that has to be known about the tables is that none of them is missing (`Tables.Complete`). What
the rows hold does not matter, because no dialect is asked about a row that cannot be decoded.
-/

namespace LeaseCatalog

/-! ## Statements on complete tables -/

/-- Tables none of which is missing. -/
structure Tables.Complete (t : Tables) : Prop where
  reservations : t.reservations.isSome = true
  artifacts : t.artifacts.isSome = true
  tags : t.tags.isSome = true

theorem Tables.complete_create (t : Tables) : t.create.Complete := ⟨rfl, rfl, rfl⟩

/-- What gives something of a kind, or else fails because a row is not there. -/
def GivesOrMisses {α : Type} (P : α → Prop) : Except Failure α → Prop
  | .ok a => P a
  | .error failure => failure = .rowNotFound

/-- A row that is not there is the same to all dialects. -/
theorem GivesOrMisses.executed {α : Type} {P : α → Prop} {x : Except Failure α}
    (h : GivesOrMisses P x) (d d' : Dialect) : d.executed x = d'.executed x := by
  cases x with
  | ok a => rfl
  | error failure =>
    cases h
    rw [Dialect.executed_error, Dialect.executed_error, Dialect.translate_rowNotFound,
      Dialect.translate_rowNotFound]

theorem GivesOrMisses.map {α β : Type} {P : α → Prop} {Q : β → Prop} {x : Except Failure α}
    (h : GivesOrMisses P x) {f : α → β} (image : ∀ a, P a → Q (f a)) :
    GivesOrMisses Q (x.map f) := by
  cases x with
  | ok a => exact image a h
  | error failure => exact h

namespace Tables.Complete

variable {t : Tables} (h : t.Complete)

include h

theorem selectReservation (key : Key) :
    GivesOrMisses (fun _ => True) (t.selectReservation key) := by
  obtain ⟨rows, hrows⟩ := Option.isSome_iff_exists.mp h.reservations
  unfold Tables.selectReservation
  rw [hrows, Tables.rows, ok_bind]
  cases rows.find? (·.key == key) with
  | none => rfl
  | some row => trivial

/-- A reservation is inserted for a free key. -/
theorem insertReservation {row : ReservationRow} (free : t.Free row.key) :
    GivesOrMisses Complete (t.insertReservation row) := by
  obtain ⟨rows, hrows, none⟩ := free
  have unused : rows.any (·.key == row.key) = false := by
    rw [List.any_eq_false]
    intro r hr
    simpa using none r hr
  unfold Tables.insertReservation
  rw [hrows, Tables.rows, ok_bind, unused, if_neg Bool.false_ne_true]
  exact ⟨rfl, h.artifacts, h.tags⟩

theorem upsertReservation (row : ReservationRow) (now : String) :
    GivesOrMisses (fun given => given.2.Complete) (t.upsertReservation row now) := by
  obtain ⟨rows, hrows⟩ := Option.isSome_iff_exists.mp h.reservations
  unfold Tables.upsertReservation
  rw [hrows, Tables.rows, ok_bind]
  split
  · exact ⟨rfl, h.artifacts, h.tags⟩
  · split_ifs
    · exact ⟨rfl, h.artifacts, h.tags⟩
    · exact h

theorem updateReservation (key : Key) (owner expiresAt updatedAt expected : String) :
    GivesOrMisses (fun given => given.2.Complete)
      (t.updateReservation key owner expiresAt updatedAt expected) := by
  obtain ⟨rows, hrows⟩ := Option.isSome_iff_exists.mp h.reservations
  unfold Tables.updateReservation
  rw [hrows, Tables.rows, ok_bind]
  exact ⟨rfl, h.artifacts, h.tags⟩

theorem deleteReservation (key : Key) : GivesOrMisses Complete (t.deleteReservation key) := by
  obtain ⟨rows, hrows⟩ := Option.isSome_iff_exists.mp h.reservations
  unfold Tables.deleteReservation
  rw [hrows, Tables.rows, ok_bind]
  exact ⟨rfl, h.artifacts, h.tags⟩

theorem insertArtifact (row : ArtifactRow) : GivesOrMisses Complete (t.insertArtifact row) := by
  obtain ⟨rows, hrows⟩ := Option.isSome_iff_exists.mp h.artifacts
  rw [Tables.insertArtifact_eq hrows]
  split_ifs
  · exact h
  · exact ⟨h.reservations, rfl, h.tags⟩

theorem upsertTag (row : TagRow) :
    GivesOrMisses (fun given => given.2.Complete) (t.upsertTag row) := by
  obtain ⟨artifacts, hartifacts⟩ := Option.isSome_iff_exists.mp h.artifacts
  obtain ⟨tags, htags⟩ := Option.isSome_iff_exists.mp h.tags
  rw [Tables.upsertTag_eq htags hartifacts]
  split_ifs
  · exact h
  · exact ⟨h.reservations, h.artifacts, rfl⟩
  · exact ⟨h.reservations, h.artifacts, rfl⟩

theorem selectTag (key : Key) : GivesOrMisses (fun _ => True) (t.selectTag key) := by
  obtain ⟨artifacts, hartifacts⟩ := Option.isSome_iff_exists.mp h.artifacts
  obtain ⟨tags, htags⟩ := Option.isSome_iff_exists.mp h.tags
  unfold Tables.selectTag
  rw [htags, hartifacts, Tables.rows, ok_bind, Tables.rows, ok_bind]
  split
  · rfl
  · split
    · trivial
    · rfl

/-- Tables are complete after a statement on what was prepared for it. -/
theorem after {ρ : Type} {prepared : Except Error ρ} {statement : ρ → Except Failure Tables}
    (clean : ∀ row, prepared = .ok row → GivesOrMisses Complete (statement row)) :
    (t.after prepared statement).Complete := by
  unfold Tables.after
  cases prepared with
  | error e => exact h
  | ok row =>
    dsimp only
    have given := clean row rfl
    cases hrow : statement row with
    | error failure => exact h
    | ok changed =>
      rw [hrow] at given
      exact given

end Tables.Complete

/-! ## Requests -/

/-- Whether a request is none to create a reservation, or one for a free key. -/
def Tables.HasRoomFor (t : Tables) : Request → Prop
  | .create r => t.Free r.key
  | .getTag _ | .createArtifact _ | .addTag _ _ _ | .get _ | .update _ | .createOrUpdate _ _
  | .delete _ => True

/-- That a row is there already, is something else to each dialect. -/
theorem Dialect.translate_duplicate_iff (d d' : Dialect) :
    d.translate .duplicateReservation = d'.translate .duplicateReservation ↔ d = d' := by
  constructor
  · intro same
    -- the three errors are of three kinds
    have same := congrArg Error.kind same
    cases d <;> cases d' <;> first | rfl | cases same
  · rintro rfl
    rfl

namespace Request

variable {t : Tables} {r : Request}

theorem insertReservation_of_toRow (h : t.Complete) {r : Reservation} (free : t.Free r.key)
    (row : ReservationRow) (hrow : r.toRow = .ok row) :
    GivesOrMisses Tables.Complete (t.insertReservation row) :=
  h.insertReservation (Reservation.toRow_key hrow ▸ free)

/-- All dialects answer a request alike. -/
theorem perform_dialect (h : t.Complete) (room : t.HasRoomFor r) (d d' : Dialect) :
    r.perform d t = r.perform d' t := by
  cases r with
  | getTag key =>
    refine congrArg (·, t) ?_
    unfold Tags.get
    rw [(h.selectTag key).executed d d']
  | get key =>
    refine congrArg (·, t) ?_
    unfold Leases.get
    rw [(h.selectReservation key).executed d d']
  | createArtifact a =>
    refine congrArg (changing t) (bind_congr fun row => ?_)
    exact (h.insertArtifact row).executed d d'
  | addTag key id now =>
    refine congrArg (changing t) (bind_congr fun row => ?_)
    rw [(h.upsertTag row).executed d d']
  | create r =>
    refine congrArg (changing t) ?_
    unfold Leases.create
    cases hrow : r.toRow with
    | error e => rfl
    | ok row => exact (insertReservation_of_toRow h room row hrow).executed d d'
  | update u =>
    have same : Leases.update d t u = Leases.update d' t u :=
      bind_congr fun texts => (h.updateReservation u.key u.owner _ _ _).executed d d'
    rw [perform_update, perform_update, same]
  | createOrUpdate r now =>
    refine congrArg (changing t) (bind_congr fun texts => ?_)
    obtain ⟨row, now⟩ := texts
    dsimp only
    rw [(h.upsertReservation row now).executed d d']
  | delete key => exact congrArg (changing t) ((h.deleteReservation key).executed d d')

/-- A request leaves no table missing. -/
theorem perform_complete (h : t.Complete) (room : t.HasRoomFor r) (d : Dialect) :
    (r.perform d t).2.Complete := by
  rw [perform_tables]
  cases r with
  | getTag | get => exact h
  | createArtifact a => exact h.after fun row _ => h.insertArtifact row
  | addTag key id now => exact h.after fun row _ => (h.upsertTag row).map fun _ given => given
  | create r => exact h.after (insertReservation_of_toRow h room)
  | update u =>
    exact h.after fun texts _ =>
      (h.updateReservation u.key u.owner texts.1 texts.2.1 texts.2.2).map fun _ given => given
  | createOrUpdate r now =>
    exact h.after fun texts _ =>
      (h.upsertReservation texts.1 texts.2).map fun _ given => given
  | delete key =>
    change (t.after (.ok ()) fun _ => t.deleteReservation key).Complete
    exact h.after fun _ _ => h.deleteReservation key

/-- A reservation that is there is what tells the dialects from each other. -/
theorem create_tells_dialect (h : t.Complete) {reservation : Reservation} {row : ReservationRow}
    (hrow : reservation.toRow = .ok row) (taken : ¬ t.Free reservation.key) (d d' : Dialect) :
    (create reservation).perform d t = (create reservation).perform d' t ↔ d = d' := by
  obtain ⟨rows, hrows⟩ := Option.isSome_iff_exists.mp h.reservations
  have used : rows.any (·.key == row.key) = true := by
    by_contra unused
    refine taken ⟨rows, hrows, fun r hr same => unused ?_⟩
    rw [Reservation.toRow_key hrow, List.any_eq_true]
    exact ⟨r, hr, by simpa using same⟩
  have failure : ∀ d : Dialect, (create reservation).perform d t =
      ((.error (d.translate .duplicateReservation) : Except Error Unit), t) := by
    intro d
    change changing t (Leases.create d t reservation) = _
    unfold Leases.create Tables.insertReservation
    rw [hrow, ok_bind, hrows, Tables.rows, ok_bind, if_pos used]
    rfl
  rw [failure, failure]
  constructor
  · intro same
    exact (Dialect.translate_duplicate_iff d d').mp (Except.error.inj (congrArg Prod.fst same))
  · rintro rfl
    rfl

end Request

/-! ## Sessions -/

/-- A call tells no dialect from another if it never asks to create a reservation. -/
theorem Call.Obeys.run_dialect {α : Type} {may : Option Instant → Request → Prop}
    (room : ∀ reading r, may reading r → ∀ t : Tables, t.HasRoomFor r) (d d' : Dialect)
    (now : Instant) {call : Call α} {reading : Option Instant} (obeys : call.Obeys may reading)
    {t : Tables} (h : t.Complete) (c : Counters) :
    call.run (.ofTables d) now t c = call.run (.ofTables d') now t c ∧
      (call.run (.ofTables d) now t c).state.Complete := by
  induction call generalizing reading t c with
  | done result => exact ⟨rfl, h⟩
  | readClock next ih => exact ih now (obeys now) h c
  | record event next ih => exact ih obeys h _
  | ask request next ih =>
    obtain ⟨asked, later⟩ := obeys
    have same := request.perform_dialect h (room _ _ asked t) d d'
    have complete := request.perform_complete h (room _ _ asked t) d
    rw [run_ask, run_ask, ← same]
    exact ih _ (later _) complete c

theorem Operation.MayAsk.hasRoom {timing : LeaseTiming} {operation : Operation}
    {reading : Option Instant} {r : Request} (h : operation.MayAsk timing reading r) (t : Tables) :
    t.HasRoomFor r := by
  cases r with
  | create => exact h.elim
  | getTag | createArtifact | addTag | get | update | createOrUpdate | delete => trivial

namespace Session

/-- Whether a step is no request to create a reservation for a key that has one. -/
def HasRoomFor (s : Session) : Step → Prop
  | .ask request => s.tables.HasRoomFor request
  | .serve _ _ | .move _ _ | .initialise => True

/-- Whether all steps are such, one after the other. -/
def HasRoomForAll (s : Session) : List Step → Prop
  | [] => True
  | x :: rest => s.HasRoomFor x ∧ (s.step x).2.HasRoomForAll rest

/-- The session on a database of another make. -/
def onDialect (s : Session) (d : Dialect) : Session := { s with dialect := d }

variable {s : Session}

theorem step_dialect (h : s.tables.Complete) {x : Step} (room : s.HasRoomFor x) (d : Dialect) :
    (s.onDialect d).step x = ((s.step x).1, (s.step x).2.onDialect d) ∧
      (s.step x).2.tables.Complete := by
  cases x with
  | serve i operation =>
    obtain ⟨same, complete⟩ := (operation.call_obeys (s.managers i).timing).run_dialect
      (fun _ _ may => may.hasRoom) s.dialect d (s.managers i).clock.now h
      (s.managers i).counters
    refine ⟨?_, complete⟩
    change (s.onDialect d).serve i _ = ((s.serve i _).1, (s.serve i _).2.onDialect d)
    unfold serve Manager.serve onDialect
    dsimp only
    rw [← same]
    rfl
  | ask request =>
    have same := request.perform_dialect h room d s.dialect
    refine ⟨?_, request.perform_complete h room s.dialect⟩
    change ((request.perform d s.tables).1,
      { s.onDialect d with tables := (request.perform d s.tables).2 }) = _
    rw [same]
    rfl
  | move i how => exact ⟨rfl, h⟩
  | initialise => exact ⟨rfl, s.tables.complete_create⟩

/-- Where no table is missing and nobody asks to create a reservation for a key that has one, all
steps give the same in all dialects, and leave the same tables and the same managers. -/
theorem dialect_irrelevant (s : Session) (steps : List Step) (complete : s.tables.Complete)
    (room : s.HasRoomForAll steps) (d : Dialect) :
    (s.onDialect d).run steps = ((s.run steps).1, (s.run steps).2.onDialect d) := by
  induction steps generalizing s with
  | nil => rfl
  | cons x rest ih =>
    obtain ⟨room, later⟩ := room
    obtain ⟨same, complete⟩ := step_dialect complete room d
    rw [run_cons, run_cons, same, ih _ complete later]

/-- Two callers contend, one of them asks past all managers, and a reservation is created. A tag is
looked for that is not there. -/
def contendedSteps : List Step :=
  let other : Key := ⟨(claimOf "first").key.dataset, "other"⟩
  [.serve 0 (.reserve (claimOf "first")), .serve 1 (.extend (claimOf "second")),
    .ask (.createOrUpdate (.taken (claimOf "first").key "second" .epoch .epoch none) .epoch),
    .ask (.create (.taken other "second" .epoch .epoch none)), .ask (.getTag other),
    .ask (.update ⟨other, .epoch, "first", .epoch, .epoch⟩), .ask (.get other)]

theorem contended_everywhere :
    newSession.HasRoomForAll contendedSteps ∧
      (newSession.onDialect .postgres).run contendedSteps =
        ((newSession.run contendedSteps).1,
          (newSession.run contendedSteps).2.onDialect .postgres) ∧
      (newSession.onDialect .generic).run contendedSteps =
        ((newSession.run contendedSteps).1,
          (newSession.run contendedSteps).2.onDialect .generic) := by
  have room : newSession.HasRoomForAll contendedSteps :=
    ⟨trivial, trivial, trivial, ⟨_, rfl, by decide⟩, trivial, trivial, trivial, trivial⟩
  have same := dialect_irrelevant newSession contendedSteps (Tables.complete_create .empty) room
  exact ⟨room, same .postgres, same .generic⟩

end Session

end LeaseCatalog
