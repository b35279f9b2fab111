import LeaseCatalog.Proofs.FailedCalls
import LeaseCatalog.Proofs.Finished
import LeaseCatalog.Proofs.OpenKeys
import LeaseCatalog.Proofs.OtherKeys

/-!
# Released keys

A release decodes nothing. So a key can be released whatever its row holds, and nothing of the row is
left: the tables are then those without it (`Tables.without`), as they would be had the key never had
a row.

Tables that have the same rows for every key (`Tables.SameRows`) may have these rows in another
order, and nobody can tell: all requests are answered in the same way, so all steps of a session give
the same (`Session.SameRows.run`). What is then asked of a released key finds it free until somebody
contends for it, and whoever does so first acquires it as a free key (`Session.release_resets`).
-/

namespace LeaseCatalog

/-! ## Tables without a row -/

namespace Tables

variable {t : Tables} {key : Key}

/-- The tables without the reservation of a key. -/
def without (t : Tables) (key : Key) : Tables :=
  { t with reservations := t.reservations.map fun rows => rows.filter (·.key != key) }

theorem free_without {rows : List ReservationRow} (h : t.reservations = some rows) :
    (t.without key).Free key := by
  refine ⟨rows.filter (·.key != key), ?_, ?_⟩
  · unfold without
    rw [h]
    rfl
  · intro r hr
    simpa using (List.mem_filter.mp hr).2

theorem Free.without (h : t.Free key) : t.without key = t := by
  obtain ⟨rows, hrows, none⟩ := h
  have kept : rows.filter (·.key != key) = rows := by
    rw [List.filter_eq_self]
    intro r hr
    simpa using none r hr
  unfold Tables.without
  rw [hrows, Option.map_some, kept, ← hrows]

theorem deleteReservation_eq {rows : List ReservationRow} (h : t.reservations = some rows) :
    t.deleteReservation key = .ok (t.without key) := by
  unfold deleteReservation Tables.without
  rw [h]
  rfl

theorem about_without_of_ne {other : Key} (hk : other ≠ key) :
    (t.without key).about other = t.about other := by
  cases hrows : t.reservations with
  | none => simp [without, about, hrows]
  | some rows =>
    exact deleteReservation_about_of_ne (deleteReservation_eq hrows) hk.symm

/-- Free keys differ in artifacts and tags only. -/
theorem Free.about_congr {t' : Tables} (h : t.Free key) (h' : t'.Free key) (same : t.SameTags t') :
    t.about key = t'.about key := by
  have reservations : ∀ {t : Tables}, t.Free key →
      (t.reservations.map fun rows => rows.filter (·.key == key)) = some [] := by
    rintro t ⟨rows, hrows, none⟩
    rw [hrows, Option.map_some, Option.some.injEq, List.filter_eq_nil_iff]
    intro r hr
    simpa using none r hr
  unfold about
  rw [reservations h, reservations h', same.1, same.2]

theorem Free.of_about {t' : Tables} (h : t.Free key) (same : t'.about key = t.about key) :
    t'.Free key := by
  rw [free_iff] at h ⊢
  rw [← selectReservation_about, same, selectReservation_about, h]

end Tables

theorem Leases.delete_eq {t : Tables} {rows : List ReservationRow} (h : t.reservations = some rows)
    (d : Dialect) (key : Key) : Leases.delete d t key = .ok (t.without key) := by
  unfold Leases.delete
  rw [Tables.deleteReservation_eq h, Dialect.executed_ok]

/-! ## Tables that nobody can tell apart -/

/-- Tables with the same rows for every key, in whatever order. -/
def Tables.SameRows (t t' : Tables) : Prop := ∀ key, t.about key = t'.about key

section SameRows

variable {t t' : Tables}

theorem Request.exists_concerns (r : Request) : ∃ key, r.concerns key = true := by
  cases r with
  | getTag key | get key | addTag key | delete key => exact ⟨key, beq_self_eq_true key⟩
  | create r | createOrUpdate r => exact ⟨r.key, beq_self_eq_true r.key⟩
  | update u => exact ⟨u.key, beq_self_eq_true u.key⟩
  | createArtifact a => exact ⟨⟨a.dataset, ""⟩, beq_self_eq_true a.dataset⟩

namespace Tables.SameRows

theorem perform (h : t.SameRows t') (d : Dialect) (r : Request) :
    (r.perform d t).1 = (r.perform d t').1 ∧ (r.perform d t).2.SameRows (r.perform d t').2 := by
  -- The answer is that of one key's rows, and every request concerns some key.
  obtain ⟨own, concerned⟩ := r.exists_concerns
  refine ⟨(Request.perform_congr d concerned (h own)).1, fun key => ?_⟩
  cases hr : r.concerns key with
  | true => exact (Request.perform_congr d hr (h key)).2
  | false =>
    have left := Request.perform_about_of_not d t hr
    have right := Request.perform_about_of_not d t' hr
    rw [left, right, h key]

theorem create (h : t.SameRows t') : t.create.SameRows t'.create := by
  intro key
  rw [Tables.create_about, Tables.create_about, h key]

theorem run {α : Type} (h : t.SameRows t') (d : Dialect) (now : Instant) (call : Call α)
    (counters : Counters) :
    (call.run (.ofTables d) now t counters).result =
        (call.run (.ofTables d) now t' counters).result ∧
      (call.run (.ofTables d) now t counters).counters =
        (call.run (.ofTables d) now t' counters).counters ∧
      (call.run (.ofTables d) now t counters).state.SameRows
        (call.run (.ofTables d) now t' counters).state := by
  induction call generalizing t t' counters with
  | done result => exact ⟨rfl, rfl, h⟩
  | readClock next ih => exact ih now h counters
  | record event next ih => exact ih h _
  | ask request next ih =>
    obtain ⟨answer, same⟩ := h.perform d request
    rw [Call.run_ask, Call.run_ask, answer]
    exact ih _ same counters

end Tables.SameRows

end SameRows

namespace Session

/-- Sessions that differ at most in the order of rows. -/
structure SameRows (s s' : Session) : Prop where
  /-- They have the same dialect. -/
  dialect : s.dialect = s'.dialect
  /-- Their managers are the same, with all that these have counted. -/
  managers : s.managers = s'.managers
  /-- Their tables have the same rows. -/
  tables : s.tables.SameRows s'.tables

section SameRows

variable {s s' : Session}

theorem SameRows.step (h : s.SameRows s') (x : Step) :
    (s.step x).1 = (s'.step x).1 ∧ (s.step x).2.SameRows (s'.step x).2 := by
  obtain ⟨dialect, managers, tables⟩ := h
  obtain ⟨d, t, m⟩ := s
  obtain ⟨d', t', m'⟩ := s'
  cases dialect
  cases managers
  cases x with
  | serve i operation =>
    obtain ⟨result, counters, state⟩ := tables.run d (m i).clock.now
      (operation.call (m i).timing) (m i).counters
    refine ⟨result, rfl, ?_, state⟩
    funext j
    change (if j = i then Manager.mk _ _ _ else m j) = if j = i then Manager.mk _ _ _ else m j
    rw [counters]
  | ask request =>
    obtain ⟨answer, same⟩ := tables.perform d request
    exact ⟨answer, rfl, rfl, same⟩
  | move i how => exact ⟨rfl, rfl, rfl, tables⟩
  | initialise => exact ⟨rfl, rfl, rfl, tables.create⟩

theorem SameRows.run (h : s.SameRows s') (steps : List Step) :
    (s.run steps).1 = (s'.run steps).1 ∧ (s.run steps).2.SameRows (s'.run steps).2 := by
  induction steps generalizing s s' with
  | nil => exact ⟨rfl, h⟩
  | cons x rest ih =>
    obtain ⟨answer, same⟩ := h.step x
    obtain ⟨answers, sames⟩ := ih same
    rw [run_cons, run_cons, answer, answers]
    exact ⟨rfl, sames⟩

end SameRows

end Session

/-! ## Keys for which nobody contends -/

/-- Whether a step is one of the managers by which nobody contends for a key. -/
def Step.Spares (key : Key) : Step → Prop
  | .serve _ operation => ∀ c, operation.claim? = some c → c.key ≠ key
  | .move _ _ => True
  | .ask _ | .initialise => False

/-- What a call asks leaves the rows of a free key if the call does not contend for it. -/
theorem Operation.MayAsk.spares {timing : LeaseTiming} {operation : Operation} {key : Key}
    {reading : Option Instant} {r : Request} (h : operation.MayAsk timing reading r)
    (spares : ∀ c, operation.claim? = some c → c.key ≠ key) (d : Dialect) {t : Tables}
    (free : t.Free key) : (r.perform d t).2.about key = t.about key := by
  cases r with
  | getTag | get => rfl
  | createOrUpdate r now =>
    obtain ⟨-, c, hc, lease⟩ := h
    obtain ⟨_, _, -, -, rfl⟩ := Claim.lease?_eq_ok lease
    exact Request.perform_about_of_not d t (beq_eq_false_iff_ne.mpr (spares c hc))
  | delete k =>
    by_cases hk : k = key
    · obtain ⟨rows, hrows, -⟩ := id free
      rw [Request.perform_delete, Leases.delete_eq hrows, hk]
      exact congrArg (Tables.about · key) free.without
    · exact Request.perform_about_of_not d t (beq_eq_false_iff_ne.mpr hk)
  | createArtifact | addTag | create | update => exact h.elim

namespace Session

variable {s : Session} {key : Key}

theorem step_spares (free : s.tables.Free key) {x : Step} (spares : x.Spares key) :
    (s.step x).2.tables.about key = s.tables.about key := by
  cases x with
  | serve i operation =>
    refine (operation.call_obeys (s.managers i).timing).run_induction
      (P := fun t => t.about key = s.tables.about key) ?_ (s.managers i).clock.now rfl
      (s.managers i).counters
    intro reading r t asked same
    exact (asked.spares spares s.dialect (free.of_about same)).trans same
  | move => rfl
  | ask | initialise => exact spares.elim

/-- A free key stays free as long as nobody contends for it. -/
theorem run_spares (free : s.tables.Free key) {steps : List Step}
    (spares : ∀ x ∈ steps, x.Spares key) :
    (s.run steps).2.tables.about key = s.tables.about key := by
  induction steps generalizing s with
  | nil => rfl
  | cons x rest ih =>
    obtain ⟨first, later⟩ := List.forall_mem_cons.mp spares
    have same := step_spares free first
    rw [run_cons]
    exact (ih (free.of_about same) later).trans same

end Session

/-! ## Releases -/

theorem Operation.run_release {t : Tables} {rows : List ReservationRow} {key : Key}
    (valid : key.validate = .ok ()) (h : t.reservations = some rows) (timing : LeaseTiming)
    (d : Dialect) (now : Instant) (counters : Counters) :
    ((release key).call timing).run (.ofTables d) now t counters =
      ⟨.ok .released, t.without key, counters⟩ := by
  change (Call.release key Reply.released).run _ _ _ _ = _
  rw [Call.release_eq _ valid, Call.run_ask, Request.perform_delete, Leases.delete_eq h]
  rfl

namespace Session

variable {s : Session} {key : Key}

/-- Whatever the row of a key holds, a release removes it and does nothing else. -/
theorem step_release (valid : key.validate = .ok ()) {rows : List ReservationRow}
    (h : s.tables.reservations = some rows) (i : Nat) :
    s.step (.serve i (.release key)) =
      ((.ok .released : Except Error Reply), { s with tables := s.tables.without key }) := by
  have run := Operation.run_release valid h (s.managers i).timing s.dialect
    (s.managers i).clock.now (s.managers i).counters
  change s.serve i ((Operation.release key).call _) = _
  unfold serve Manager.serve
  rw [run]
  dsimp only
  rw [replace_self]

/-- What comes of a step by which a manager gives out the lease on a free key. -/
structure Acquires (s : Session) (i : Nat) (operation : Operation) (c : Claim) (ends : Instant) :
    Prop where
  /-- The caller is told of the lease. -/
  reply : (s.step (.serve i operation)).1 =
    .ok (operation.reply [] (s.managers i).timing (s.managers i).clock.now ends)
  /-- It is counted as one on a free key. -/
  counted : ((s.step (.serve i operation)).2.managers i).counters =
    (s.managers i).counters.record .acquiredByCreation
  /-- The row of the key is that of the lease, which was created now. -/
  row : (s.step (.serve i operation)).2.tables.row? c.key =
    some ⟨c.key, c.owner, Timestamp.text ends, Timestamp.text (s.managers i).clock.now,
      Timestamp.text (s.managers i).clock.now, c.metadata⟩
  /-- The rows of other keys are as they were. -/
  others : ∀ other ≠ c.key,
    (s.step (.serve i operation)).2.tables.row? other = s.tables.row? other

theorem acquires_of_free {operation : Operation} {c : Claim} (hc : operation.claim? = some c)
    (valid : c.validate = .ok ()) (free : s.tables.Free c.key)
    (untagged : s.tables.selectTag c.key = .error .rowNotFound) (i : Nat) {ends : Instant}
    (lasts : (s.managers i).timing.Lasts (s.managers i).clock.now ends) :
    s.Acquires i operation c ends := by
  have openTo : s.tables.OpenTo c (s.managers i).clock.now := .free free
  obtain ⟨-, reply, row, others, -, counted⟩ :=
    openTo.acquires hc valid untagged lasts s.dialect (s.managers i).counters
  refine ⟨reply, ?_, ?_, others⟩
  · change ((s.replace i _).managers i).counters = _
    unfold replace
    dsimp only
    rw [if_pos rfl]
    refine counted.trans ?_
    rw [Leases.get_of_free free]
    rfl
  · refine row.trans ?_
    rw [free.row?]
    rfl

/-- Whatever the table of reservations holds, a release of a sound key succeeds, removes the row of
the key and does nothing else, so a second release does nothing at all. From then on every sequence
of steps gives what it gives in any session that differs in nothing but that the key never had a row,
and leaves the same rows. Whoever contends first for the key after that, if it stands for no artifact
and rows can hold the lease, acquires it as on any free key, and nothing is left of the old row. -/
theorem release_resets (s : Session) (i : Nat) {rows : List ReservationRow}
    (table : s.tables.reservations = some rows) {key : Key} (valid : key.validate = .ok ()) :
    let released := s.step (.serve i (.release key))
    released.1 = .ok .released ∧
    released.2 = { s with tables := released.2.tables } ∧
    released.2.tables.Free key ∧
    s.tables.SameTags released.2.tables ∧
    (∀ other ≠ key, released.2.tables.about other = s.tables.about other) ∧
    (∀ j, released.2.step (.serve j (.release key)) =
      ((.ok .released : Except Error Reply), released.2)) ∧
    (∀ t : Tables, t.Free key → s.tables.SameTags t →
      (∀ other ≠ key, t.about other = s.tables.about other) → ∀ steps : List Step,
        (released.2.run steps).1 = ({ s with tables := t }.run steps).1 ∧
          (released.2.run steps).2.SameRows ({ s with tables := t }.run steps).2) ∧
    ∀ steps : List Step, (∀ x ∈ steps, x.Spares key) →
      s.tables.selectTag key = .error .rowNotFound →
      ∀ j operation c ends, operation.claim? = some c → c.validate = .ok () → c.key = key →
        let later := (released.2.run steps).2
        (later.managers j).timing.Lasts (later.managers j).clock.now ends →
          later.Acquires j operation c ends := by
  intro released
  have step : released = ((.ok .released : Except Error Reply),
    { s with tables := s.tables.without key }) := step_release valid table i
  have free : (s.tables.without key).Free key := Tables.free_without table
  have tags : s.tables.SameTags (s.tables.without key) := ⟨rfl, rfl⟩
  rw [step]
  refine ⟨rfl, rfl, free, tags, fun other => Tables.about_without_of_ne, ?_, ?_, ?_⟩
  · intro j
    obtain ⟨rows', hrows', -⟩ := id free
    refine (step_release valid hrows' j).trans ?_
    dsimp only
    rw [free.without]
  · intro t never sameTags others steps
    -- Both lack the row of the key, and agree on all others up to their order.
    have rows : (s.tables.without key).SameRows t := by
      intro other
      by_cases hk : other = key
      · rw [hk]
        exact free.about_congr never sameTags
      · exact (Tables.about_without_of_ne hk).trans (others other hk).symm
    have alike : Session.SameRows { s with tables := s.tables.without key }
        { s with tables := t } := ⟨rfl, rfl, rows⟩
    exact alike.run steps
  · intro steps spares untagged j operation c ends hc sound hkey later lasts
    subst hkey
    -- Whatever was done until then left the key as the release did.
    have same : later.tables.about c.key = (s.tables.without c.key).about c.key :=
      run_spares free spares
    have still : later.tables.selectTag c.key = .error .rowNotFound := by
      rw [← Tables.selectTag_about, same, Tables.selectTag_about, tags.selectTag, untagged]
    exact acquires_of_free hc sound (free.of_about same) still j lasts

theorem yesterday_released :
    let s := { newSession with tables := damagedTables }
    let c := claimOf "second"
    let released := (s.step (.serve 0 (.release c.key))).2
    s.tables.reservations.isSome = true ∧ c.key.validate = .ok () ∧
      ∃ ends, released.Acquires 1 (.reserve c) c ends ∧
        (released.step (.serve 1 (.reserve c))).2.tables.row? c.key =
          some ⟨c.key, "second", "1970-01-01T00:00:15.000000Z", "1970-01-01T00:00:00.000000Z",
            "1970-01-01T00:00:00.000000Z", none⟩ := by
  intro s c released
  have table : s.tables.reservations = some _ := rfl
  have valid : c.key.validate = .ok () := by decide
  have sound : c.validate = .ok () := by decide
  obtain ⟨-, -, -, -, -, -, -, acquires⟩ := release_resets s 0 table valid
  have managers : released.managers = newSession.managers := by
    have step : released = _ := congrArg Prod.snd (step_release valid table 0)
    rw [step]
  have lasts : (released.managers 1).timing.Lasts (released.managers 1).clock.now
      ((Instant.ofParts? 15 0).getD .epoch) := by
    rw [managers]
    exact ⟨⟨15, rfl, rfl⟩, by decide, by decide⟩
  have acquired := acquires [] (List.forall_mem_nil _) rfl 1 (.reserve c) c _ rfl sound rfl lasts
  refine ⟨rfl, valid, _, acquired, ?_⟩
  have row := acquired.row
  rw [run, managers] at row
  exact row.trans (by decide)

end Session

end LeaseCatalog
