import LeaseCatalog.Proofs.StoredLeases
import LeaseCatalog.Session

/-!
# What a request changes

Requests about artifacts and tags leave the table `reservations` as it is, and requests about leases
leave the other two tables as they are. A request about the lease of one key changes no other lease.
So tables that hold a map of leases still hold one after any request, and the two maps differ at
most at the key of the request (`Tables.Holds.perform_frame`). The same holds of the steps of a
session.
-/

namespace LeaseCatalog

/-- The key whose lease a request may change. -/
def Request.writtenKey? : Request → Option Key
  | .create r => some r.key
  | .createOrUpdate r _ => some r.key
  | .update u => some u.key
  | .delete key => some key
  | .get _ | .getTag _ | .createArtifact _ | .addTag _ _ _ => none

theorem bind_eq_ok {α β ε : Type} {x : Except ε α} {f : α → Except ε β} {b : β}
    (h : (x >>= f) = .ok b) : ∃ a, x = .ok a ∧ f a = .ok b := by
  cases x with
  | error e => cases h
  | ok a => exact ⟨a, rfl, h⟩

theorem Dialect.executed_eq_ok {d : Dialect} {α : Type} {x : Except Failure α} {a : α}
    (h : d.executed x = .ok a) : x = .ok a := by
  cases x with
  | error f => cases h
  | ok b => exact congrArg Except.ok (Except.ok.inj h)

/-! ## The other tables -/

section Tables

variable {t changed : Tables}

/-- What a statement on artifacts or tags leaves alone. -/
theorem Tables.insertArtifact_reservations {row : ArtifactRow}
    (h : t.insertArtifact row = .ok changed) : changed.reservations = t.reservations := by
  unfold Tables.insertArtifact at h
  obtain ⟨rows, -, h⟩ := bind_eq_ok h
  split_ifs at h
  · cases h
    rfl
  · cases h
    rfl

theorem Tables.upsertTag_reservations {row : TagRow} {written : Bool}
    (h : t.upsertTag row = .ok (written, changed)) : changed.reservations = t.reservations := by
  unfold Tables.upsertTag at h
  obtain ⟨tags, -, h⟩ := bind_eq_ok h
  obtain ⟨artifacts, -, h⟩ := bind_eq_ok h
  split_ifs at h
  · cases h
    rfl
  · cases h
    rfl
  · cases h
    rfl

/-- What a statement on reservations leaves alone. -/
def Tables.SameTags (t t' : Tables) : Prop := t'.tags = t.tags ∧ t'.artifacts = t.artifacts

theorem Tables.SameTags.refl (t : Tables) : t.SameTags t := ⟨rfl, rfl⟩

theorem Tables.SameTags.trans {t' : Tables} (h : t.SameTags changed) (h' : changed.SameTags t') :
    t.SameTags t' := ⟨h'.1.trans h.1, h'.2.trans h.2⟩

theorem Tables.SameTags.selectTag (h : t.SameTags changed) (key : Key) :
    changed.selectTag key = t.selectTag key := by
  unfold Tables.selectTag
  rw [h.1, h.2]

theorem Tables.insertReservation_sameTags {row : ReservationRow}
    (h : t.insertReservation row = .ok changed) : t.SameTags changed := by
  unfold Tables.insertReservation at h
  obtain ⟨rows, -, h⟩ := bind_eq_ok h
  split_ifs at h
  cases h
  exact ⟨rfl, rfl⟩

theorem Tables.upsertReservation_sameTags {row : ReservationRow} {now : String} {written : Bool}
    (h : t.upsertReservation row now = .ok (written, changed)) : t.SameTags changed := by
  unfold Tables.upsertReservation at h
  obtain ⟨rows, -, h⟩ := bind_eq_ok h
  split at h
  · cases h
    exact ⟨rfl, rfl⟩
  · split_ifs at h
    · cases h
      exact ⟨rfl, rfl⟩
    · cases h
      exact .refl t

theorem Tables.updateReservation_sameTags {key : Key} {a b c e : String} {n : Nat}
    (h : t.updateReservation key a b c e = .ok (n, changed)) : t.SameTags changed := by
  unfold Tables.updateReservation at h
  obtain ⟨rows, -, h⟩ := bind_eq_ok h
  cases h
  exact ⟨rfl, rfl⟩

theorem Tables.deleteReservation_sameTags {key : Key} (h : t.deleteReservation key = .ok changed) :
    t.SameTags changed := by
  unfold Tables.deleteReservation at h
  obtain ⟨rows, -, h⟩ := bind_eq_ok h
  cases h
  exact ⟨rfl, rfl⟩

theorem Leases.createOrUpdate_sameTags {d : Dialect} {r : Reservation} {now : Instant}
    (h : Leases.createOrUpdate d t r now = .ok changed) : t.SameTags changed := by
  obtain ⟨row, -, h⟩ := bind_eq_ok h
  obtain ⟨⟨written, after⟩, hx, h⟩ := bind_eq_ok h
  dsimp only at h
  split_ifs at h
  cases h
  exact Tables.upsertReservation_sameTags (Dialect.executed_eq_ok hx)

theorem Leases.delete_sameTags {d : Dialect} {key : Key}
    (h : Leases.delete d t key = .ok changed) : t.SameTags changed :=
  Tables.deleteReservation_sameTags (Dialect.executed_eq_ok h)

end Tables

namespace Request

variable (d : Dialect) (t : Tables)

/-- Tables that come of a change have what all tables have that the change can leave. -/
theorem changing_induction {P : Tables → Prop} {x : Except Error Tables} (same : P t)
    (changed : ∀ t', x = .ok t' → P t') : P (Request.changing t x).2 := by
  cases x with
  | error e => exact same
  | ok t' => exact changed t' rfl

theorem perform_reservations {r : Request} (h : r.onLeases = false) :
    (r.perform d t).2.reservations = t.reservations := by
  cases r with
  | getTag => rfl
  | createArtifact a =>
    refine changing_induction t (P := fun t' => t'.reservations = t.reservations) rfl ?_
    intro t' ht'
    obtain ⟨row, -, ht'⟩ := bind_eq_ok ht'
    exact Tables.insertArtifact_reservations (Dialect.executed_eq_ok ht')
  | addTag key id now =>
    refine changing_induction t (P := fun t' => t'.reservations = t.reservations) rfl ?_
    intro t' ht'
    obtain ⟨row, -, ht'⟩ := bind_eq_ok ht'
    obtain ⟨⟨written, t''⟩, hx, ht'⟩ := bind_eq_ok ht'
    dsimp only at ht'
    split_ifs at ht'
    cases ht'
    exact Tables.upsertTag_reservations (Dialect.executed_eq_ok hx)
  | get => cases h
  | create => cases h
  | update => cases h
  | createOrUpdate => cases h
  | delete => cases h

/-- A request about leases leaves what a key stands for. -/
theorem perform_sameTags {r : Request} (h : r.onLeases = true) : t.SameTags (r.perform d t).2 := by
  cases r with
  | get => exact .refl t
  | create r =>
    refine changing_induction t (P := t.SameTags) (.refl t) ?_
    intro t' ht'
    obtain ⟨row, -, ht'⟩ := bind_eq_ok ht'
    exact Tables.insertReservation_sameTags (Dialect.executed_eq_ok ht')
  | update u =>
    rw [perform_update]
    cases hu : Leases.update d t u with
    | error e => exact .refl t
    | ok result =>
      obtain ⟨texts, -, hu⟩ := bind_eq_ok hu
      exact Tables.updateReservation_sameTags (Dialect.executed_eq_ok hu)
  | createOrUpdate r now =>
    exact changing_induction t (P := t.SameTags) (.refl t) fun _ => Leases.createOrUpdate_sameTags
  | delete key =>
    exact changing_induction t (P := t.SameTags) (.refl t) fun _ => Leases.delete_sameTags
  | getTag => cases h
  | createArtifact => cases h
  | addTag => cases h

end Request

/-! ## Other leases -/

theorem LeaseMap.lookup_changing {m : LeaseMap} {x : Except Error LeaseMap} {key : Key}
    (h : ∀ m', x = .ok m' → m'.lookup key = m.lookup key) :
    (LeaseMap.changing m x).2.lookup key = m.lookup key := by
  cases x with
  | error e => rfl
  | ok m' => exact h m' rfl

theorem LeaseMap.stores_lookup (d : Dialect) (m : LeaseMap) {r : Request} {key : Key}
    (h : r.writtenKey? ≠ some key) : (LeaseMap.stores d r m).2.lookup key = m.lookup key := by
  cases r with
  | get => rfl
  | create r =>
    have hk : key ≠ r.key := fun hk => h (congrArg some hk.symm)
    refine LeaseMap.lookup_changing fun m' hm' => ?_
    obtain ⟨-, -, hm'⟩ := bind_eq_ok hm'
    split_ifs at hm'
    cases hm'
    exact Finmap.lookup_insert_of_ne _ hk
  | update u =>
    have hk : key ≠ u.key := fun hk => h (congrArg some hk.symm)
    rw [LeaseMap.stores_update]
    cases hu : m.update u with
    | error e => rfl
    | ok result =>
      obtain ⟨-, -, hu⟩ := bind_eq_ok hu
      split at hu
      · cases hu
        rfl
      · split_ifs at hu
        · cases hu
          exact Finmap.lookup_insert_of_ne _ hk
        · cases hu
          rfl
  | createOrUpdate r now =>
    have hk : key ≠ r.key := fun hk => h (congrArg some hk.symm)
    refine LeaseMap.lookup_changing fun m' hm' => ?_
    obtain ⟨-, -, hm'⟩ := bind_eq_ok hm'
    split at hm'
    · cases hm'
      exact Finmap.lookup_insert_of_ne _ hk
    · split_ifs at hm'
      cases hm'
      exact Finmap.lookup_insert_of_ne _ hk
  | delete key' => exact Finmap.lookup_erase_ne fun hk => h (congrArg some hk.symm)
  | getTag => rfl
  | createArtifact => rfl
  | addTag => rfl

namespace Tables.Holds

variable {t : Tables} {m : LeaseMap}

/-- Tables that were there before stay as they are when the missing ones are created. -/
theorem create_tables (h : t.Holds m) : t.create.Holds m := by
  obtain ⟨rows, hrows, hold⟩ := h
  refine ⟨rows, ?_, hold⟩
  rw [Tables.create, hrows]
  rfl

/-- After any request the tables hold a map of leases, which differs at most at one key. -/
theorem perform_frame (d : Dialect) (h : t.Holds m) (r : Request) :
    ∃ m', (r.perform d t).2.Holds m' ∧
      ∀ key, r.writtenKey? ≠ some key → m'.lookup key = m.lookup key := by
  cases hr : r.onLeases with
  | true => exact ⟨_, (h.perform d hr).2, fun key => LeaseMap.stores_lookup d m⟩
  | false =>
    obtain ⟨rows, hrows, hold⟩ := h
    exact ⟨m, ⟨rows, (Request.perform_reservations d t hr).trans hrows, hold⟩, fun _ _ => rfl⟩

/-- What a key's row is depends on its lease only. -/
theorem selectReservation_congr {t' : Tables} {m' : LeaseMap} (h : t.Holds m) (h' : t'.Holds m')
    {key : Key} (hk : m'.lookup key = m.lookup key) :
    t'.selectReservation key = t.selectReservation key := by
  rw [h.selectReservation key, h'.selectReservation key, hk]

/-- An accepted write: the key had no lease or one that the writer may claim at the instant that is
shown, and it has the writer's then. -/
theorem createOrUpdate_ok {d : Dialect} (h : t.Holds m) {r : Reservation} {now : Instant}
    {t' : Tables} (hw : Leases.createOrUpdate d t r now = .ok t') :
    (∀ e, m.lookup r.key = some e → (e.on r.key).isClaimableBy r.owner now.shown = true) ∧
      ∃ e : Entry, t'.Holds (m.insert r.key e) ∧
        e.grant = ⟨r.owner, r.expiresAt.kept, r.metadata⟩ := by
  have agree := h.createOrUpdate d r now
  rw [hw] at agree
  generalize hm : m.createOrUpdate r now = result at agree
  cases agree with
  | ok hold =>
    obtain ⟨-, -, hm⟩ := bind_eq_ok hm
    cases hk : m.lookup r.key with
    | none =>
      rw [hk] at hm
      cases hm
      refine ⟨?_, _, hold, rfl⟩
      intro e he
      cases he
    | some old =>
      rw [hk] at hm
      dsimp only at hm
      split_ifs at hm with claim
      cases hm
      refine ⟨?_, _, hold, rfl⟩
      intro e he
      cases he
      exact claim

/-- A write of instants that rows can hold is accepted if the writer may claim what is there. -/
theorem createOrUpdate_accepted (d : Dialect) (h : t.Holds m) {r : Reservation} {now : Instant}
    (storable : ∀ x ∈ [r.expiresAt, r.createdAt, r.updatedAt, now], x.Storable)
    (claimable : ∀ e, m.lookup r.key = some e → (e.on r.key).isClaimableBy r.owner now = true) :
    ∃ t', Leases.createOrUpdate d t r now = .ok t' := by
  have agree := h.createOrUpdate d r now
  have accepted : ∃ m', m.createOrUpdate r now = .ok m' := by
    unfold LeaseMap.createOrUpdate
    rw [checkStorable_eq_ok_iff.mpr storable, ok_bind]
    cases he : m.lookup r.key with
    | none => exact ⟨_, rfl⟩
    | some e => exact ⟨_, if_pos (Reservation.isClaimableBy_shown (claimable e he))⟩
  obtain ⟨m', hm'⟩ := accepted
  rw [hm'] at agree
  generalize Leases.createOrUpdate d t r now = result at agree
  cases agree with
  | ok hold => exact ⟨_, rfl⟩

/-- A write over a lease that the writer may not claim at the instant that is shown is a conflict. -/
theorem createOrUpdate_refused (d : Dialect) (h : t.Holds m) {r : Reservation} {now : Instant}
    (storable : ∀ x ∈ [r.expiresAt, r.createdAt, r.updatedAt, now], x.Storable) {e : Entry}
    (he : m.lookup r.key = some e) (live : ¬ (e.on r.key).isClaimableBy r.owner now.shown = true) :
    Leases.createOrUpdate d t r now = .error (.heldByAnother r.key) := by
  have agree := h.createOrUpdate d r now
  have refused : m.createOrUpdate r now = .error (.heldByAnother r.key) := by
    unfold LeaseMap.createOrUpdate
    rw [checkStorable_eq_ok_iff.mpr storable, ok_bind, he]
    exact if_neg live
  rw [refused] at agree
  generalize Leases.createOrUpdate d t r now = result at agree
  cases agree with
  | error => rfl

end Tables.Holds

/-! ## Steps of a session -/

theorem Tables.Holds.run {α : Type} (d : Dialect) (now : Instant) (call : Call α) {t : Tables}
    {m : LeaseMap} (h : t.Holds m) (c : Counters) :
    ∃ m', (call.run (.ofTables d) now t c).state.Holds m' := by
  induction call generalizing t m c with
  | done result => exact ⟨m, h⟩
  | readClock next ih => exact ih now h c
  | record event next ih => exact ih h (c.record event)
  | ask request next ih =>
    obtain ⟨m', h', -⟩ := h.perform_frame d request
    exact ih _ h' c

/-- Tables that hold a map of leases hold one after every step. -/
theorem Tables.Holds.step {s : Session} {m : LeaseMap} (h : s.tables.Holds m) (x : Step) :
    ∃ m', (s.step x).2.tables.Holds m' := by
  cases x with
  | serve i operation =>
    exact h.run s.dialect (s.managers i).clock.now (operation.call (s.managers i).timing)
      (s.managers i).counters
  | ask request =>
    obtain ⟨m', h', -⟩ := h.perform_frame s.dialect request
    exact ⟨m', h'⟩
  | move i how => exact ⟨m, h⟩
  | initialise => exact ⟨m, h.create_tables⟩

end LeaseCatalog
