import LeaseCatalog.Proofs.Rows

/-!
# The store of leases is a finite map

The rows of the table `reservations` hold texts, and the statements that decide whether a lease may
be written compare texts. Here both are shown to be invisible: each operation on tables that hold a
map of leases gives what it gives on the map, and leaves tables that hold the map it leaves. By
induction over the requests, a store that begins without rows answers as `LeaseMap.stores` does
(`stored_leases_refine_map`). The map keeps and compares instants as texts show them, which makes a
difference in leap seconds within a minute only (`overwritten_within_leap`).

What makes it work is that all texts have the same length and are in the order of what is kept of
their instants (see `LeaseCatalog.Proofs.Timestamps`), and that nothing is written which has no such
text.
-/

namespace LeaseCatalog

/-! ## Instants and their texts -/

theorem storedText_eq (t : Instant) :
    storedText t = if t.Storable then .ok (Timestamp.text t) else .error (.notStorable t) := by
  unfold storedText
  rw [Timestamp.encode?_eq]
  split_ifs <;> rfl

theorem storedInstant_of_storable (column : String) {t : Instant} (h : t.Storable) :
    storedInstant column (Timestamp.text t) = .ok t.kept := by
  unfold storedInstant
  rw [Timestamp.decode_text h]

theorem storedInstant_text (column : String) {t : Instant} (h : t.Storable)
    (kept : t.kept = t) : storedInstant column (Timestamp.text t) = .ok t :=
  (storedInstant_of_storable column h).trans (congrArg Except.ok kept)

theorem checkStorable_eq_ok_iff {instants : List Instant} :
    checkStorable instants = .ok () ↔ ∀ t ∈ instants, t.Storable := by
  induction instants with
  | nil => simp [checkStorable]
  | cons t rest ih =>
    rw [List.forall_mem_cons, ← ih, checkStorable]
    split_ifs with h <;> simp [h]

/-- The first instant that rows cannot hold is the one that is refused. -/
theorem checkStorable_eq_error {instants : List Instant} {t : Instant} (ht : t ∈ instants)
    (h : ¬ t.Storable) :
    ∃ u ∈ instants, ¬ u.Storable ∧ checkStorable instants = .error (.notStorable u) := by
  induction instants with
  | nil => cases ht
  | cons u rest ih =>
    by_cases hu : u.Storable
    · have ht : t ∈ rest := by
        rcases List.mem_cons.mp ht with rfl | ht
        · exact absurd hu h
        · exact ht
      obtain ⟨v, hv, hv', hcheck⟩ := ih ht
      refine ⟨v, List.mem_cons_of_mem _ hv, hv', ?_⟩
      rw [checkStorable, if_pos hu, hcheck]
    · exact ⟨u, List.mem_cons_self, hu, if_neg hu⟩

namespace Entry

/-- The row of a reservation that rows can hold is the row of what is kept of it. -/
theorem row_of (r : Reservation) :
    (Entry.of r).row r.key = ⟨r.key, r.owner, Timestamp.text r.expiresAt,
      Timestamp.text r.createdAt, Timestamp.text r.updatedAt, r.metadata⟩ := by
  simp only [Entry.row, Entry.of, Timestamp.text_kept]

theorem whole_of {r : Reservation} (he : r.expiresAt.Storable) (hc : r.createdAt.Storable)
    (hu : r.updatedAt.Storable) : (Entry.of r).Whole :=
  ⟨Timestamp.storable_kept.mpr he, Timestamp.storable_kept.mpr hc, Timestamp.storable_kept.mpr hu,
    Instant.kept_kept _, Instant.kept_kept _, Instant.kept_kept _⟩

/-- The expiry has passed in the row exactly if it has passed at the instant that is shown. -/
theorem Whole.text_le_iff {e : Entry} (h : e.Whole) (key : Key) {now : Instant}
    (hnow : now.Storable) :
    (e.row key).expiresAt ≤ Timestamp.text now ↔ (e.on key).expiresAt ≤ now.shown := by
  change Timestamp.text e.expiresAt ≤ _ ↔ e.expiresAt ≤ now.shown
  rw [Timestamp.text_le_iff h.expiresAt_storable hnow, Instant.kept_le_kept_iff, h.expiresAt_kept]

/-- The row has an expected expiry exactly if the lease has what is kept of it. -/
theorem Whole.text_eq_iff {e : Entry} (h : e.Whole) (key : Key) {expected : Instant}
    (hexp : expected.Storable) :
    (e.row key).expiresAt = Timestamp.text expected ↔
      (e.on key).expiresAt = expected.kept := by
  change Timestamp.text e.expiresAt = _ ↔ e.expiresAt = expected.kept
  rw [Timestamp.text_inj h.expiresAt_storable hexp, h.expiresAt_kept]

/-- The texts admit the same writers as the instants. -/
theorem Whole.claimable_iff {e : Entry} (h : e.Whole) (key : Key) (owner : String)
    {now : Instant} (hnow : now.Storable) :
    (e.row key).expiresAt ≤ Timestamp.text now ∨ (e.row key).owner = owner ↔
      (e.on key).isClaimableBy owner now.shown = true := by
  rw [Reservation.isClaimableBy_iff, h.text_le_iff key hnow]
  rfl

end Entry

theorem Reservation.toRow_eq (r : Reservation) :
    r.toRow = checkStorable [r.expiresAt, r.createdAt, r.updatedAt] >>= fun _ =>
      .ok ((Entry.of r).row r.key) := by
  unfold Reservation.toRow
  rw [Entry.row_of, storedText_eq, storedText_eq, storedText_eq]
  simp only [checkStorable]
  split_ifs <;> rfl

theorem Reservation.ofRow_row {e : Entry} (h : e.Whole) (key : Key) :
    Reservation.ofRow (e.row key) = .ok (e.on key) := by
  unfold Reservation.ofRow Entry.row
  dsimp only
  rw [storedInstant_text _ h.expiresAt_storable h.expiresAt_kept, ok_bind,
    storedInstant_text _ h.createdAt_storable h.createdAt_kept, ok_bind,
    storedInstant_text _ h.updatedAt_storable h.updatedAt_kept, ok_bind]
  rfl

theorem Leases.rowAt_eq (r : Reservation) (now : Instant) :
    Leases.rowAt r now = checkStorable [r.expiresAt, r.createdAt, r.updatedAt, now] >>= fun _ =>
      .ok ((Entry.of r).row r.key, Timestamp.text now) := by
  unfold Leases.rowAt
  rw [Reservation.toRow_eq, storedText_eq]
  simp only [checkStorable]
  split_ifs <;> rfl

theorem Leases.Update.texts_eq (u : Leases.Update) :
    u.texts = checkStorable [u.expiresAt, u.now, u.expected] >>= fun _ =>
      .ok (Timestamp.text u.expiresAt, Timestamp.text u.now, Timestamp.text u.expected) := by
  unfold Leases.Update.texts
  rw [storedText_eq, storedText_eq, storedText_eq]
  simp only [checkStorable]
  split_ifs <;> rfl

/-! ## Operations -/

@[simp] theorem Dialect.executed_ok {α : Type} (d : Dialect) (a : α) : d.executed (.ok a) = .ok a :=
  rfl

@[simp] theorem Dialect.executed_error {α : Type} (d : Dialect) (f : Failure) :
    d.executed (.error f : Except Failure α) = .error (d.translate f) := rfl

/-- A missing row is the same to all dialects. -/
@[simp] theorem Dialect.translate_rowNotFound (d : Dialect) :
    d.translate .rowNotFound = .entryNotFound := by
  cases d <;> rfl

/-- A result from tables and the same result from a map. -/
inductive Agree : Except Error Tables → Except Error LeaseMap → Prop where
  /-- Both succeed, and the tables then hold the map. -/
  | ok {t : Tables} {m : LeaseMap} (h : t.Holds m) : Agree (.ok t) (.ok m)
  /-- Both fail in the same way. -/
  | error (e : Error) : Agree (.error e) (.error e)

section Operations

variable {t : Tables} {m : LeaseMap} (d : Dialect)

theorem Tables.Holds.get (h : t.Holds m) (key : Key) : Leases.get d t key = m.get key := by
  unfold Leases.get LeaseMap.get
  rw [h.selectReservation key]
  cases he : m.lookup key with
  | none => simp
  | some e => simpa using Reservation.ofRow_row (h.whole he) key

/-- A row that is found is the row of a lease, and the lease is what the store gives. -/
theorem Tables.Holds.held_of_row (h : t.Holds m) {key : Key} {row : ReservationRow}
    (hrow : t.selectReservation key = .ok row) :
    ∃ e : Entry, e.Whole ∧ e.row key = row ∧ Leases.get d t key = .ok (e.on key) := by
  rw [h.get d key, LeaseMap.get]
  rw [h.selectReservation key] at hrow
  cases he : m.lookup key with
  | none =>
    rw [he] at hrow
    cases hrow
  | some e =>
    rw [he] at hrow
    exact ⟨e, h.whole he, Except.ok.inj hrow, rfl⟩

theorem Tables.Holds.create (h : t.Holds m) (r : Reservation) :
    Agree (Leases.create d t r) (m.create d r) := by
  unfold Leases.create LeaseMap.create
  rw [Reservation.toRow_eq]
  cases hs : checkStorable [r.expiresAt, r.createdAt, r.updatedAt] with
  | error e => exact .error e
  | ok =>
    have hs := checkStorable_eq_ok_iff.mp hs
    simp only [List.forall_mem_cons] at hs
    obtain ⟨he, hc, hu, -⟩ := hs
    rw [ok_bind, ok_bind, ok_bind]
    by_cases hk : r.key ∈ m
    · rw [h.insertReservation_present hk, if_pos hk]
      exact .error _
    · obtain ⟨t', ht', hold⟩ := h.insertReservation_absent hk (Entry.whole_of he hc hu)
      rw [ht', if_neg hk]
      exact .ok hold

theorem Tables.Holds.createOrUpdate (h : t.Holds m) (r : Reservation) (now : Instant) :
    Agree (Leases.createOrUpdate d t r now) (m.createOrUpdate r now) := by
  unfold Leases.createOrUpdate LeaseMap.createOrUpdate
  rw [Leases.rowAt_eq]
  cases hs : checkStorable [r.expiresAt, r.createdAt, r.updatedAt, now] with
  | error e => exact .error e
  | ok =>
    have hs := checkStorable_eq_ok_iff.mp hs
    simp only [List.forall_mem_cons] at hs
    obtain ⟨he, hc, hu, hnow, -⟩ := hs
    have hnew := Entry.whole_of he hc hu
    rw [ok_bind, ok_bind, ok_bind]
    dsimp only
    cases hk : m.lookup r.key with
    | none =>
      obtain ⟨t', ht', hold⟩ := h.upsertReservation_absent hk hnew (Timestamp.text now)
      rw [ht']
      exact .ok hold
    | some old =>
      have claim := (h.whole hk).claimable_iff r.key r.owner hnow
      dsimp only
      by_cases hclaim : (old.on r.key).isClaimableBy r.owner now.shown = true
      · obtain ⟨t', ht', hold⟩ :=
          h.upsertReservation_present hk hnew (Timestamp.text now) (claim.mpr hclaim)
        rw [ht', if_pos hclaim]
        exact .ok hold
      · rw [h.upsertReservation_refused hk _ _ fun hc => hclaim (claim.mp hc), if_neg hclaim]
        exact .error _

theorem Tables.Holds.update (h : t.Holds m) (u : Leases.Update) :
    (∃ n t' m', Leases.update d t u = .ok (n, t') ∧ m.update u = .ok (n, m') ∧ t'.Holds m') ∨
      ∃ e, Leases.update d t u = .error e ∧ m.update u = .error e := by
  unfold Leases.update LeaseMap.update
  rw [Leases.Update.texts_eq]
  cases hs : checkStorable [u.expiresAt, u.now, u.expected] with
  | error e => exact .inr ⟨e, rfl, rfl⟩
  | ok =>
    have hs := checkStorable_eq_ok_iff.mp hs
    simp only [List.forall_mem_cons] at hs
    obtain ⟨he, hn, hx, -⟩ := hs
    rw [ok_bind, ok_bind, ok_bind]
    dsimp only
    left
    by_cases hit : ∃ old, m.lookup u.key = some old ∧ old.expiresAt = u.expected.kept
    · obtain ⟨old, hk, hexp⟩ := hit
      have hnew : Entry.Whole { old with
          owner := u.owner
          expiresAt := u.expiresAt.kept
          updatedAt := u.now.kept } :=
        { h.whole hk with
          expiresAt_storable := Timestamp.storable_kept.mpr he
          updatedAt_storable := Timestamp.storable_kept.mpr hn
          expiresAt_kept := Instant.kept_kept _
          updatedAt_kept := Instant.kept_kept _ }
      obtain ⟨t', ht', hold⟩ := h.updateReservation_hit hk u.owner hnew
      rw [Timestamp.text_kept, Timestamp.text_kept, hexp, Timestamp.text_kept] at ht'
      rw [ht', hk]
      dsimp only
      rw [if_pos hexp]
      exact ⟨1, t', _, rfl, rfl, hold⟩
    · -- texts of which something else is kept differ, so no row matches
      have miss : ∀ e, m.lookup u.key = some e →
          (e.row u.key).expiresAt ≠ Timestamp.text u.expected := by
        intro e hk heq
        exact hit ⟨e, hk, ((h.whole hk).text_eq_iff u.key hx).mp heq⟩
      rw [h.updateReservation_missed miss]
      refine ⟨0, t, m, rfl, ?_, h⟩
      cases hk : m.lookup u.key with
      | none => rfl
      | some e => exact if_neg fun hexp => hit ⟨e, hk, hexp⟩

theorem Tables.Holds.delete (h : t.Holds m) (key : Key) :
    ∃ t', Leases.delete d t key = .ok t' ∧ t'.Holds (m.erase key) := by
  obtain ⟨t', ht', hold⟩ := h.deleteReservation key
  exact ⟨t', by rw [Leases.delete, ht']; rfl, hold⟩

theorem Agree.changing (h : t.Holds m) {a : Except Error Tables} {b : Except Error LeaseMap}
    (agree : Agree a b) :
    (Request.changing t a).1 = (LeaseMap.changing m b).1 ∧
      (Request.changing t a).2.Holds (LeaseMap.changing m b).2 := by
  cases agree with
  | ok hold => exact ⟨rfl, hold⟩
  | error e => exact ⟨rfl, h⟩

theorem Request.perform_update (t : Tables) (u : Leases.Update) :
    (Request.update u).perform d t =
      (match Leases.update d t u with
        | .ok (n, changed) => (.ok n, changed)
        | .error e => (.error e, t) : Except Error Nat × Tables) := rfl

theorem Request.perform_get (t : Tables) (key : Key) :
    (Request.get key).perform d t = (Leases.get d t key, t) := rfl

theorem Request.perform_createOrUpdate (t : Tables) (r : Reservation) (now : Instant) :
    (Request.createOrUpdate r now).perform d t =
      Request.changing t (Leases.createOrUpdate d t r now) := rfl

theorem Request.perform_delete (t : Tables) (key : Key) :
    (Request.delete key).perform d t = Request.changing t (Leases.delete d t key) := rfl

theorem LeaseMap.stores_update (m : LeaseMap) (u : Leases.Update) :
    LeaseMap.stores d (.update u) m =
      (match m.update u with
        | .ok (n, changed) => (.ok n, changed)
        | .error e => (.error e, m) : Except Error Nat × LeaseMap) := rfl

/-- A request about leases is answered from tables as from the map that they hold. -/
theorem Tables.Holds.perform (h : t.Holds m) {r : Request} (hr : r.onLeases = true) :
    (r.perform d t).1 = (LeaseMap.stores d r m).1 ∧
      (r.perform d t).2.Holds (LeaseMap.stores d r m).2 := by
  cases r with
  | get key => exact ⟨h.get d key, h⟩
  | create r => exact (h.create d r).changing h
  | update u =>
    rcases h.update d u with ⟨n, t', m', ht, hm, hold⟩ | ⟨e, ht, hm⟩
    · rw [Request.perform_update, LeaseMap.stores_update, ht, hm]
      exact ⟨rfl, hold⟩
    · rw [Request.perform_update, LeaseMap.stores_update, ht, hm]
      exact ⟨rfl, h⟩
  | createOrUpdate r now => exact (h.createOrUpdate d r now).changing h
  | delete key =>
    obtain ⟨t', ht, hold⟩ := h.delete d key
    rw [Request.perform_delete, ht]
    exact ⟨rfl, hold⟩
  | getTag => cases hr
  | createArtifact => cases hr
  | addTag => cases hr

/-- A request with an instant that rows cannot hold is refused for it, and changes nothing. -/
theorem Request.perform_of_not_storable (t : Tables) {r : Request} {x : Instant}
    (hx : x ∈ r.leaseInstants) (h : ¬ x.Storable) :
    ∃ y ∈ r.leaseInstants, ¬ y.Storable ∧ r.perform d t = (.error (.notStorable y), t) := by
  obtain ⟨y, hy, hys, check⟩ := checkStorable_eq_error hx h
  refine ⟨y, hy, hys, ?_⟩
  cases r with
  | create r =>
    have : Leases.create d t r = .error (.notStorable y) := by
      rw [Leases.create, Reservation.toRow_eq]
      exact congrArg (· >>= _ >>= _) check
    exact congrArg (Request.changing t) this
  | createOrUpdate r now =>
    have : Leases.createOrUpdate d t r now = .error (.notStorable y) := by
      rw [Leases.createOrUpdate, Leases.rowAt_eq]
      exact congrArg (· >>= _ >>= _) check
    exact congrArg (Request.changing t) this
  | update u =>
    have : Leases.update d t u = .error (.notStorable y) := by
      rw [Leases.update, Leases.Update.texts_eq]
      exact congrArg (· >>= _ >>= _) check
    rw [Request.perform_update, this]
    rfl
  | get => cases hx
  | delete => cases hx
  | getTag => cases hx
  | createArtifact => cases hx
  | addTag => cases hx

end Operations

/-! ## Runs -/

theorem Tables.Holds.answers (d : Dialect) {requests : List Request} {t : Tables} {m : LeaseMap}
    (h : t.Holds m) (leases : ∀ r ∈ requests, r.onLeases = true) :
    ((Stores.ofTables d).answers t requests).1 = ((LeaseMap.stores d).answers m requests).1 ∧
      ((Stores.ofTables d).answers t requests).2.Holds
        ((LeaseMap.stores d).answers m requests).2 := by
  induction requests generalizing t m with
  | nil => exact ⟨rfl, h⟩
  | cons r rest ih =>
    obtain ⟨answer, hold⟩ := h.perform d (leases r List.mem_cons_self)
    obtain ⟨answers, holds⟩ := ih hold fun x hx => leases x (List.mem_cons_of_mem _ hx)
    refine ⟨?_, holds⟩
    have head : (Sigma.mk r (r.perform d t).1 : (r : Request) × r.Answer) =
        ⟨r, (LeaseMap.stores d r m).1⟩ := congrArg (Sigma.mk r) answer
    exact congrArg₂ List.cons head answers

end LeaseCatalog
