import LeaseCatalog.Proofs.Exchanges

/-!
# Keys that are open to a claim

A key is open to a claim if it is free, or if it has a lease that the claim may overwrite. Nothing is
said here of the rows of other keys: they may have been edited into anything.

A caller who contends by itself for a key that is open to its claim is stopped by nobody else. If
there is a lease that rows can hold, the caller acquires it, and the row of the key is then that
lease's (`Tables.OpenTo.acquires`). If not, the call fails and leaves the tables
(`Tables.OpenTo.run_leaseless`, `Tables.OpenTo.run_unstorable`).
-/

namespace LeaseCatalog

/-! ## Free keys -/

namespace Tables

variable {t t' : Tables} {key : Key}

/-- The table of reservations is there, and has no row of a key. -/
def Free (t : Tables) (key : Key) : Prop :=
  ∃ rows, t.reservations = some rows ∧ ∀ r ∈ rows, r.key ≠ key

theorem Free.find? {rows : List ReservationRow} (h : ∀ r ∈ rows, r.key ≠ key) :
    rows.find? (·.key == key) = none := by
  rw [List.find?_eq_none]
  intro r hr
  simpa using h r hr

theorem Free.row? (h : t.Free key) : t.row? key = none := by
  obtain ⟨rows, hrows, none⟩ := h
  rw [row?_of_rows hrows, Free.find? none]

theorem free_iff : t.Free key ↔ t.selectReservation key = .error .rowNotFound := by
  constructor
  · rintro ⟨rows, hrows, none⟩
    unfold selectReservation
    rw [hrows, Tables.rows, ok_bind, Free.find? none]
  · intro h
    unfold selectReservation at h
    cases hrows : t.reservations with
    | none =>
      rw [hrows] at h
      cases h
    | some rows =>
      rw [hrows, Tables.rows, ok_bind] at h
      cases hfind : rows.find? (·.key == key) with
      | none => exact ⟨rows, hrows, by simpa using hfind⟩
      | some row =>
        rw [hfind] at h
        cases h

theorem Free.upsertReservation {row : ReservationRow} (h : t.Free row.key) (now : String) :
    ∃ t', t.upsertReservation row now = .ok (true, t') := by
  obtain ⟨rows, hrows, none⟩ := h
  unfold Tables.upsertReservation
  rw [hrows, Tables.rows, ok_bind, Free.find? none]
  exact ⟨_, rfl⟩

theorem upsertReservation_accepted {row old : ReservationRow} {now : String}
    (hold : t.row? row.key = some old) (may : old.expiresAt ≤ now ∨ old.owner = row.owner) :
    ∃ t', t.upsertReservation row now = .ok (true, t') := by
  obtain ⟨rows, hrows, hfind⟩ := Option.bind_eq_some_iff.mp hold
  unfold Tables.upsertReservation
  rw [hrows, Tables.rows, ok_bind, hfind]
  exact ⟨_, if_pos may⟩

end Tables

namespace Leases

variable {d : Dialect} {t : Tables} {key : Key}

theorem get_of_row? {row : ReservationRow} (h : t.row? key = some row) :
    get d t key = Reservation.ofRow row := by
  unfold get
  rw [Tables.selectReservation_eq_ok_iff.mpr h, Dialect.executed_ok, ok_bind]

theorem get_of_free (h : t.Free key) : get d t key = .error .entryNotFound := by
  unfold get
  rw [Tables.free_iff.mp h, Dialect.executed_error, Dialect.translate_rowNotFound, error_bind]

end Leases

/-! ## Open keys -/

/-- What makes a key open to a claim at `now`. -/
inductive Tables.OpenTo (t : Tables) (c : Claim) (now : Instant) : Prop where
  /-- The key is free. -/
  | free (h : t.Free c.key)
  /-- The key has a lease that the claim may overwrite, by the instants of its row and by their
  texts. The two agree on every row that the store has written. -/
  | claimable {row : ReservationRow} {r : Reservation} (found : t.row? c.key = some row)
      (decoded : Reservation.ofRow row = .ok r) (may : r.isClaimableBy c.owner now = true)
      (admitted : now.Storable → row.expiresAt ≤ Timestamp.text now ∨ row.owner = c.owner)

/-- Where all rows are the store's, a key is open to a claim exactly if what the store gives for it,
if anything, may be claimed. -/
theorem Tables.Holds.openTo_iff {t : Tables} {m : LeaseMap} (h : t.Holds m) (d : Dialect)
    {c : Claim} {now : Instant} :
    t.OpenTo c now ↔ ∀ r, Leases.get d t c.key = .ok r → r.isClaimableBy c.owner now = true := by
  constructor
  · rintro (free | ⟨found, decoded, may, -⟩) r hr
    · rw [Leases.get_of_free free] at hr
      cases hr
    · rw [Leases.get_of_row? found, decoded] at hr
      cases hr
      exact may
  · intro claimable
    have select := h.selectReservation c.key
    cases he : m.lookup c.key with
    | none =>
      rw [he] at select
      exact .free (free_iff.mpr select)
    | some e =>
      rw [he] at select
      have whole := h.whole he
      have found := selectReservation_eq_ok_iff.mp select
      have decoded := Reservation.ofRow_row whole c.key
      have may := claimable _ ((Leases.get_of_row? found).trans decoded)
      refine .claimable found decoded may fun hnow => ?_
      exact (whole.claimable_iff c.key c.owner hnow).mpr (Reservation.isClaimableBy_shown may)

namespace Tables.OpenTo

variable {t : Tables} {c : Claim} {now : Instant} (d : Dialect)

theorem mayWrite (h : t.OpenTo c now) : c.MayWrite now (Leases.get d t c.key) := by
  cases h with
  | free h =>
    rw [Leases.get_of_free h]
    rfl
  | claimable found decoded may =>
    rw [Leases.get_of_row? found, decoded]
    exact may

theorem createOrUpdate (h : t.OpenTo c now) {ends : Instant} (storable : ends.Storable)
    (now_storable : now.Storable) :
    ∃ t', Leases.createOrUpdate d t (.taken c.key c.owner ends now c.metadata) now = .ok t' := by
  have texts : checkStorable [ends, now, now, now] = .ok () := by
    rw [checkStorable_eq_ok_iff]
    simp [storable, now_storable]
  -- The statement compares texts, so it is `admitted` that counts here and not `may`.
  have accepted : ∃ t', t.upsertReservation
      ((Entry.of (.taken c.key c.owner ends now c.metadata)).row c.key) (Timestamp.text now) =
        .ok (true, t') := by
    cases h with
    | free h => exact Free.upsertReservation h _
    | claimable found _ _ admitted => exact upsertReservation_accepted found (admitted now_storable)
  obtain ⟨t', ht'⟩ := accepted
  refine ⟨t', ?_⟩
  unfold Leases.createOrUpdate
  rw [Leases.rowAt_eq]
  change (checkStorable [ends, now, now, now] >>= _) >>= _ = _
  rw [texts, ok_bind, ok_bind]
  change d.executed (t.upsertReservation
    ((Entry.of (.taken c.key c.owner ends now c.metadata)).row c.key) _) >>= _ = _
  rw [ht']
  rfl

end Tables.OpenTo

/-! ## Contending for an open key -/

namespace Tables.OpenTo

variable {α : Type} {t : Tables} {c : Claim} {timing : LeaseTiming} {now ends : Instant}
  (failure : Event) (give : Attempt → α) (counters : Counters)

/-- A caller who contends for an open key gets as far as the write. -/
theorem run_contend (h : t.OpenTo c now) (d : Dialect) :
    ∃ free, (if free then .acquiredByCreation else .acquiredByUpdate) =
        Event.acquiredAfter (Leases.get d t c.key) ∧
      (Call.contend c timing failure give).run (.ofTables d) now t counters =
        (Call.write c timing now free failure give).run (.ofTables d) now t counters := by
  have may := h.mayWrite d
  rw [Call.contend_eq, Call.run_readClock, Call.run_ask, Request.perform_get]
  cases look : Leases.get d t c.key with
  | ok current =>
    rw [look] at may
    exact ⟨false, rfl, by rw [Call.looked_claimable rfl may]⟩
  | error e =>
    rw [look] at may
    have missing : foundOrNone (.error e : Except Error Reservation) = .ok none := if_pos may
    exact ⟨true, rfl, by rw [Call.looked_none missing]⟩

/-- If rows can hold the lease, it is written. -/
theorem run_lasting (h : t.OpenTo c now) (d : Dialect) (lasts : timing.Lasts now ends) :
    ∃ t', Leases.createOrUpdate d t (.taken c.key c.owner ends now c.metadata) now = .ok t' ∧
      (Call.contend c timing failure give).run (.ofTables d) now t counters =
        ⟨.ok (give ⟨true, .taken c.key c.owner ends now c.metadata⟩), t',
          counters.record (.acquiredAfter (Leases.get d t c.key))⟩ := by
  obtain ⟨t', written⟩ := h.createOrUpdate d lasts.ends_storable lasts.now_storable
  obtain ⟨free, counted, run⟩ := h.run_contend failure give counters d
  refine ⟨t', written, ?_⟩
  rw [run, Call.write_eq (lasts.lease? c), Call.run_ask, Request.perform_createOrUpdate, written,
    ← counted]
  rfl

theorem run_leaseless (h : t.OpenTo c now) (d : Dialect) {e : Error}
    (undefined : c.lease? timing now = .error e) :
    (Call.contend c timing failure give).run (.ofTables d) now t counters =
      ⟨.error e, t, counters.record failure⟩ := by
  obtain ⟨free, -, run⟩ := h.run_contend failure give counters d
  rw [run]
  unfold Call.write
  rw [undefined]
  rfl

/-- If rows cannot hold the lease, the caller is told one of its instants. -/
theorem run_unstorable (h : t.OpenTo c now) (d : Dialect)
    (defined : c.lease? timing now = .ok (.taken c.key c.owner ends now c.metadata))
    (unstorable : ¬ (now.Storable ∧ ends.Storable)) :
    ∃ x, (Call.contend c timing failure give).run (.ofTables d) now t counters =
      ⟨.error (.notStorable x), t, counters.record failure⟩ := by
  obtain ⟨free, -, run⟩ := h.run_contend failure give counters d
  have instants : ∃ x ∈ (Request.createOrUpdate
      (.taken c.key c.owner ends now c.metadata) now).leaseInstants, ¬ x.Storable := by
    by_cases hnow : now.Storable
    · exact ⟨ends, List.mem_cons_self, fun hends => unstorable ⟨hnow, hends⟩⟩
    · exact ⟨now, List.mem_cons_of_mem _ List.mem_cons_self, hnow⟩
  obtain ⟨y, hy, hystorable⟩ := instants
  obtain ⟨x, -, -, refused⟩ := Request.perform_of_not_storable d t hy hystorable
  refine ⟨x, ?_⟩
  rw [run, Call.write_eq defined, Call.run_ask, refused]
  rfl

end Tables.OpenTo

/-! ## Operations that contend -/

namespace Operation

/-- An operation with a claim comes to contending, where the key stands for no artifact. -/
theorem exists_contend {operation : Operation} {c : Claim} (hc : operation.claim? = some c)
    (valid : c.validate = .ok ()) (timing : LeaseTiming) :
    ∃ (failure : Event) (give : Attempt → Reply),
      (∀ now ends, give ⟨true, .taken c.key c.owner ends now c.metadata⟩ =
        operation.reply [] timing now ends) ∧
      ∀ (d : Dialect) (t : Tables) (now : Instant) (counters : Counters),
        t.selectTag c.key = .error .rowNotFound →
          (operation.call timing).run (.ofTables d) now t counters =
            (Call.contend c timing failure give).run (.ofTables d) now t counters := by
  cases operation with
  | reserve c' =>
    cases hc
    refine ⟨.acquireFailed, fun attempt => .reserved (.status (attempt.status timing)),
      fun _ _ => rfl, ?_⟩
    intro d t now counters untagged
    exact reserve_run untagged d valid counters
  | extend c' =>
    cases hc
    refine ⟨.extendFailed, fun attempt => .extended (attempt.holder.toLease timing),
      fun _ _ => rfl, ?_⟩
    intro d t now counters _
    change (Call.extend timing c Reply.extended).run _ _ _ _ = _
    rw [Call.extend_eq timing _ valid]
  | release | get => cases hc

/-- A run by which a caller has acquired a lease that starts at `now` and ends at `ends`. -/
structure Acquires (operation : Operation) (c : Claim) (timing : LeaseTiming) (now ends : Instant)
    (d : Dialect) (t : Tables) (counters : Counters) (outcome : Call.Outcome Tables Reply) :
    Prop where
  /-- The lease lasts as long as the timing says. -/
  lasts : timing.EndsAt now ends
  /-- The caller is told of the lease, as if nobody else had ever acquired one. -/
  reply : outcome.result = .ok (operation.reply [] timing now ends)
  /-- The row of the key is that of the lease; only the time of creation stays that of the row that
  was there, if there was one. -/
  row : outcome.state.row? c.key = some ⟨c.key, c.owner, Timestamp.text ends,
    ((t.row? c.key).map (·.createdAt)).getD (Timestamp.text now), Timestamp.text now, c.metadata⟩
  /-- The rows of other keys are as they were. -/
  others : ∀ key ≠ c.key, outcome.state.row? key = t.row? key
  /-- So are artifacts and tags. -/
  tags : t.SameTags outcome.state
  /-- The lease is counted, as one on a free key or on a reserved one. -/
  counted : outcome.counters = counters.record (.acquiredAfter (Leases.get d t c.key))

example (timing : LeaseTiming) (now ends : Instant) (c : Claim) :
    (reserve c).reply [] timing now ends =
        .reserved (.status ⟨true, c.owner, ends, timing.heartbeatInterval⟩) ∧
      (extend c).reply [] timing now ends =
        .extended ⟨c.key, c.owner, ends, timing.heartbeatInterval, c.metadata⟩ :=
  ⟨rfl, rfl⟩

end Operation

/-- Who runs an operation on a key that is open to its claim, and could have a lease that rows can
hold, acquires it. -/
theorem Tables.OpenTo.acquires {t : Tables} {c : Claim} {now ends : Instant} (h : t.OpenTo c now)
    {operation : Operation} (hc : operation.claim? = some c) (valid : c.validate = .ok ())
    (untagged : t.selectTag c.key = .error .rowNotFound) {timing : LeaseTiming}
    (lasts : timing.Lasts now ends) (d : Dialect) (counters : Counters) :
    operation.Acquires c timing now ends d t counters
      ((operation.call timing).run (.ofTables d) now t counters) := by
  obtain ⟨failure, give, told, contends⟩ := Operation.exists_contend hc valid timing
  obtain ⟨t', written, run⟩ := h.run_lasting failure give counters d lasts
  have upsert := (Leases.createOrUpdate_eq_ok written).2
  rw [contends d t now counters untagged, run]
  exact
    { lasts := lasts.ttl
      reply := congrArg Except.ok (told now ends)
      row := Leases.row?_of_createOrUpdate written
      others := fun key hk => upsertReservation_row?_of_ne upsert hk.symm
      tags := Leases.createOrUpdate_sameTags written
      counted := rfl }

end LeaseCatalog
