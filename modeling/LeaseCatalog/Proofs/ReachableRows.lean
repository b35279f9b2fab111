import LeaseCatalog.Proofs.Outcomes

/-!
# The rows that calls leave

However the calls of managers alternate that are configured soundly, whatever their callers supply
and however the clocks are moved, all rows are as the store writes them: no key has two of them, the
store reads back what it wrote, key and owner are sound, and a lease ends so long after its last
write as the leases of one of the managers last (`Traffic.reachable_rows_sound`). So asking who
holds a lease never fails, and no lease is out of reach for longer than a week.

That the rows are those of a map of leases is known of every state already (`Traffic.inOrder_before`).
What remains is a fact about each row that is written (`Traffic.WritesAt.sound`), and no turn but a
write makes a row (`Traffic.rows_induction`).
-/

namespace LeaseCatalog

/-! ## A week -/

/-- The instants that rows can hold lie before the year 10000. -/
theorem Instant.Storable.seconds_lt {t : Instant} (h : t.Storable) : t.seconds < 253402300800 := by
  by_contra hlate
  have days : 2932897 ≤ t.days := by
    unfold Instant.days
    omega
  have year : 10000 ≤ t.date.year := Date.year_ge_of_late days
  have := h.2
  omega

/-- Seconds that are added outside leap seconds. -/
theorem Instant.addSeconds?_eq_some_iff {t u : Instant} {n : Nat} (pos : 0 < n)
    (ht : t.nanos < 1000000000) :
    t.addSeconds? n = some u ↔ u.seconds = t.seconds + n ∧ u.nanos = t.nanos := by
  unfold addSeconds?
  rw [if_neg (Nat.pos_iff_ne_zero.mp pos), ofParts?_eq_some_iff, Nat.mod_eq_of_lt ht]
  refine and_iff_right_of_imp fun parts => not_offMinute_of_lt ?_
  rwa [parts.2]

/-- A week after an instant that a row can hold there is an instant. -/
theorem Instant.Storable.exists_week {t : Instant} (h : t.Storable) (ht : t.nanos < 1000000000) :
    ∃ week, t.addSeconds? maxLeaseSeconds = some week := by
  have := h.seconds_lt
  have := t.seconds_ge
  refine ⟨⟨t.seconds + maxLeaseSeconds, t.nanos, ?_, ?_, t.nanos_lt⟩, ?_⟩
  · unfold maxLeaseSeconds
    omega
  · unfold maxLeaseSeconds
    omega
  · exact (Instant.addSeconds?_eq_some_iff (by decide) ht).mpr ⟨rfl, rfl⟩

/-- Leases of a sound configuration last for a second at least, and for a week at most. -/
theorem Config.ttl_of_validate {config : Config} (h : config.validate = .ok ()) :
    ∃ seconds, config.timing.ttl? = .ok seconds ∧ 1 ≤ seconds ∧ seconds ≤ maxLeaseSeconds := by
  unfold Config.validate at h
  split at h
  · cases h
  · rename_i hfault
    unfold Config.fault? at hfault
    split_ifs at hfault with noHeartbeat noMultiplier tooLong
    have hle := Nat.le_of_not_lt tooLong
    refine ⟨_, ?_, Nat.mul_pos (Nat.pos_of_ne_zero noHeartbeat) (Nat.pos_of_ne_zero noMultiplier),
      hle⟩
    unfold LeaseTiming.ttl?
    exact if_pos hle

/-! ## Sound reservations -/

/-- A reservation as managers leave it. -/
structure Reservation.Sound (managers : Nat → Manager) (r : Reservation) : Prop where
  /-- The key is sound. -/
  key : r.key.validate = .ok ()
  /-- The owner is sound. -/
  owner : validateOwner r.owner = .ok ()
  /-- It ends so long after its last write as the leases of a manager last. -/
  lasts : ∃ i seconds, (managers i).timing.ttl? = .ok seconds ∧ 1 ≤ seconds ∧ seconds ≤ 604800 ∧
    r.expiresAt.seconds - r.updatedAt.seconds = seconds ∧ r.expiresAt.nanos = r.updatedAt.nanos
  /-- It was not written in a leap second. -/
  no_leap : r.updatedAt.nanos < 1000000000

/-- A week after its last write anyone may claim a reservation. -/
theorem Reservation.Sound.claimable {managers : Nat → Manager} {r : Reservation}
    (h : r.Sound managers) {week : Instant} (hweek : r.updatedAt.addSeconds? 604800 = some week)
    (caller : String) {t : Instant} (ht : week ≤ t) : r.isClaimableBy caller t = true := by
  obtain ⟨i, seconds, -, -, hle, hseconds, hnanos⟩ := h.lasts
  obtain ⟨hweekSeconds, hweekNanos⟩ :=
    (Instant.addSeconds?_eq_some_iff (by decide) h.no_leap).mp hweek
  rw [Reservation.isClaimableBy_iff]
  left
  rw [Instant.le_def] at ht ⊢
  omega

/-- What the store keeps of what a row holds is all of it. -/
theorem Entry.of_on {e : Entry} (h : e.Whole) (key : Key) : Entry.of (e.on key) = e := by
  unfold Entry.of Entry.on
  dsimp only
  rw [h.expiresAt_kept, h.createdAt_kept, h.updatedAt_kept]

theorem Reservation.toRow_on {e : Entry} (h : e.Whole) (key : Key) :
    (e.on key).toRow = .ok (e.row key) := by
  have storable : checkStorable [e.expiresAt, e.createdAt, e.updatedAt] = .ok () := by
    rw [checkStorable_eq_ok_iff]
    simp [h.expiresAt_storable, h.createdAt_storable, h.updatedAt_storable]
  rw [Reservation.toRow_eq]
  change (checkStorable [e.expiresAt, e.createdAt, e.updatedAt] >>= fun _ => _) = _
  rw [storable, ok_bind, Entry.of_on h]
  rfl

/-- Where the tables hold a map of leases, each row is found under its key, and is as the store
writes it and reads it back. -/
theorem Tables.Holds.exists_reservation {t : Tables} {m : LeaseMap} (h : t.Holds m)
    {rows : List ReservationRow} (hrows : t.reservations = some rows) {row : ReservationRow}
    (hrow : row ∈ rows) :
    t.row? row.key = some row ∧ ∃ r, r.toRow = .ok row ∧ Reservation.ofRow row = .ok r ∧
      r.updatedAt.Storable := by
  obtain ⟨_, hrows', hold⟩ := h
  rw [hrows] at hrows'
  cases hrows'
  cases he : m.lookup row.key with
  | none => exact absurd (List.mem_map.mpr ⟨row, hrow, rfl⟩) (hold.not_mem_keys he)
  | some e =>
    have hrowEq : row = e.row row.key := hold.eq_row_of_key he hrow rfl
    have whole := hold.whole _ _ he
    refine ⟨?_, e.on row.key, ?_, ?_, whole.updatedAt_storable⟩
    · rw [Tables.row?_of_rows hrows, hold.found, he, Option.map_some, ← hrowEq]
    · rw [Reservation.toRow_on whole, ← hrowEq]
    · rw [hrowEq]
      exact Reservation.ofRow_row whole row.key

namespace Traffic

variable {s : Session} {operations : Nat → Nat × Operation} {turns : List Turn} {n i : Nat}

/-- What a call leaves in the row of its key is a sound reservation. -/
theorem WritesAt.sound {r : Reservation} {now : Instant}
    (h : (start s operations).WritesAt turns n i r now)
    (ttl : ∀ i, ∃ seconds, (s.managers i).timing.ttl? = .ok seconds ∧ 1 ≤ seconds ∧
      seconds ≤ maxLeaseSeconds)
    {row : ReservationRow}
    (hrow : ((start s operations).before turns (n + 1)).session.tables.row? r.key = some row)
    {found : Reservation} (hfound : Reservation.ofRow row = .ok found) :
    found.Sound s.managers := by
  obtain ⟨⟨c, -, valid, lease⟩, k, -, hread⟩ := h.claimed
  obtain ⟨validKey, hvalidKey, validOwner⟩ := bind_eq_ok valid
  have kept := h.expiresAt_kept
  obtain ⟨storable, nowStorable⟩ := h.storable
  obtain ⟨seconds, ends, hseconds, hends, rfl⟩ := Claim.lease?_eq_ok lease
  obtain ⟨seconds', hseconds', pos, le⟩ := ttl (operations i).1
  rw [hseconds] at hseconds'
  cases hseconds'
  -- what is read from the row is what was written
  obtain ⟨written, hwritten, howner, hexpires, hupdated⟩ := h.row?_succ
  rw [hwritten] at hrow
  cases hrow
  obtain ⟨foundKey, foundOwner, foundExpires, foundUpdated⟩ := Reservation.ofRow_eq_ok hfound
  have expires : found.expiresAt = ends := by
    rw [hexpires] at foundExpires
    have := (Timestamp.decode_text storable).symm.trans foundExpires
    exact (Except.ok.inj this).symm.trans kept
  have updated : found.updatedAt = now := by
    rw [hupdated] at foundUpdated
    have := (Timestamp.decode_text nowStorable).symm.trans foundUpdated
    exact (Except.ok.inj this).symm.trans hread.kept
  obtain ⟨addSeconds, addNanos⟩ := (Instant.addSeconds?_eq_some_iff pos hread.nanos_lt).mp hends
  refine ⟨?_, ?_, ⟨_, seconds, hseconds, pos, le, ?_, ?_⟩, ?_⟩
  · rw [foundKey, Tables.row?_key hwritten]
    exact hvalidKey
  · rw [foundOwner, howner]
    exact validOwner
  · rw [expires, updated, addSeconds]
    omega
  · rw [expires, updated, addNanos]
  · rw [updated]
    exact hread.nanos_lt

end Traffic

/-- Where the tables hold a map of leases, asking who holds the lease on a sound key never fails. -/
theorem Session.get_ok {s : Session} {m : LeaseMap} (h : s.tables.Holds m) (i : Nat) {key : Key}
    (valid : key.validate = .ok ()) :
    ∃ found, (s.step (.serve i (.get key))).1 = (.ok (.found found) : Except Error Reply) := by
  have found := h.foundOrNone_get s.dialect key
  refine ⟨((m.lookup key).map (·.on key)).map fun r => r.toLease (s.managers i).timing, ?_⟩
  change ((Call.get (s.managers i).timing key Reply.found).run (.ofTables s.dialect)
    (s.managers i).clock.now s.tables (s.managers i).counters).result = _
  rw [Call.get_eq _ _ valid, Call.run_ask, Request.perform_get, Call.shown_ok found]
  rfl

namespace Traffic

/-- Whatever state the calls of soundly configured managers lead to from empty tables, no key has
two rows, and each row is as the store writes it and reads back as a sound reservation: key and
owner are sound, and it ends between a second and a week after its last write, as long after it as
the leases of a manager last. So anyone may claim it a week after its last write, and asking who
holds the lease on a sound key does not fail. -/
theorem reachable_rows_sound (s : Session) (operations : Nat → Nat × Operation)
    (turns : List Turn) (hs : s.tables = .initial)
    (configured : ∀ i, ∃ config : Config,
      config.validate = .ok () ∧ (s.managers i).timing = config.timing)
    (leaves : ∀ x ∈ turns, x.leavesLeases = true) :
    (∃ rows, ((start s operations).run turns).session.tables.reservations = some rows ∧
      (rows.map (·.key)).Nodup ∧
      ∀ row ∈ rows, ∃ r, r.toRow = .ok row ∧ Reservation.ofRow row = .ok r ∧
        r.Sound s.managers ∧
        ∃ week, r.updatedAt.addSeconds? 604800 = some week ∧
          ∀ caller t, week ≤ t → r.isClaimableBy caller t = true) ∧
    ∀ i key, key.validate = .ok () → ∃ found,
      (((start s operations).run turns).session.step (.serve i (.get key))).1 =
        (.ok (.found found) : Except Error Reply) := by
  have ttl : ∀ i, ∃ seconds, (s.managers i).timing.ttl? = .ok seconds ∧ 1 ≤ seconds ∧
      seconds ≤ maxLeaseSeconds := by
    intro i
    obtain ⟨config, valid, htiming⟩ := configured i
    rw [htiming]
    exact Config.ttl_of_validate valid
  have order : InOrder s operations turns turns.length _ := inOrder_before hs turns.length le_rfl
  obtain ⟨m, hold⟩ := order.tables
  have sound : ∀ key row,
      ((start s operations).before turns turns.length).session.tables.row? key = some row →
      ∀ r, Reservation.ofRow row = .ok r → r.Sound s.managers := by
    refine rows_induction leaves ?_ ?_ turns.length le_rfl
    · intro key row hrow
      rw [hs] at hrow
      cases hrow
    · intro n i r now hwrite row hrow found hfound
      exact hwrite.sound ttl hrow hfound
  rw [before_length] at hold sound
  refine ⟨?_, fun i key valid => Session.get_ok hold i valid⟩
  obtain ⟨rows, hrows, rowsHold⟩ := id hold
  refine ⟨rows, hrows, rowsHold.distinct, ?_⟩
  intro row hrow
  obtain ⟨found, r, written, read, storable⟩ := hold.exists_reservation hrows hrow
  have rowSound := sound row.key row found r read
  obtain ⟨week, hweek⟩ := storable.exists_week rowSound.no_leap
  refine ⟨r, written, read, rowSound, week, hweek, ?_⟩
  intro caller t ht
  exact rowSound.claimable hweek caller ht

/-- The row that the winner of a race leaves. -/
theorem row_of_winner :
    ∃ row r, ((start freshSession releasedOperations).run
        (releasedTurns.take 8)).session.tables.reservations = some [row] ∧
      Reservation.ofRow row = .ok r ∧ r.owner = "first" ∧ r.Sound freshSession.managers := by
  have configured : ∀ i, ∃ config : Config,
      config.validate = .ok () ∧ (freshSession.managers i).timing = config.timing :=
    fun _ => ⟨.standard, by decide, rfl⟩
  have leaves : ∀ x ∈ releasedTurns.take 8, x.leavesLeases = true := by decide
  obtain ⟨⟨rows, hrows, -, sound⟩, -⟩ := reachable_rows_sound freshSession releasedOperations
    (releasedTurns.take 8) rfl configured leaves
  have only : ((start freshSession releasedOperations).run
      (releasedTurns.take 8)).session.tables.reservations = some [_] := rfl
  rw [only] at hrows
  cases hrows
  obtain ⟨r, -, read, rSound, -⟩ := sound _ List.mem_cons_self
  refine ⟨_, r, only, read, ?_, rSound⟩
  rw [(Reservation.ofRow_eq_ok read).2.1]
  rfl

end Traffic

end LeaseCatalog
