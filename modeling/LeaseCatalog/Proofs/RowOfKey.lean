import LeaseCatalog.Proofs.Effects

/-!
# The row of a key

What requests do to the row of one key, in whatever state the tables are: rows may have been edited
by hand, and the table may be missing. An accepted write leaves the row of its lease, and was
admitted by the row that it found (`Leases.row?_of_createOrUpdate`); a release leaves no row; and no
request touches the row of another key (`Request.perform_row?`).
-/

namespace LeaseCatalog

namespace Tables

variable {t t' : Tables} {key : Key}

/-- The row of a key, if the table is there and has one. -/
def row? (t : Tables) (key : Key) : Option ReservationRow :=
  t.reservations.bind fun rows => rows.find? (·.key == key)

theorem row?_of_rows {rows : List ReservationRow} (h : t.reservations = some rows) (key : Key) :
    t.row? key = rows.find? (·.key == key) := by
  simp [row?, h]

theorem row?_key {row : ReservationRow} (h : t.row? key = some row) : row.key = key := by
  obtain ⟨rows, -, hfind⟩ := Option.bind_eq_some_iff.mp h
  have := List.find?_some hfind
  simpa using this

theorem selectReservation_eq_ok_iff {row : ReservationRow} :
    t.selectReservation key = .ok row ↔ t.row? key = some row := by
  unfold selectReservation row?
  cases t.reservations with
  | none => simp [Tables.rows]
  | some found =>
    rw [Tables.rows, ok_bind, Option.bind_some]
    cases found.find? (·.key == key) <;> simp

theorem row?_create (t : Tables) (key : Key) : t.create.row? key = t.row? key := by
  unfold row? create
  cases t.reservations <;> rfl

theorem rows_eq_ok {ρ : Type} {name : String} {table : Option (List ρ)} {found : List ρ}
    (h : rows name table = .ok found) : table = some found := by
  cases table with
  | none => cases h
  | some rows => exact congrArg some (Except.ok.inj h)

/-! ## Rows that a statement changes -/

/-- Statements leave the keys of rows. -/
theorem key_overwritten {old row : ReservationRow} (r : ReservationRow) :
    (if r.key = row.key then old.overwrittenBy row else r).key = r.key := by
  split_ifs with hr
  · exact hr.symm
  · rfl

theorem key_updated {chosen : Bool} {owner expiresAt updatedAt : String} (r : ReservationRow) :
    (if chosen then { r with owner := owner, expiresAt := expiresAt, updatedAt := updatedAt }
      else r).key = r.key := by
  split_ifs <;> rfl

theorem key_retagged (row r : TagRow) :
    (if r.key = row.key then row else r).key = r.key := by
  split_ifs with hr
  · exact hr.symm
  · rfl

/-- A change that leaves the keys of all rows, and all rows of one key, leaves the row of that key.
-/
theorem find?_map_of_ne {rows : List ReservationRow} {f : ReservationRow → ReservationRow}
    (keys : ∀ r, (f r).key = r.key) (same : ∀ r, r.key = key → f r = r) :
    (rows.map f).find? (·.key == key) = rows.find? (·.key == key) := by
  induction rows with
  | nil => rfl
  | cons r rest ih =>
    rw [List.map_cons, List.find?_cons, List.find?_cons, keys r, ih]
    by_cases hr : r.key = key
    · rw [same r hr]
    · rw [beq_eq_false_iff_ne.mpr hr]

theorem insertReservation_row?_of_ne {row : ReservationRow}
    (h : t.insertReservation row = .ok t') (hk : row.key ≠ key) : t'.row? key = t.row? key := by
  obtain ⟨rows, hrows, h⟩ := bind_eq_ok h
  have hrows := rows_eq_ok hrows
  split_ifs at h
  cases h
  simp [row?, hrows, hk]

theorem upsertReservation_row?_of_ne {row : ReservationRow} {now : String} {written : Bool}
    (h : t.upsertReservation row now = .ok (written, t')) (hk : row.key ≠ key) :
    t'.row? key = t.row? key := by
  obtain ⟨rows, hrows, h⟩ := bind_eq_ok h
  have hrows := rows_eq_ok hrows
  split at h
  · cases h
    simp [row?, hrows, hk]
  · rename_i old hfind
    have hold : old.key = row.key := by simpa using List.find?_some hfind
    split_ifs at h
    · cases h
      have same : ∀ r : ReservationRow, r.key = key →
          (if r.key = row.key then old.overwrittenBy row else r) = r := by
        intro r hr
        exact if_neg fun hrow => hk (hrow.symm.trans hr)
      rw [row?_of_rows rfl, row?_of_rows hrows]
      exact find?_map_of_ne key_overwritten same
    · cases h
      rfl

theorem updateReservation_row?_of_ne {key' : Key} {owner expiresAt updatedAt expected : String}
    {n : Nat} (h : t.updateReservation key' owner expiresAt updatedAt expected = .ok (n, t'))
    (hk : key' ≠ key) : t'.row? key = t.row? key := by
  obtain ⟨rows, hrows, h⟩ := bind_eq_ok h
  have hrows := rows_eq_ok hrows
  cases h
  rw [row?_of_rows rfl, row?_of_rows hrows]
  refine find?_map_of_ne (fun r => key_updated r) fun r hr => if_neg fun chosen => hk ?_
  rw [Bool.and_eq_true, beq_iff_eq] at chosen
  exact chosen.1.symm.trans hr

theorem deleteReservation_row? {key' : Key} (h : t.deleteReservation key' = .ok t') (key : Key) :
    t'.row? key = if key = key' then none else t.row? key := by
  obtain ⟨rows, hrows, h⟩ := bind_eq_ok h
  have hrows := rows_eq_ok hrows
  cases h
  rw [row?_of_rows rfl, row?_of_rows hrows, List.find?_filter]
  split_ifs with hk
  · simp [hk]
  · congr 1
    funext r
    by_cases hr : r.key = key <;> simp [hr, hk]

/-- An accepted upsert leaves its row; only the time of insertion stays that of an older one. -/
theorem upsertReservation_row? {row : ReservationRow} {now : String}
    (h : t.upsertReservation row now = .ok (true, t')) :
    t'.row? row.key =
      some { row with createdAt := ((t.row? row.key).map (·.createdAt)).getD row.createdAt } := by
  obtain ⟨rows, hrows, h⟩ := bind_eq_ok h
  have before : t.row? row.key = rows.find? (·.key == row.key) :=
    row?_of_rows (rows_eq_ok hrows) row.key
  split at h
  · rename_i hfind
    cases h
    rw [before, hfind]
    simp [row?]
  · rename_i old hfind
    have hold : old.key = row.key := by simpa using List.find?_some hfind
    have first : rows.find? ((fun r => r.key == row.key) ∘ fun r =>
        if r.key = row.key then old.overwrittenBy row else r) = some old := by
      rw [← hfind]
      congr 1
      funext r
      by_cases hr : r.key = row.key
      · simp [hr, ReservationRow.overwrittenBy]
      · simp [hr]
    split_ifs at h
    · cases h
      rw [before, hfind, row?_of_rows rfl, List.find?_map, first, Option.map_some, if_pos hold]
      rfl
    · cases h

/-- An accepted upsert found no row, or one that it might overwrite. -/
theorem upsertReservation_admitted {row old : ReservationRow} {now : String}
    (h : t.upsertReservation row now = .ok (true, t')) (hold : t.row? row.key = some old) :
    old.expiresAt ≤ now ∨ old.owner = row.owner := by
  obtain ⟨rows, hrows, h⟩ := bind_eq_ok h
  rw [row?_of_rows (rows_eq_ok hrows)] at hold
  rw [hold] at h
  dsimp only at h
  split_ifs at h with admitted
  · exact admitted
  · cases h

end Tables

/-! ## What a row holds -/

theorem storedInstant_eq_ok {column text : String} {t : Instant}
    (h : storedInstant column text = .ok t) : Timestamp.decode text = .ok t := by
  unfold storedInstant at h
  split at h
  · rename_i found hdecode
    cases h
    exact hdecode
  · cases h

theorem Reservation.ofRow_eq_ok {row : ReservationRow} {r : Reservation}
    (h : Reservation.ofRow row = .ok r) :
    r.key = row.key ∧ r.owner = row.owner ∧ Timestamp.decode row.expiresAt = .ok r.expiresAt ∧
      Timestamp.decode row.updatedAt = .ok r.updatedAt := by
  obtain ⟨expiresAt, hexpires, h⟩ := bind_eq_ok h
  obtain ⟨createdAt, -, h⟩ := bind_eq_ok h
  obtain ⟨updatedAt, hupdated, h⟩ := bind_eq_ok h
  cases h
  exact ⟨rfl, rfl, storedInstant_eq_ok hexpires, storedInstant_eq_ok hupdated⟩

/-! ## Requests -/

namespace Leases

variable {d : Dialect} {t t' : Tables} {r : Reservation} {now : Instant}

theorem createOrUpdate_eq_ok (h : createOrUpdate d t r now = .ok t') :
    (∀ x ∈ [r.expiresAt, r.createdAt, r.updatedAt, now], x.Storable) ∧
      t.upsertReservation ((Entry.of r).row r.key) (Timestamp.text now) = .ok (true, t') := by
  obtain ⟨⟨row, text⟩, hrow, h⟩ := bind_eq_ok h
  rw [rowAt_eq] at hrow
  obtain ⟨_, hstorable, hrow⟩ := bind_eq_ok hrow
  cases hrow
  obtain ⟨⟨written, after⟩, hupsert, h⟩ := bind_eq_ok h
  have hupsert := Dialect.executed_eq_ok hupsert
  dsimp only at h
  split_ifs at h with hw
  cases h
  exact ⟨checkStorable_eq_ok_iff.mp hstorable, hw ▸ hupsert⟩

/-- An accepted write leaves the row of its lease; only the time of creation stays that of an older
one. -/
theorem row?_of_createOrUpdate (h : createOrUpdate d t r now = .ok t') :
    t'.row? r.key = some ⟨r.key, r.owner, Timestamp.text r.expiresAt,
      ((t.row? r.key).map (·.createdAt)).getD (Timestamp.text r.createdAt),
      Timestamp.text r.updatedAt, r.metadata⟩ := by
  obtain ⟨-, hupsert⟩ := createOrUpdate_eq_ok h
  have hrow := Tables.upsertReservation_row? hupsert
  rw [Entry.row_of] at hrow
  exact hrow

theorem createOrUpdate_row? (h : createOrUpdate d t r now = .ok t') :
    ∃ row, t'.row? r.key = some row ∧ row.owner = r.owner ∧
      row.expiresAt = Timestamp.text r.expiresAt ∧ row.updatedAt = Timestamp.text r.updatedAt :=
  ⟨_, row?_of_createOrUpdate h, rfl, rfl, rfl⟩

/-- An accepted write found no row, or one of the writer's, or one whose text says that its lease
has ended. -/
theorem createOrUpdate_admitted (h : createOrUpdate d t r now = .ok t') {row : ReservationRow}
    (hrow : t.row? r.key = some row) :
    row.expiresAt ≤ Timestamp.text now ∨ row.owner = r.owner := by
  obtain ⟨-, hupsert⟩ := createOrUpdate_eq_ok h
  exact Tables.upsertReservation_admitted hupsert hrow

theorem delete_row? {key' : Key} (h : delete d t key' = .ok t') (key : Key) :
    t'.row? key = if key = key' then none else t.row? key :=
  Tables.deleteReservation_row? (Dialect.executed_eq_ok h) key

/-- What the store gives for a key is what its row holds. -/
theorem get_eq_ok {key : Key} (h : get d t key = .ok r) :
    ∃ row, t.row? key = some row ∧ row.owner = r.owner ∧
      Timestamp.decode row.expiresAt = .ok r.expiresAt := by
  obtain ⟨row, hrow, h⟩ := bind_eq_ok h
  have hrow := Tables.selectReservation_eq_ok_iff.mp (Dialect.executed_eq_ok hrow)
  obtain ⟨-, howner, hexpires, -⟩ := Reservation.ofRow_eq_ok h
  exact ⟨row, hrow, howner.symm, hexpires⟩

/-- Where the store finds nothing for a key, there is no row. -/
theorem row?_of_get_notFound {key : Key} {e : Error} (h : get d t key = .error e)
    (notFound : e.isNotFound = true) : t.row? key = none := by
  cases hrow : t.row? key with
  | none => rfl
  | some row =>
    -- a row that cannot be decoded is no row that is missing
    have select := Tables.selectReservation_eq_ok_iff.mpr hrow
    unfold get at h
    rw [select, Dialect.executed_ok, ok_bind] at h
    unfold Reservation.ofRow storedInstant at h
    split at h
    · split at h
      · split at h
        · cases h
        · cases h
          cases notFound
      · cases h
        cases notFound
    · cases h
      cases notFound

end Leases

namespace Request

variable (d : Dialect) (t : Tables)

/-- A request leaves the rows of all keys but the one that it may write. -/
theorem perform_row? {r : Request} {key : Key} (h : r.writtenKey? ≠ some key) :
    (r.perform d t).2.row? key = t.row? key := by
  cases r with
  | getTag => rfl
  | get => rfl
  | createArtifact a =>
    unfold Tables.row?
    rw [perform_reservations d t rfl]
  | addTag k id now =>
    unfold Tables.row?
    rw [perform_reservations d t rfl]
  | create r =>
    have hk : r.key ≠ key := fun hk => h (congrArg some hk)
    refine changing_induction t (P := fun t' => t'.row? key = t.row? key) rfl ?_
    intro t' ht'
    obtain ⟨row, hrow, ht'⟩ := bind_eq_ok ht'
    rw [Reservation.toRow_eq] at hrow
    obtain ⟨-, -, hrow⟩ := bind_eq_ok hrow
    cases hrow
    exact Tables.insertReservation_row?_of_ne (Dialect.executed_eq_ok ht') hk
  | update u =>
    have hk : u.key ≠ key := fun hk => h (congrArg some hk)
    rw [perform_update]
    cases hu : Leases.update d t u with
    | error e => rfl
    | ok result =>
      obtain ⟨texts, -, hu⟩ := bind_eq_ok hu
      exact Tables.updateReservation_row?_of_ne (Dialect.executed_eq_ok hu) hk
  | createOrUpdate r now =>
    have hk : r.key ≠ key := fun hk => h (congrArg some hk)
    refine changing_induction t (P := fun t' => t'.row? key = t.row? key) rfl ?_
    intro t' ht'
    obtain ⟨-, hupsert⟩ := Leases.createOrUpdate_eq_ok ht'
    exact Tables.upsertReservation_row?_of_ne hupsert hk
  | delete k =>
    have hk : key ≠ k := fun hk => h (congrArg some hk.symm)
    refine changing_induction t (P := fun t' => t'.row? key = t.row? key) rfl ?_
    intro t' ht'
    rw [Leases.delete_row? ht', if_neg hk]

end Request

end LeaseCatalog
