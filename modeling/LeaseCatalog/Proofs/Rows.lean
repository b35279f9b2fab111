import LeaseCatalog.Proofs.LeaseMap

/-!
# Rows that hold a map of leases

`RowsHold` says that the rows of the table `reservations` are those of a map of leases: one row for
each key that has a lease, with the texts of its instants. Each way in which a statement changes the
rows changes the map in the same way: a new row, a row overwritten, a row removed.

Rows written by the store are always of this form, so everything that is asked of them can be
answered from the map (see `LeaseCatalog.Proofs.StoredLeases`).
-/

namespace LeaseCatalog

/-! ## The row of a lease -/

namespace Entry

/-- The row of a key that has a lease. -/
def row (e : Entry) (key : Key) : ReservationRow :=
  ⟨key, e.owner, Timestamp.text e.expiresAt, Timestamp.text e.createdAt,
    Timestamp.text e.updatedAt, e.metadata⟩

/-- A lease as a row can hold it. -/
structure Whole (e : Entry) : Prop where
  /-- A row can hold the expiry. -/
  expiresAt_storable : e.expiresAt.Storable
  /-- A row can hold the time of creation. -/
  createdAt_storable : e.createdAt.Storable
  /-- A row can hold the time of the last write. -/
  updatedAt_storable : e.updatedAt.Storable
  /-- A row keeps the expiry in full. -/
  expiresAt_kept : e.expiresAt.kept = e.expiresAt
  /-- A row keeps the time of creation in full. -/
  createdAt_kept : e.createdAt.kept = e.createdAt
  /-- A row keeps the time of the last write in full. -/
  updatedAt_kept : e.updatedAt.kept = e.updatedAt

theorem Whole.replacedBy {old new : Entry} (ho : old.Whole) (hn : new.Whole) :
    (old.replacedBy new).Whole :=
  { hn with
    createdAt_storable := ho.createdAt_storable
    createdAt_kept := ho.createdAt_kept }

end Entry

/-- Rows that are those of a map of leases. -/
structure RowsHold (rows : List ReservationRow) (m : LeaseMap) : Prop where
  /-- No key has two rows. -/
  distinct : (rows.map (·.key)).Nodup
  /-- A key has a row exactly if it has a lease, and the row is that of the lease. -/
  found : ∀ key, rows.find? (·.key == key) = (m.lookup key).map (·.row key)
  /-- Rows can hold all leases. -/
  whole : ∀ key e, m.lookup key = some e → e.Whole

namespace RowsHold

theorem nil : RowsHold [] ∅ where
  distinct := List.nodup_nil
  found key := by rw [Finmap.lookup_empty]; rfl
  whole key e h := by rw [Finmap.lookup_empty] at h; cases h

/-! ## Rows and keys -/

/-- The row that is found for a key is one of the rows, and has the key. -/
theorem mem_of_lookup {rows : List ReservationRow} {m : LeaseMap} (h : RowsHold rows m)
    {key : Key} {e : Entry} (he : m.lookup key = some e) : e.row key ∈ rows := by
  have := h.found key
  rw [he, Option.map_some] at this
  exact List.mem_of_find?_eq_some this

theorem not_mem_keys {rows : List ReservationRow} {m : LeaseMap} (h : RowsHold rows m)
    {key : Key} (hk : m.lookup key = none) : key ∉ rows.map (·.key) := by
  intro hmem
  obtain ⟨r, hr, rfl⟩ := List.mem_map.mp hmem
  have := h.found r.key
  rw [hk, Option.map_none, List.find?_eq_none] at this
  exact this r hr (by simp)

theorem eq_row_of_key {rows : List ReservationRow} {m : LeaseMap} (h : RowsHold rows m)
    {key : Key} {e : Entry} (he : m.lookup key = some e) {r : ReservationRow} (hr : r ∈ rows)
    (hk : r.key = key) : r = e.row key :=
  List.inj_on_of_nodup_map h.distinct hr (h.mem_of_lookup he) hk

theorem countP_key {rows : List ReservationRow} {m : LeaseMap} (h : RowsHold rows m) {key : Key}
    {e : Entry} (he : m.lookup key = some e) : rows.countP (·.key == key) = 1 := by
  have mem : key ∈ rows.map (·.key) := List.mem_map.mpr ⟨e.row key, h.mem_of_lookup he, rfl⟩
  have := List.count_eq_one_of_mem h.distinct mem
  rwa [List.count, List.countP_map] at this

/-! ## What changes rows -/

/-- A new row for a key that has none. -/
theorem cons {rows : List ReservationRow} {m : LeaseMap} (h : RowsHold rows m) {key : Key}
    (hk : m.lookup key = none) {e : Entry} (he : e.Whole) :
    RowsHold (e.row key :: rows) (m.insert key e) where
  distinct := List.nodup_cons.mpr ⟨h.not_mem_keys hk, h.distinct⟩
  found key' := by
    by_cases hkey : key' = key
    · subst hkey
      rw [Finmap.lookup_insert]
      exact List.find?_cons_of_pos (by simp [Entry.row])
    · rw [Finmap.lookup_insert_of_ne _ hkey, ← h.found key']
      exact List.find?_cons_of_neg (by simpa [Entry.row] using Ne.symm hkey)
  whole key' e' he' := by
    by_cases hkey : key' = key
    · subst hkey
      rw [Finmap.lookup_insert] at he'
      cases he'
      exact he
    · rw [Finmap.lookup_insert_of_ne _ hkey] at he'
      exact h.whole key' e' he'

/-- A change of the row of a key: `f` gives the row of the new lease, and leaves all rows of other
keys as they are. -/
theorem map {rows : List ReservationRow} {m : LeaseMap} (h : RowsHold rows m) {key : Key}
    {old new : Entry} (hold : m.lookup key = some old) (hnew : new.Whole)
    {f : ReservationRow → ReservationRow} (hf : f (old.row key) = new.row key)
    (hother : ∀ r, r.key ≠ key → f r = r) : RowsHold (rows.map f) (m.insert key new) := by
  have keys : ∀ r ∈ rows, (f r).key = r.key := by
    intro r hr
    by_cases hk : r.key = key
    · rw [h.eq_row_of_key hold hr hk, hf]
      rfl
    · rw [hother r hk]
  refine ⟨?_, ?_, ?_⟩
  · rw [List.map_map, List.map_congr_left (f := (·.key) ∘ f) (g := (·.key)) keys]
    exact h.distinct
  · intro key'
    rw [List.find?_map]
    have same : rows.find? ((fun r => r.key == key') ∘ f) = rows.find? (·.key == key') :=
      List.find?_congr fun r hr => by simp only [Function.comp_apply, keys r hr]
    rw [same, h.found key']
    by_cases hkey : key' = key
    · subst hkey
      rw [hold, Finmap.lookup_insert]
      exact congrArg some hf
    · rw [Finmap.lookup_insert_of_ne _ hkey]
      cases m.lookup key' with
      | none => rfl
      | some e => exact congrArg some (hother _ hkey)
  · intro key' e' he'
    by_cases hkey : key' = key
    · subst hkey
      rw [Finmap.lookup_insert] at he'
      cases he'
      exact hnew
    · rw [Finmap.lookup_insert_of_ne _ hkey] at he'
      exact h.whole key' e' he'

/-- The removal of the row of a key, if it has one. -/
theorem filter {rows : List ReservationRow} {m : LeaseMap} (h : RowsHold rows m) (key : Key) :
    RowsHold (rows.filter (·.key != key)) (m.erase key) where
  distinct := h.distinct.sublist (List.filter_sublist.map _)
  found key' := by
    rw [List.find?_filter]
    by_cases hkey : key' = key
    · subst hkey
      rw [Finmap.lookup_erase]
      simp
    · rw [Finmap.lookup_erase_ne hkey, ← h.found key']
      congr 1
      funext r
      by_cases hr : r.key = key' <;> simp [hr, hkey]
  whole key' e' he' := by
    by_cases hkey : key' = key
    · subst hkey
      rw [Finmap.lookup_erase] at he'
      cases he'
    · rw [Finmap.lookup_erase_ne hkey] at he'
      exact h.whole key' e' he'

end RowsHold

/-! ## Statements -/

/-- Tables whose reservations are those of a map of leases. -/
def Tables.Holds (t : Tables) (m : LeaseMap) : Prop :=
  ∃ rows, t.reservations = some rows ∧ RowsHold rows m

theorem Tables.holds_initial : Tables.initial.Holds ∅ := ⟨[], rfl, RowsHold.nil⟩

namespace Tables.Holds

variable {t : Tables} {m : LeaseMap}

theorem whole (h : t.Holds m) {key : Key} {e : Entry} (he : m.lookup key = some e) : e.Whole := by
  obtain ⟨rows, -, hold⟩ := h
  exact hold.whole key e he

theorem selectReservation (h : t.Holds m) (key : Key) :
    t.selectReservation key =
      match m.lookup key with
      | some e => .ok (e.row key)
      | none => .error .rowNotFound := by
  obtain ⟨rows, hrows, hold⟩ := h
  unfold Tables.selectReservation
  rw [hrows, Tables.rows, ok_bind, hold.found key]
  cases m.lookup key <;> rfl

theorem insertReservation_present (h : t.Holds m) {key : Key} (hk : key ∈ m)
    (new : Entry) : t.insertReservation (new.row key) = .error .duplicateReservation := by
  obtain ⟨rows, hrows, hold⟩ := h
  obtain ⟨e, he⟩ := Finmap.mem_iff.mp hk
  have any : rows.any (·.key == key) = true :=
    List.any_eq_true.mpr ⟨_, hold.mem_of_lookup he, beq_self_eq_true key⟩
  unfold Tables.insertReservation
  rw [hrows, Tables.rows, ok_bind]
  exact if_pos any

theorem insertReservation_absent (h : t.Holds m) {key : Key} (hk : key ∉ m)
    {new : Entry} (hnew : new.Whole) :
    ∃ t', t.insertReservation (new.row key) = .ok t' ∧ t'.Holds (m.insert key new) := by
  obtain ⟨rows, hrows, hold⟩ := h
  have none := Finmap.lookup_eq_none.mpr hk
  have any : ¬ rows.any (·.key == key) = true := by
    intro hany
    obtain ⟨x, hx, hxk⟩ := List.any_eq_true.mp hany
    exact hold.not_mem_keys none (List.mem_map.mpr ⟨x, hx, eq_of_beq hxk⟩)
  unfold Tables.insertReservation
  rw [hrows, Tables.rows, ok_bind]
  exact ⟨_, if_neg any, _, rfl, hold.cons none hnew⟩

theorem upsertReservation_absent (h : t.Holds m) {key : Key}
    (hk : m.lookup key = none) {new : Entry} (hnew : new.Whole) (now : String) :
    ∃ t', t.upsertReservation (new.row key) now = .ok (true, t') ∧
      t'.Holds (m.insert key new) := by
  obtain ⟨rows, hrows, hold⟩ := h
  have find : rows.find? (·.key == (new.row key).key) = none := by
    show rows.find? (·.key == key) = none
    rw [hold.found key, hk]
    rfl
  refine ⟨{ t with reservations := some (new.row key :: rows) }, ?_, _, rfl, hold.cons hk hnew⟩
  unfold Tables.upsertReservation
  rw [hrows, Tables.rows, ok_bind]
  rw [find]

theorem upsertReservation_present (h : t.Holds m) {key : Key} {old : Entry}
    (hk : m.lookup key = some old) {new : Entry} (hnew : new.Whole) (now : String)
    (claim : (old.row key).expiresAt ≤ now ∨ (old.row key).owner = new.owner) :
    ∃ t', t.upsertReservation (new.row key) now = .ok (true, t') ∧
      t'.Holds (m.insert key (old.replacedBy new)) := by
  obtain ⟨rows, hrows, hold⟩ := h
  have find : rows.find? (·.key == (new.row key).key) = some (old.row key) := by
    show rows.find? (·.key == key) = some (old.row key)
    rw [hold.found key, hk]
    rfl
  refine ⟨{ t with reservations := some (rows.map fun r =>
    if r.key = key then (old.row key).overwrittenBy (new.row key) else r) }, ?_, _, rfl,
    hold.map hk ((hold.whole key old hk).replacedBy hnew) (if_pos rfl) fun r hr => if_neg hr⟩
  unfold Tables.upsertReservation
  rw [hrows, Tables.rows, ok_bind]
  rw [find]
  exact if_pos claim

theorem upsertReservation_refused (h : t.Holds m) {key : Key} {old : Entry}
    (hk : m.lookup key = some old) (new : Entry) (now : String)
    (claim : ¬ ((old.row key).expiresAt ≤ now ∨ (old.row key).owner = new.owner)) :
    t.upsertReservation (new.row key) now = .ok (false, t) := by
  obtain ⟨rows, hrows, hold⟩ := h
  have find : rows.find? (·.key == (new.row key).key) = some (old.row key) := by
    show rows.find? (·.key == key) = some (old.row key)
    rw [hold.found key, hk]
    rfl
  unfold Tables.upsertReservation
  rw [hrows, Tables.rows, ok_bind]
  rw [find]
  exact if_neg claim

theorem updateReservation_missed (h : t.Holds m) {key : Key} {expected : String}
    (miss : ∀ e, m.lookup key = some e → (e.row key).expiresAt ≠ expected)
    (owner expiresAt updatedAt : String) :
    t.updateReservation key owner expiresAt updatedAt expected = .ok (0, t) := by
  obtain ⟨rows, hrows, hold⟩ := h
  have none : ∀ r ∈ rows, ¬ (r.key == key && r.expiresAt == expected) = true := by
    intro r hr hchosen
    obtain ⟨hk, he⟩ := (Bool.and_eq_true _ _).mp hchosen
    cases hl : m.lookup key with
    | none => exact hold.not_mem_keys hl (List.mem_map.mpr ⟨r, hr, eq_of_beq hk⟩)
    | some e =>
      rw [hold.eq_row_of_key hl hr (eq_of_beq hk)] at he
      exact miss e hl (eq_of_beq he)
  unfold Tables.updateReservation
  rw [hrows, Tables.rows, ok_bind]
  dsimp only
  rw [List.countP_eq_zero.mpr none, List.map_congr_left fun r hr => if_neg (none r hr),
    List.map_id', ← hrows]

theorem updateReservation_hit (h : t.Holds m) {key : Key} {old : Entry}
    (hk : m.lookup key = some old) (owner : String) {expiresAt updatedAt : Instant}
    (hnew : Entry.Whole { old with owner, expiresAt, updatedAt }) :
    ∃ t', t.updateReservation key owner (Timestamp.text expiresAt) (Timestamp.text updatedAt)
        (Timestamp.text old.expiresAt) = .ok (1, t') ∧
      t'.Holds (m.insert key { old with owner, expiresAt, updatedAt }) := by
  obtain ⟨rows, hrows, hold⟩ := h
  -- all rows of the key are the row of its lease, so the expiry selects nothing further
  have chosen : ∀ r ∈ rows,
      (r.key == key && r.expiresAt == Timestamp.text old.expiresAt) = (r.key == key) := by
    intro r hr
    by_cases hkey : r.key = key
    · rw [hold.eq_row_of_key hk hr hkey]
      simp [Entry.row]
    · simp [hkey]
  have count : rows.countP (fun r =>
      r.key == key && r.expiresAt == Timestamp.text old.expiresAt) = 1 :=
    (List.countP_congr fun r hr => by rw [chosen r hr]).trans (hold.countP_key hk)
  refine ⟨{ t with reservations := some (rows.map fun r =>
    if (r.key == key && r.expiresAt == Timestamp.text old.expiresAt) = true then
      { r with
        owner
        expiresAt := Timestamp.text expiresAt
        updatedAt := Timestamp.text updatedAt }
    else r) }, ?_, _, rfl, hold.map hk hnew ?_ fun r hr => if_neg (by simp [hr])⟩
  · unfold Tables.updateReservation
    rw [hrows, Tables.rows, ok_bind]
    dsimp only
    rw [count]
  · rw [if_pos (by simp [Entry.row])]
    rfl

theorem deleteReservation (h : t.Holds m) (key : Key) :
    ∃ t', t.deleteReservation key = .ok t' ∧ t'.Holds (m.erase key) := by
  obtain ⟨rows, hrows, hold⟩ := h
  refine ⟨{ t with reservations := some (rows.filter (·.key != key)) }, ?_, _, rfl,
    hold.filter key⟩
  unfold Tables.deleteReservation
  rw [hrows]
  rfl

end Tables.Holds

end LeaseCatalog
