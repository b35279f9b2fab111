import LeaseCatalog.Proofs.Deliveries

/-!
# Other keys

A key has a reservation and a tag of its own, and it shares the artifacts of its dataset with the
other keys of the dataset. `Tables.about` takes these rows out of the tables. A request about the
key is answered from them alone, and changes nothing but them (`Request.perform_about`); a request
about another key, or an artifact of another dataset, leaves them (`Request.perform_about_of_not`).

So of a session nothing but the steps that concern a key can be told from what these steps give
(`Session.other_keys_irrelevant`). Keys are compared text by text, and not as they are shown.
-/

namespace LeaseCatalog

/-! ## What concerns a key -/

/-- Whether a request is about a key, or stores an artifact for which it could stand. -/
def Request.concerns (key : Key) : Request → Bool
  | .getTag k | .addTag k _ _ | .get k | .delete k => k == key
  | .createArtifact a => a.dataset == key.dataset
  | .create r | .createOrUpdate r _ => r.key == key
  | .update u => u.key == key

/-- Whether a step concerns a key. Clocks and the creation of tables concern all keys. -/
def Step.concerns (key : Key) : Step → Bool
  | .serve _ operation => operation.key == key
  | .ask request => request.concerns key
  | .move _ _ | .initialise => true

/-- The rows that concern a key: its reservation, its tag, and the artifacts of its dataset. -/
def Tables.about (t : Tables) (key : Key) : Tables where
  reservations := t.reservations.map fun rows => rows.filter (·.key == key)
  artifacts := t.artifacts.map fun rows => rows.filter (·.dataset == key.dataset)
  tags := t.tags.map fun rows => rows.filter (·.key == key)

/-! ## Rows -/

section Rows

variable {ρ : Type} {rows : List ρ} {p q : ρ → Bool}

theorem find?_filter_of_imp (h : ∀ r, q r = true → p r = true) :
    (rows.filter p).find? q = rows.find? q := by
  rw [List.find?_filter]
  congr 1
  funext r
  rw [Bool.decide_and, Bool.decide_eq_true, Bool.decide_eq_true, Bool.and_eq_right_iff_imp]
  exact h r

theorem any_filter_of_imp (h : ∀ r, q r = true → p r = true) :
    (rows.filter p).any q = rows.any q := by
  rw [List.any_filter]
  congr 1
  funext r
  rw [Bool.and_eq_right_iff_imp]
  exact h r

theorem countP_filter_of_imp (h : ∀ r, q r = true → p r = true) :
    (rows.filter p).countP q = rows.countP q := by
  rw [List.countP_filter]
  congr 1
  funext r
  rw [Bool.and_eq_left_iff_imp]
  exact h r

/-- A change that keeps what rows are chosen by can be made before or after the choice. -/
theorem map_filter_of_same {f : ρ → ρ} (h : ∀ r, p (f r) = p r) :
    (rows.filter p).map f = (rows.map f).filter p := by
  rw [List.filter_map]
  congr 2
  funext r
  exact (h r).symm

/-- A change of other rows than those that are chosen. -/
theorem filter_map_of_id {f : ρ → ρ} (h : ∀ r, p (f r) = p r) (same : ∀ r, p r = true → f r = r) :
    (rows.map f).filter p = rows.filter p := by
  rw [← map_filter_of_same h]
  exact (List.map_congr_left fun r hr => same r (List.mem_filter.mp hr).2).trans (List.map_id' _)

end Rows

/-! ## Statements about the key -/

namespace Tables

variable {t : Tables} {key : Key}

theorem findArtifact_filter (rows : List ArtifactRow) (dataset : Dataset) (id : String) :
    findArtifact (rows.filter (·.dataset == dataset)) dataset id = findArtifact rows dataset id :=
  find?_filter_of_imp fun _ h => (Bool.and_eq_true_iff.mp h).1

theorem selectReservation_about (t : Tables) (key : Key) :
    (t.about key).selectReservation key = t.selectReservation key := by
  obtain ⟨_ | found, artifacts, tags⟩ := t
  · rfl
  · unfold selectReservation about
    dsimp only [Option.map_some, rows]
    rw [ok_bind, ok_bind, find?_filter_of_imp fun _ h => h]

theorem insertReservation_about {row : ReservationRow} (hk : row.key = key) :
    (t.about key).insertReservation row =
      (t.insertReservation row).map fun t' => t'.about key := by
  subst hk
  obtain ⟨_ | found, artifacts, tags⟩ := t
  · rfl
  · unfold insertReservation about
    dsimp only [Option.map_some, rows]
    rw [ok_bind, ok_bind, any_filter_of_imp fun _ h => h]
    split_ifs
    · rfl
    · simp [Except.map]

theorem upsertReservation_about {row : ReservationRow} (hk : row.key = key) (now : String) :
    (t.about key).upsertReservation row now =
      (t.upsertReservation row now).map fun (written, t') => (written, t'.about key) := by
  subst hk
  obtain ⟨_ | found, artifacts, tags⟩ := t
  · rfl
  · unfold upsertReservation about
    dsimp only [Option.map_some, rows]
    rw [ok_bind, ok_bind, find?_filter_of_imp fun _ h => h]
    cases hfind : found.find? (·.key == row.key) with
    | none => simp [Except.map]
    | some old =>
      dsimp only
      split_ifs
      · exact congrArg (fun rows => Except.ok (true, Tables.mk (some rows) _ _))
          (map_filter_of_same fun r => congrArg (· == row.key) (key_overwritten r))
      · rfl

theorem updateReservation_about (t : Tables) (key : Key)
    (owner expiresAt updatedAt expected : String) :
    (t.about key).updateReservation key owner expiresAt updatedAt expected =
      (t.updateReservation key owner expiresAt updatedAt expected).map
        fun (count, t') => (count, t'.about key) := by
  obtain ⟨_ | found, artifacts, tags⟩ := t
  · rfl
  · unfold updateReservation about
    dsimp only [Option.map_some, rows]
    rw [ok_bind, ok_bind, countP_filter_of_imp fun _ h => (Bool.and_eq_true_iff.mp h).1]
    exact congrArg (fun rows => Except.ok (_, Tables.mk (some rows) _ _))
      (map_filter_of_same fun r => congrArg (· == key) (key_updated r))

theorem deleteReservation_about (t : Tables) (key : Key) :
    (t.about key).deleteReservation key =
      (t.deleteReservation key).map fun t' => t'.about key := by
  obtain ⟨_ | found, artifacts, tags⟩ := t
  · rfl
  · exact congrArg (fun rows => Except.ok (Tables.mk (some rows) _ _)) (List.filter_comm ..)

theorem insertArtifact_about {row : ArtifactRow} (hk : row.dataset = key.dataset) :
    (t.about key).insertArtifact row = (t.insertArtifact row).map fun t' => t'.about key := by
  obtain ⟨reservations, _ | found, tags⟩ := t
  · rfl
  · unfold insertArtifact about
    dsimp only [Option.map_some, rows]
    rw [ok_bind, ok_bind, ← hk, findArtifact_filter]
    split_ifs
    · rfl
    · simp [Except.map]

theorem upsertTag_about {row : TagRow} (hk : row.key = key) :
    (t.about key).upsertTag row =
      (t.upsertTag row).map fun (written, t') => (written, t'.about key) := by
  subst hk
  obtain ⟨reservations, _ | artifacts, _ | tags⟩ := t
  · rfl
  · rfl
  · rfl
  · unfold upsertTag about
    dsimp only [Option.map_some, rows]
    rw [ok_bind, ok_bind, ok_bind, ok_bind, findArtifact_filter, any_filter_of_imp fun _ h => h]
    split_ifs
    · rfl
    · exact congrArg (fun rows => Except.ok (true, Tables.mk _ _ (some rows)))
        (map_filter_of_same fun r => congrArg (· == row.key) (key_retagged row r))
    · simp [Except.map]

theorem selectTag_about (t : Tables) (key : Key) :
    (t.about key).selectTag key = t.selectTag key := by
  obtain ⟨reservations, _ | artifacts, _ | tags⟩ := t
  · rfl
  · rfl
  · rfl
  · unfold selectTag about
    dsimp only [Option.map_some, rows]
    rw [ok_bind, ok_bind, ok_bind, ok_bind, find?_filter_of_imp fun _ h => h]
    cases tags.find? (·.key == key) with
    | none => rfl
    | some tag =>
      dsimp only
      rw [findArtifact_filter]

/-! ## Statements about other keys -/

section Others

variable {t' : Tables}

theorem insertReservation_about_of_ne {row : ReservationRow}
    (h : t.insertReservation row = .ok t') (hk : row.key ≠ key) : t'.about key = t.about key := by
  obtain ⟨found, hfound, h⟩ := bind_eq_ok h
  split_ifs at h
  cases h
  simp [about, rows_eq_ok hfound, hk]

theorem upsertReservation_about_of_ne {row : ReservationRow} {now : String} {written : Bool}
    (h : t.upsertReservation row now = .ok (written, t')) (hk : row.key ≠ key) :
    t'.about key = t.about key := by
  obtain ⟨found, hfound, h⟩ := bind_eq_ok h
  split at h
  · cases h
    simp [about, rows_eq_ok hfound, hk]
  · rename_i old hfind
    split_ifs at h
    · cases h
      have same : ∀ r : ReservationRow, (r.key == key) = true →
          (if r.key = row.key then old.overwrittenBy row else r) = r := by
        intro r hr
        exact if_neg fun hrow => hk (hrow.symm.trans (eq_of_beq hr))
      simp only [about, rows_eq_ok hfound, Option.map_some]
      exact congrArg (fun rows => Tables.mk (some rows) _ _)
        (filter_map_of_id (fun r => congrArg (· == key) (key_overwritten r)) same)
    · cases h
      rfl

theorem updateReservation_about_of_ne {key' : Key} {owner expiresAt updatedAt expected : String}
    {n : Nat} (h : t.updateReservation key' owner expiresAt updatedAt expected = .ok (n, t'))
    (hk : key' ≠ key) : t'.about key = t.about key := by
  obtain ⟨found, hfound, h⟩ := bind_eq_ok h
  cases h
  have same : ∀ r : ReservationRow, (r.key == key) = true →
      (if (r.key == key' && r.expiresAt == expected) = true then
        { r with owner := owner, expiresAt := expiresAt, updatedAt := updatedAt } else r) = r := by
    intro r hr
    refine if_neg fun chosen => hk ?_
    exact (eq_of_beq (Bool.and_eq_true_iff.mp chosen).1).symm.trans (eq_of_beq hr)
  simp only [about, rows_eq_ok hfound, Option.map_some]
  exact congrArg (fun rows => Tables.mk (some rows) _ _)
    (filter_map_of_id (fun r => congrArg (· == key) (key_updated r)) same)

theorem deleteReservation_about_of_ne {key' : Key} (h : t.deleteReservation key' = .ok t')
    (hk : key' ≠ key) : t'.about key = t.about key := by
  obtain ⟨found, hfound, h⟩ := bind_eq_ok h
  cases h
  simp only [about, rows_eq_ok hfound, Option.map_some]
  refine congrArg (fun rows => Tables.mk (some rows) _ _) ?_
  rw [List.filter_filter]
  refine List.filter_congr fun r _ => ?_
  rw [Bool.and_eq_left_iff_imp]
  intro hr
  rw [eq_of_beq hr]
  exact bne_iff_ne.mpr (Ne.symm hk)

theorem insertArtifact_about_of_ne {row : ArtifactRow} (h : t.insertArtifact row = .ok t')
    (hk : row.dataset ≠ key.dataset) : t'.about key = t.about key := by
  obtain ⟨found, hfound, h⟩ := bind_eq_ok h
  split_ifs at h
  · cases h
    rfl
  · cases h
    simp [about, rows_eq_ok hfound, hk]

theorem upsertTag_about_of_ne {row : TagRow} {written : Bool}
    (h : t.upsertTag row = .ok (written, t')) (hk : row.key ≠ key) :
    t'.about key = t.about key := by
  obtain ⟨tags, htags, h⟩ := bind_eq_ok h
  obtain ⟨artifacts, -, h⟩ := bind_eq_ok h
  split_ifs at h
  · cases h
    rfl
  · cases h
    have same : ∀ r : TagRow, (r.key == key) = true →
        (if r.key = row.key then row else r) = r := by
      intro r hr
      exact if_neg fun hrow => hk (hrow.symm.trans (eq_of_beq hr))
    simp only [about, rows_eq_ok htags, Option.map_some]
    exact congrArg (fun rows => Tables.mk _ _ (some rows))
      (filter_map_of_id (fun r => congrArg (· == key) (key_retagged row r)) same)
  · cases h
    simp [about, rows_eq_ok htags, hk]

end Others

theorem create_about (t : Tables) (key : Key) : t.create.about key = (t.about key).create := by
  obtain ⟨_ | reservations, _ | artifacts, _ | tags⟩ := t <;> rfl

end Tables

/-! ## Requests -/

theorem Dialect.executed_map {α β : Type} (d : Dialect) (f : α → β) (x : Except Failure α) :
    d.executed (x.map f) = (d.executed x).map f := by
  cases x <;> rfl

theorem Reservation.toRow_key {r : Reservation} {row : ReservationRow} (h : r.toRow = .ok row) :
    row.key = r.key := by
  rw [Reservation.toRow_eq] at h
  obtain ⟨-, -, h⟩ := bind_eq_ok h
  cases h
  rfl

theorem Leases.rowAt_key {r : Reservation} {now : Instant} {row : ReservationRow} {text : String}
    (h : Leases.rowAt r now = .ok (row, text)) : row.key = r.key := by
  obtain ⟨row', hrow, h⟩ := bind_eq_ok h
  obtain ⟨_, -, h⟩ := bind_eq_ok h
  cases h
  exact Reservation.toRow_key hrow

section Keys

variable {t : Tables} {key : Key} (d : Dialect)

theorem Leases.create_about {r : Reservation} (hk : r.key = key) :
    Leases.create d (t.about key) r = (Leases.create d t r).map fun t' => t'.about key := by
  unfold Leases.create
  cases hrow : r.toRow with
  | error e => rfl
  | ok row =>
    rw [ok_bind, ok_bind, Tables.insertReservation_about ((Reservation.toRow_key hrow).trans hk),
      d.executed_map]

theorem Leases.createOrUpdate_about {r : Reservation} (hk : r.key = key) (now : Instant) :
    Leases.createOrUpdate d (t.about key) r now =
      (Leases.createOrUpdate d t r now).map fun t' => t'.about key := by
  unfold Leases.createOrUpdate
  cases hrow : Leases.rowAt r now with
  | error e => rfl
  | ok row =>
    obtain ⟨row, text⟩ := row
    rw [ok_bind, ok_bind]
    dsimp only
    rw [Tables.upsertReservation_about ((Leases.rowAt_key hrow).trans hk), d.executed_map]
    cases d.executed (t.upsertReservation row text) with
    | error e => rfl
    | ok result =>
      obtain ⟨written, t'⟩ := result
      cases written <;> rfl

theorem Leases.update_about {u : Leases.Update} (hk : u.key = key) :
    Leases.update d (t.about key) u =
      (Leases.update d t u).map fun (count, t') => (count, t'.about key) := by
  unfold Leases.update
  cases u.texts with
  | error e => rfl
  | ok texts =>
    rw [ok_bind, ok_bind]
    dsimp only
    rw [hk, Tables.updateReservation_about, d.executed_map]

theorem Leases.delete_about (t : Tables) (key : Key) :
    Leases.delete d (t.about key) key = (Leases.delete d t key).map fun t' => t'.about key := by
  unfold Leases.delete
  rw [Tables.deleteReservation_about, d.executed_map]

theorem Tags.createArtifact_about {a : Artifact} (hk : a.dataset = key.dataset) :
    Tags.createArtifact d (t.about key) a =
      (Tags.createArtifact d t a).map fun t' => t'.about key := by
  unfold Tags.createArtifact
  cases hrow : Tags.artifactRow a with
  | error e => rfl
  | ok row =>
    obtain ⟨-, rfl⟩ := Tags.artifactRow_eq_ok hrow
    rw [ok_bind, ok_bind, Tables.insertArtifact_about (a.row_dataset.trans hk), d.executed_map]

theorem Tags.add_about (t : Tables) (key : Key) (id : String) (now : Instant) :
    Tags.add d (t.about key) key id now =
      (Tags.add d t key id now).map fun t' => t'.about key := by
  unfold Tags.add
  cases hrow : Tags.tagRow key id now with
  | error e => rfl
  | ok row =>
    have hk : row.key = key := by
      obtain ⟨-, -, rfl⟩ := Tags.tagRow_eq_ok_iff.mp hrow
      rfl
    rw [ok_bind, ok_bind, Tables.upsertTag_about hk, d.executed_map]
    cases d.executed (t.upsertTag row) with
    | error e => rfl
    | ok result =>
      obtain ⟨written, t'⟩ := result
      cases written <;> rfl

end Keys

section Others

variable {t t' : Tables} {key : Key} {d : Dialect}

theorem Leases.create_about_of_ne {r : Reservation} (h : Leases.create d t r = .ok t')
    (hk : r.key ≠ key) : t'.about key = t.about key := by
  obtain ⟨row, hrow, h⟩ := bind_eq_ok h
  refine Tables.insertReservation_about_of_ne (Dialect.executed_eq_ok h) ?_
  rwa [Reservation.toRow_key hrow]

theorem Leases.createOrUpdate_about_of_ne {r : Reservation} {now : Instant}
    (h : Leases.createOrUpdate d t r now = .ok t') (hk : r.key ≠ key) :
    t'.about key = t.about key := by
  obtain ⟨⟨row, text⟩, hrow, h⟩ := bind_eq_ok h
  obtain ⟨⟨written, after⟩, hx, h⟩ := bind_eq_ok h
  dsimp only at h
  split_ifs at h
  cases h
  refine Tables.upsertReservation_about_of_ne (Dialect.executed_eq_ok hx) ?_
  rwa [Leases.rowAt_key hrow]

theorem Leases.update_about_of_ne {u : Leases.Update} {count : Nat × Tables}
    (h : Leases.update d t u = .ok count) (hk : u.key ≠ key) :
    count.2.about key = t.about key := by
  obtain ⟨texts, -, h⟩ := bind_eq_ok h
  exact Tables.updateReservation_about_of_ne (Dialect.executed_eq_ok h) hk

theorem Leases.delete_about_of_ne {key' : Key} (h : Leases.delete d t key' = .ok t')
    (hk : key' ≠ key) : t'.about key = t.about key :=
  Tables.deleteReservation_about_of_ne (Dialect.executed_eq_ok h) hk

theorem Tags.createArtifact_about_of_ne {a : Artifact} (h : Tags.createArtifact d t a = .ok t')
    (hk : a.dataset ≠ key.dataset) : t'.about key = t.about key := by
  obtain ⟨row, hrow, h⟩ := bind_eq_ok h
  obtain ⟨-, rfl⟩ := Tags.artifactRow_eq_ok hrow
  exact Tables.insertArtifact_about_of_ne (Dialect.executed_eq_ok h) hk

theorem Tags.add_about_of_ne {key' : Key} {id : String} {now : Instant}
    (h : Tags.add d t key' id now = .ok t') (hk : key' ≠ key) : t'.about key = t.about key := by
  obtain ⟨row, hrow, h⟩ := bind_eq_ok h
  obtain ⟨-, -, rfl⟩ := Tags.tagRow_eq_ok_iff.mp hrow
  obtain ⟨⟨written, after⟩, hx, h⟩ := bind_eq_ok h
  dsimp only at h
  split_ifs at h
  cases h
  exact Tables.upsertTag_about_of_ne (Dialect.executed_eq_ok hx) hk

end Others

namespace Request

variable {key : Key} (d : Dialect) (t : Tables)

theorem changing_about {x x' : Except Error Tables} (h : x' = x.map fun t' => t'.about key) :
    changing (t.about key) x' = ((changing t x).1, (changing t x).2.about key) := by
  subst h
  cases x <;> rfl

/-- A request that concerns a key is answered from the rows of the key, and changes these as it does
among all rows. -/
theorem perform_about {r : Request} (h : r.concerns key = true) :
    r.perform d (t.about key) = ((r.perform d t).1, (r.perform d t).2.about key) := by
  cases r with
  | getTag k =>
    obtain rfl := eq_of_beq h
    refine Prod.ext ?_ rfl
    change Tags.get d (t.about k) k = Tags.get d t k
    unfold Tags.get
    rw [Tables.selectTag_about]
  | get k =>
    obtain rfl := eq_of_beq h
    refine Prod.ext ?_ rfl
    change Leases.get d (t.about k) k = Leases.get d t k
    unfold Leases.get
    rw [Tables.selectReservation_about]
  | createArtifact a => exact changing_about t (Tags.createArtifact_about d (eq_of_beq h))
  | addTag k id now =>
    obtain rfl := eq_of_beq h
    exact changing_about t (Tags.add_about d t k id now)
  | create r => exact changing_about t (Leases.create_about d (eq_of_beq h))
  | createOrUpdate r now => exact changing_about t (Leases.createOrUpdate_about d (eq_of_beq h) now)
  | delete k =>
    obtain rfl := eq_of_beq h
    exact changing_about t (Leases.delete_about d t k)
  | update u =>
    rw [perform_update, perform_update, Leases.update_about d (eq_of_beq h)]
    cases Leases.update d t u <;> rfl

/-- A request that does not concern a key leaves its rows. -/
theorem perform_about_of_not {r : Request} (h : r.concerns key = false) :
    (r.perform d t).2.about key = t.about key := by
  have hk : ∀ {α : Type} [DecidableEq α] {a b : α}, (a == b) = false → a ≠ b :=
    beq_eq_false_iff_ne.mp
  have leaves : ∀ {x : Except Error Tables}, (∀ t', x = .ok t' → t'.about key = t.about key) →
      (changing t x).2.about key = t.about key := fun changed =>
    changing_induction t (P := fun t' => t'.about key = t.about key) rfl changed
  cases r with
  | getTag => rfl
  | get => rfl
  | createArtifact a => exact leaves fun _ ht => Tags.createArtifact_about_of_ne ht (hk h)
  | addTag k id now => exact leaves fun _ ht => Tags.add_about_of_ne ht (hk h)
  | create r => exact leaves fun _ ht => Leases.create_about_of_ne ht (hk h)
  | createOrUpdate r now => exact leaves fun _ ht => Leases.createOrUpdate_about_of_ne ht (hk h)
  | delete k => exact leaves fun _ ht => Leases.delete_about_of_ne ht (hk h)
  | update u =>
    rw [perform_update]
    cases hu : Leases.update d t u with
    | error e => rfl
    | ok result => exact Leases.update_about_of_ne hu (hk h)

/-- Requests that concern a key do the same in tables that have the same rows for it. -/
theorem perform_congr {t t' : Tables} {r : Request} (h : r.concerns key = true)
    (same : t.about key = t'.about key) :
    (r.perform d t).1 = (r.perform d t').1 ∧
      (r.perform d t).2.about key = (r.perform d t').2.about key := by
  have first := perform_about d t h
  have second := perform_about d t' h
  rw [same, second] at first
  exact ⟨(congrArg Prod.fst first).symm, (congrArg Prod.snd first).symm⟩

end Request

/-! ## Calls -/

/-- All that a call asks concerns the key of its operation. -/
theorem Operation.MayAsk.concerns {timing : LeaseTiming} {operation : Operation}
    {reading : Option Instant} {r : Request} (h : operation.MayAsk timing reading r) (key : Key) :
    r.concerns key = (operation.key == key) := by
  cases r with
  | getTag k | get k => exact congrArg (· == key) h
  | createOrUpdate r now =>
    obtain ⟨-, c, hc, lease⟩ := h
    obtain ⟨_, _, -, -, rfl⟩ := Claim.lease?_eq_ok lease
    rw [Operation.key_of_claim? hc]
    rfl
  | delete k =>
    cases (h : operation = .release k)
    rfl
  | createArtifact | addTag | create | update => exact h.elim

namespace Call

variable {α : Type} {key : Key} {may : Option Instant → Request → Prop}

/-- Calls that ask only what concerns a key end in the same way on tables that have the same rows
for it, whatever they count. -/
theorem Obeys.run_congr (own : ∀ reading r, may reading r → r.concerns key = true) (d : Dialect)
    (now : Instant) {call : Call α} {reading : Option Instant} (obeys : call.Obeys may reading)
    {t t' : Tables} (same : t.about key = t'.about key) (c c' : Counters) :
    (call.run (.ofTables d) now t c).result = (call.run (.ofTables d) now t' c').result ∧
      (call.run (.ofTables d) now t c).state.about key =
        (call.run (.ofTables d) now t' c').state.about key := by
  induction call generalizing reading t t' c c' with
  | done result => exact ⟨rfl, same⟩
  | readClock next ih => exact ih now (obeys now) same c c'
  | record event next ih => exact ih obeys same _ _
  | ask request next ih =>
    obtain ⟨answer, same⟩ := Request.perform_congr d (own _ request obeys.1) same
    rw [run_ask, run_ask, answer]
    exact ih _ (obeys.2 _) same c c'

/-- A call that asks nothing that concerns a key leaves its rows. -/
theorem Obeys.run_about_of_not (others : ∀ reading r, may reading r → r.concerns key = false)
    (d : Dialect) (now : Instant) {call : Call α} {reading : Option Instant}
    (obeys : call.Obeys may reading) (t : Tables) (c : Counters) :
    (call.run (.ofTables d) now t c).state.about key = t.about key := by
  refine obeys.run_induction (P := fun t' => t'.about key = t.about key) ?_ now rfl c
  intro reading r t' asked same
  exact (Request.perform_about_of_not d t' (others reading r asked)).trans same

end Call

/-! ## Sessions -/

namespace Session

/-- Sessions that are the same for a key: they differ only in rows of other keys, and in what their
managers have counted. -/
structure Alike (key : Key) (s s' : Session) : Prop where
  /-- They have the same dialect. -/
  dialect : s.dialect = s'.dialect
  /-- The rows of the key are the same. -/
  tables : s.tables.about key = s'.tables.about key
  /-- The managers have the same timing. -/
  timing : ∀ i, (s.managers i).timing = (s'.managers i).timing
  /-- The managers have the same clocks. -/
  clock : ∀ i, (s.managers i).clock = (s'.managers i).clock

section Alike

variable {key : Key} {s s' : Session}

theorem Alike.refl (key : Key) (s : Session) : Alike key s s :=
  ⟨rfl, rfl, fun _ => rfl, fun _ => rfl⟩

/-- Serving a call leaves the timing and the clocks of all managers. -/
theorem serve_managers {α : Type} (s : Session) (i : Nat) (call : Call α) (j : Nat) :
    ((s.serve i call).2.managers j).timing = (s.managers j).timing ∧
      ((s.serve i call).2.managers j).clock = (s.managers j).clock := by
  change ((s.replace i _).managers j).timing = _ ∧ ((s.replace i _).managers j).clock = _
  unfold replace
  dsimp only
  split_ifs with h
  · subst h
    exact ⟨rfl, rfl⟩
  · exact ⟨rfl, rfl⟩

theorem replace_clock (s : Session) (i j : Nat) (clock : ManualClock) :
    ((s.replace i { s.managers i with clock := clock }).managers j).timing =
        (s.managers j).timing ∧
      ((s.replace i { s.managers i with clock := clock }).managers j).clock =
        if j = i then clock else (s.managers j).clock := by
  unfold replace
  dsimp only
  split_ifs with h
  · subst h
    exact ⟨rfl, rfl⟩
  · exact ⟨rfl, rfl⟩

/-- A step that concerns a key gives the same in sessions that are the same for it, and leaves such
sessions. -/
theorem Alike.step (h : Alike key s s') {x : Step} (hx : x.concerns key = true) :
    (s.step x).1 = (s'.step x).1 ∧ Alike key (s.step x).2 (s'.step x).2 := by
  cases x with
  | serve i operation =>
    have own : ∀ reading r, operation.MayAsk (s'.managers i).timing reading r →
        r.concerns key = true := fun _ _ may => (may.concerns key).trans hx
    have ran := (operation.call_obeys (s'.managers i).timing).run_congr own s'.dialect
      (s'.managers i).clock.now h.tables (s.managers i).counters (s'.managers i).counters
    have step : s.step (.serve i operation) =
        s.serve i (operation.call (s.managers i).timing) := rfl
    rw [h.timing i] at step
    rw [step]
    refine ⟨?_, h.dialect, ?_, ?_, ?_⟩
    · change (Call.run (.ofTables s.dialect) (s.managers i).clock.now _ _ _).result = _
      rw [h.dialect, h.clock i]
      exact ran.1
    · change (Call.run (.ofTables s.dialect) (s.managers i).clock.now _ _ _).state.about key = _
      rw [h.dialect, h.clock i]
      exact ran.2
    · intro j
      exact (serve_managers s i _ j).1.trans ((h.timing j).trans (serve_managers s' i _ j).1.symm)
    · intro j
      exact (serve_managers s i _ j).2.trans ((h.clock j).trans (serve_managers s' i _ j).2.symm)
  | ask request =>
    obtain ⟨answer, tables⟩ := Request.perform_congr s'.dialect hx h.tables
    refine ⟨?_, h.dialect, ?_, h.timing, h.clock⟩
    · change (request.perform s.dialect s.tables).1 = _
      rw [h.dialect]
      exact answer
    · change (request.perform s.dialect s.tables).2.about key = _
      rw [h.dialect]
      exact tables
  | move i how =>
    have moved : (s.managers i).clock.move how = (s'.managers i).clock.move how := by
      rw [h.clock i]
    refine ⟨congrArg ManualClock.now moved, h.dialect, h.tables, ?_, ?_⟩
    · intro j
      exact (replace_clock s i j _).1.trans ((h.timing j).trans (replace_clock s' i j _).1.symm)
    · intro j
      refine (replace_clock s i j _).2.trans (Eq.trans ?_ (replace_clock s' i j _).2.symm)
      rw [moved, h.clock j]
  | initialise =>
    refine ⟨rfl, h.dialect, ?_, h.timing, h.clock⟩
    change s.tables.create.about key = s'.tables.create.about key
    rw [Tables.create_about, h.tables, ← Tables.create_about]

/-- A step that does not concern a key changes nothing for it. -/
theorem Alike.skip (h : Alike key s s') {x : Step} (hx : x.concerns key = false) :
    Alike key (s.step x).2 s' := by
  cases x with
  | serve i operation =>
    have others : ∀ reading r, operation.MayAsk (s.managers i).timing reading r →
        r.concerns key = false := fun _ _ may => (may.concerns key).trans hx
    refine ⟨h.dialect, ?_, ?_, ?_⟩
    · exact ((operation.call_obeys _).run_about_of_not others s.dialect _ s.tables _).trans h.tables
    · exact fun j => (serve_managers s i _ j).1.trans (h.timing j)
    · exact fun j => (serve_managers s i _ j).2.trans (h.clock j)
  | ask request =>
    exact ⟨h.dialect, (Request.perform_about_of_not s.dialect s.tables hx).trans h.tables,
      h.timing, h.clock⟩
  | move | initialise => cases hx

theorem run_cons (s : Session) (x : Step) (rest : List Step) :
    s.run (x :: rest) =
      (⟨x, (s.step x).1⟩ :: ((s.step x).2.run rest).1, ((s.step x).2.run rest).2) := rfl

/-- The steps that concern a key give the same with and without the others between them. -/
theorem Alike.run (h : Alike key s s') (steps : List Step) :
    (s'.run (steps.filter (·.concerns key))).1 =
        (s.run steps).1.filter (fun given => given.1.concerns key) ∧
      Alike key (s.run steps).2 (s'.run (steps.filter (·.concerns key))).2 := by
  induction steps generalizing s s' with
  | nil => exact ⟨rfl, h⟩
  | cons x rest ih =>
    rw [run_cons, List.filter_cons, List.filter_cons]
    cases hx : x.concerns key with
    | true =>
      obtain ⟨answer, alike⟩ := h.step hx
      obtain ⟨answers, alike⟩ := ih alike
      rw [if_pos rfl, if_pos rfl, run_cons, answers, answer]
      exact ⟨rfl, alike⟩
    | false =>
      rw [if_neg Bool.false_ne_true, if_neg Bool.false_ne_true]
      exact ih (h.skip hx)

end Alike

/-- Of a session, the steps that do not concern a key can be left out: all others give what they
gave before, and the rows that concern the key are the same in the end. -/
theorem other_keys_irrelevant (s : Session) (steps : List Step) (key : Key) :
    (s.run (steps.filter (·.concerns key))).1 =
        (s.run steps).1.filter (fun given => given.1.concerns key) ∧
      (s.run (steps.filter (·.concerns key))).2.tables.about key =
        (s.run steps).2.tables.about key := by
  obtain ⟨answers, alike⟩ := (Alike.refl key s).run steps
  exact ⟨answers, alike.tables.symm⟩

/-- Keys that look the same may be different keys. -/
example :
    let key : Key := ⟨⟨"a/b", "c", "d", "e"⟩, "f"⟩
    let other : Key := ⟨⟨"a", "b/c", "d", "e"⟩, "f"⟩
    key.text = other.text ∧ (Request.get other).concerns key = false := by
  decide

end Session

end LeaseCatalog
