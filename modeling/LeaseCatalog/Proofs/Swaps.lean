import LeaseCatalog.Proofs.OtherKeys

/-!
# Conditional updates

An update names the expiry that its caller has seen, and is carried out only if the lease still ends
then. What is compared is the text of a row, so expiries of which the same is kept are the same to
it, and an expiry that is put back is as good as one that never changed. Where neither happens, no
update is lost: of all updates that expect the same expiry one is carried out at most, and it is the
first if nobody else interferes (`updates_not_lost`).

What carries this through any sequence of requests is whether the lease ends in the microsecond that
is kept of the expected instant (`Tables.EndsAt`). An update of the set is carried out exactly if it
does, and it does not afterwards (`Tables.Swaps.call_cases`); no other request brings that expiry
back (`Tables.Swaps.stays`).
-/

namespace LeaseCatalog

/-! ## Requests one after the other -/

theorem Stores.answers_append {σ : Type} (stores : Stores σ) (s : σ) (first rest : List Request) :
    (stores.answers s (first ++ rest)).2 = (stores.answers (stores.answers s first).2 rest).2 := by
  induction first generalizing s with
  | nil => rfl
  | cons r first ih => exact ih (stores r s).2

namespace Tables

variable {d : Dialect} {t : Tables} {requests : List Request} {n : Nat}

/-- The tables before the request at a position, where requests are made one after the other. -/
def before (t : Tables) (d : Dialect) (requests : List Request) (n : Nat) : Tables :=
  ((Stores.ofTables d).answers t (requests.take n)).2

theorem before_succ {r : Request} (h : requests[n]? = some r) :
    t.before d requests (n + 1) = (r.perform d (t.before d requests n)).2 := by
  unfold before
  rw [List.take_add_one, h, Stores.answers_append]
  rfl

theorem before_succ_of_none (h : requests[n]? = none) :
    t.before d requests (n + 1) = t.before d requests n := by
  unfold before
  rw [List.take_add_one, h, Option.toList_none, List.append_nil]

theorem before_succ_of_update {u : Leases.Update} (h : requests[n]? = some (.update u)) :
    t.before d requests (n + 1) =
      match Leases.update d (t.before d requests n) u with
      | .ok (_, changed) => changed
      | .error _ => t.before d requests n := by
  rw [before_succ h, Request.perform_update]
  cases Leases.update d (t.before d requests n) u <;> rfl

theorem Holds.exists_answers {m : LeaseMap} (h : t.Holds m) (d : Dialect)
    (requests : List Request) : ∃ m', ((Stores.ofTables d).answers t requests).2.Holds m' := by
  induction requests generalizing t m with
  | nil => exact ⟨m, h⟩
  | cons r rest ih =>
    obtain ⟨m', hold, -⟩ := h.perform_frame d r
    exact ih hold

theorem Holds.before {m : LeaseMap} (h : t.Holds m) (d : Dialect) (requests : List Request)
    (n : Nat) : ∃ m', (t.before d requests n).Holds m' :=
  h.exists_answers d (requests.take n)

end Tables

/-! ## One update -/

/-- The lease of a key ends in the microsecond that is kept of an instant. -/
def Tables.EndsAt (d : Dialect) (t : Tables) (key : Key) (expected : Instant) : Prop :=
  ∃ r, Leases.get d t key = .ok r ∧ r.expiresAt = expected.kept

section Update

variable {d : Dialect} {t : Tables} {m : LeaseMap} {key : Key} {expected : Instant}

theorem Tables.Holds.endsAt_iff (h : t.Holds m) :
    t.EndsAt d key expected ↔ ∃ e, m.lookup key = some e ∧ e.expiresAt = expected.kept := by
  unfold Tables.EndsAt
  rw [h.get d key, LeaseMap.get]
  cases m.lookup key with
  | none => simp
  | some e => simp [Entry.on]

theorem Tables.Holds.row?_eq (h : t.Holds m) (key : Key) :
    t.row? key = (m.lookup key).map fun e => e.row key := by
  obtain ⟨rows, hrows, hold⟩ := h
  rw [Tables.row?_of_rows hrows, hold.found key]

theorem Tables.EndsAt.unique {other : Instant} (h : t.EndsAt d key expected)
    (h' : t.EndsAt d key other) : expected.kept = other.kept := by
  obtain ⟨r, hr, ends⟩ := h
  obtain ⟨r', hr', ends'⟩ := h'
  cases hr.symm.trans hr'
  exact ends.symm.trans ends'

theorem Tables.EndsAt.congr {other : Instant} (h : t.EndsAt d key expected)
    (same : expected.kept = other.kept) : t.EndsAt d key other := by
  obtain ⟨r, hr, ends⟩ := h
  exact ⟨r, hr, ends.trans same⟩

theorem Tables.Holds.endsAt_frame (h : t.Holds m) {r : Request} (other : r.writtenKey? ≠ some key) :
    (r.perform d t).2.EndsAt d key expected ↔ t.EndsAt d key expected := by
  obtain ⟨m', hold, same⟩ := h.perform_frame d r
  rw [h.endsAt_iff, hold.endsAt_iff, same key other]

/-- All that can come of an update. -/
inductive Leases.Update.Gives (d : Dialect) (t : Tables) (u : Leases.Update) :
    Except Error (Nat × Tables) → Prop where
  /-- The lease ends when it is expected to, and is moved. -/
  | moved {t' : Tables} {row : ReservationRow} (ends : t.EndsAt d u.key u.expected)
      (left : t'.EndsAt d u.key u.expiresAt) (found : t.row? u.key = some row)
      (written : t'.row? u.key = some { row with
        owner := u.owner
        expiresAt := Timestamp.text u.expiresAt
        updatedAt := Timestamp.text u.now }) :
      Gives d t u (.ok (1, t'))
  /-- There is no lease that ends then, and nothing is written. -/
  | missed (other : ¬ t.EndsAt d u.key u.expected) : Gives d t u (.ok (0, t))
  /-- Rows cannot hold the instants of the update. -/
  | refused {e : Error} (fault : ¬ (u.expiresAt.Storable ∧ u.now.Storable ∧ u.expected.Storable)) :
      Gives d t u (.error e)

theorem Tables.eq_of_updateReservation_zero {t' : Tables}
    {owner expiresAt updatedAt expected : String}
    (h : t.updateReservation key owner expiresAt updatedAt expected = .ok (0, t')) : t' = t := by
  obtain ⟨rows, hrows, h⟩ := bind_eq_ok h
  obtain ⟨count, rfl⟩ := Prod.mk.inj (Except.ok.inj h)
  have unchosen := List.countP_eq_zero.mp count
  rw [List.map_congr_left fun r hr => if_neg (unchosen r hr), List.map_id', ← rows_eq_ok hrows]

theorem Leases.eq_of_update_zero {t' : Tables} {u : Leases.Update}
    (h : Leases.update d t u = .ok (0, t')) : t' = t := by
  obtain ⟨texts, -, h⟩ := bind_eq_ok h
  exact Tables.eq_of_updateReservation_zero (Dialect.executed_eq_ok h)

theorem Tables.Holds.gives (h : t.Holds m) (d : Dialect) (u : Leases.Update) :
    u.Gives d t (Leases.update d t u) := by
  rcases h.update d u with ⟨n, t', m', ran, mapped, hold⟩ | ⟨e, ran, mapped⟩
  · rw [ran]
    obtain ⟨-, -, mapped⟩ := bind_eq_ok mapped
    by_cases ends : t.EndsAt d u.key u.expected
    · obtain ⟨e, he, hexp⟩ := h.endsAt_iff.mp ends
      rw [he] at mapped
      cases (if_pos hexp).symm.trans mapped
      have found : t.row? u.key = some (e.row u.key) := by
        rw [h.row?_eq, he]
        rfl
      refine .moved ends (hold.endsAt_iff.mpr ⟨_, Finmap.lookup_insert _, rfl⟩) found ?_
      rw [hold.row?_eq, Finmap.lookup_insert, Option.map_some, Entry.row, Timestamp.text_kept,
        Timestamp.text_kept]
      rfl
    · have zero : n = 0 := by
        cases he : m.lookup u.key with
        | none =>
          rw [he] at mapped
          cases mapped
          rfl
        | some e =>
          rw [he] at mapped
          have other : e.expiresAt ≠ u.expected.kept := fun hexp =>
            ends (h.endsAt_iff.mpr ⟨e, he, hexp⟩)
          cases (if_neg other).symm.trans mapped
          rfl
      subst zero
      rw [Leases.eq_of_update_zero ran]
      exact .missed ends
  · rw [ran]
    refine .refused ?_
    rintro ⟨hexpires, hnow, hexpected⟩
    have storable : checkStorable [u.expiresAt, u.now, u.expected] = .ok () := by
      rw [checkStorable_eq_ok_iff]
      simp [hexpires, hnow, hexpected]
    unfold LeaseMap.update at mapped
    rw [storable, ok_bind] at mapped
    split at mapped
    · cases mapped
    · split_ifs at mapped

end Update

/-! ## A set of updates -/

/-- The update at a position is carried out. -/
def Tables.CarriedOut (d : Dialect) (start : Tables) (requests : List Request) (n : Nat) : Prop :=
  ∃ u, requests[n]? = some (.update u) ∧
    Leases.update d (start.before d requests n) u = .ok (1, start.before d requests (n + 1))

/-- Calls, given by their positions among requests, that all expect the lease on a key to end in the
same microsecond. -/
structure Tables.Swaps (d : Dialect) (start : Tables) (requests : List Request) (key : Key)
    (expected : Instant) (calls : Nat → Prop) : Prop where
  /-- The calls are updates of the key. They expect the microsecond and leave another, and rows can
  hold all their instants. -/
  call : ∀ n, calls n → ∃ u, requests[n]? = some (.update u) ∧ u.key = key ∧
    u.expected.kept = expected.kept ∧ u.expiresAt.kept ≠ expected.kept ∧
    u.expiresAt.Storable ∧ u.now.Storable ∧ u.expected.Storable
  /-- No other update of the key that is carried out leaves the microsecond. -/
  other : ∀ n u, ¬ calls n → requests[n]? = some (.update u) → u.key = key →
    start.CarriedOut d requests n → u.expiresAt.kept ≠ expected.kept
  /-- Nothing else that would write the lease of the key is carried out. -/
  unwritten : ∀ n r, requests[n]? = some r → r.writtenKey? = some key → (∀ u, r ≠ .update u) →
    start.before d requests (n + 1) = start.before d requests n

/-- What comes of the update at a position: either it is carried out, and the lease ends as it says,
or it leaves the tables. -/
theorem Tables.Holds.update_cases {d : Dialect} {start : Tables} {requests : List Request}
    {m : LeaseMap} {n : Nat} (hold : start.Holds m) {u : Leases.Update}
    (hu : requests[n]? = some (.update u)) :
    (start.CarriedOut d requests n ∧ (start.before d requests n).EndsAt d u.key u.expected ∧
        (start.before d requests (n + 1)).EndsAt d u.key u.expiresAt) ∨
      (start.before d requests (n + 1) = start.before d requests n ∧
        (u.expiresAt.Storable ∧ u.now.Storable ∧ u.expected.Storable →
          ¬ (start.before d requests n).EndsAt d u.key u.expected ∧
          Leases.update d (start.before d requests n) u =
            .ok (0, start.before d requests n))) := by
  obtain ⟨_, hold⟩ := hold.before d requests n
  have gives := hold.gives d u
  have after := before_succ_of_update (d := d) (t := start) hu
  generalize ran : Leases.update d (start.before d requests n) u = result at gives
  rw [ran] at after
  cases gives with
  | moved ends left =>
    have carried : start.CarriedOut d requests n := ⟨u, hu, by rw [ran, after]⟩
    rw [after]
    exact .inl ⟨carried, ends, left⟩
  | missed other => exact .inr ⟨after, fun _ => ⟨other, rfl⟩⟩
  | refused fault => exact .inr ⟨after, fun storable => absurd storable fault⟩

namespace Tables.Swaps

variable {d : Dialect} {start : Tables} {requests : List Request} {key : Key} {expected : Instant}
  {calls : Nat → Prop} {m : LeaseMap} {n : Nat}

/-- A call of the set is carried out exactly if the lease ends when it expects, which the lease does
not after it. Otherwise it changes nothing. -/
theorem call_cases (h : start.Swaps d requests key expected calls) (hold : start.Holds m)
    (hn : calls n) :
    ((start.before d requests n).EndsAt d key expected ∧ start.CarriedOut d requests n ∧
        ¬ (start.before d requests (n + 1)).EndsAt d key expected) ∨
      (¬ (start.before d requests n).EndsAt d key expected ∧
        (∃ u, requests[n]? = some (.update u) ∧
          Leases.update d (start.before d requests n) u = .ok (0, start.before d requests n)) ∧
        start.before d requests (n + 1) = start.before d requests n) := by
  obtain ⟨u, hu, rfl, same, moves, storable⟩ := h.call n hn
  rcases hold.update_cases hu with ⟨carried, ends, left⟩ | ⟨after, missed⟩
  · exact .inl ⟨ends.congr same, carried, fun still => moves (left.unique still)⟩
  · obtain ⟨other, zero⟩ := missed storable
    exact .inr ⟨fun ends => other (ends.congr same.symm), ⟨u, hu, zero⟩, after⟩

theorem endsAt_of_carriedOut (h : start.Swaps d requests key expected calls) (hold : start.Holds m)
    (hn : calls n) (carried : start.CarriedOut d requests n) :
    (start.before d requests n).EndsAt d key expected := by
  rcases h.call_cases hold hn with ⟨ends, -⟩ | ⟨-, ⟨u, hu, missed⟩, -⟩
  · exact ends
  · obtain ⟨u', hu', ran⟩ := carried
    cases hu.symm.trans hu'
    rw [missed] at ran
    cases ran

/-- Without an update of the key that changes anything, the lease ends when it did. -/
theorem endsAt_succ_iff (h : start.Swaps d requests key expected calls) (hold : start.Holds m)
    (quiet : ∀ u, requests[n]? = some (.update u) → u.key = key →
      start.before d requests (n + 1) = start.before d requests n) :
    (start.before d requests (n + 1)).EndsAt d key expected ↔
      (start.before d requests n).EndsAt d key expected := by
  obtain ⟨_, hold⟩ := hold.before d requests n
  cases hr : requests[n]? with
  | none => rw [before_succ_of_none hr]
  | some r =>
    by_cases hkey : r.writtenKey? = some key
    · by_cases update : ∃ u, r = .update u
      · obtain ⟨u, rfl⟩ := update
        rw [quiet u hr (Option.some.inj hkey)]
      · rw [not_exists] at update
        rw [h.unwritten n r hr hkey update]
    · rw [before_succ hr, hold.endsAt_frame hkey]

/-- Once the lease does not end in the microsecond, the next request does not bring that back. -/
theorem stays (h : start.Swaps d requests key expected calls) (hold : start.Holds m)
    (gone : ¬ (start.before d requests n).EndsAt d key expected) :
    ¬ (start.before d requests (n + 1)).EndsAt d key expected := by
  -- Nothing but an update of the key can bring the microsecond back.
  by_cases update : ∃ u, requests[n]? = some (.update u) ∧ u.key = key
  · obtain ⟨u, hu, rfl⟩ := update
    rcases hold.update_cases hu with ⟨carried, -, left⟩ | ⟨after, -⟩
    · intro again
      have back : u.expiresAt.kept = expected.kept := left.unique again
      by_cases hn : calls n
      · obtain ⟨u', hu', -, -, moves, -⟩ := h.call n hn
        cases hu.symm.trans hu'
        exact moves back
      · exact h.other n u hn hu rfl carried back
    · rwa [after]
  · rw [h.endsAt_succ_iff hold fun u hu hkey => absurd ⟨u, hu, hkey⟩ update]
    exact gone

theorem stays_later (h : start.Swaps d requests key expected calls) (hold : start.Holds m)
    (gone : ¬ (start.before d requests n).EndsAt d key expected) {k : Nat} (later : n ≤ k) :
    ¬ (start.before d requests k).EndsAt d key expected := by
  induction later with
  | refl => exact gone
  | step _ ih => exact h.stays hold ih

/-- Of two calls that are carried out, none comes first. -/
theorem unique (h : start.Swaps d requests key expected calls) (hold : start.Holds m) {i j : Nat}
    (hi : calls i) (hj : calls j) (first : start.CarriedOut d requests i)
    (second : start.CarriedOut d requests j) : ¬ i < j := by
  intro lt
  have ends := h.endsAt_of_carriedOut hold hi first
  rcases h.call_cases hold hi with ⟨-, -, gone⟩ | ⟨other, -⟩
  · exact h.stays_later hold gone lt (h.endsAt_of_carriedOut hold hj second)
  · exact other ends

end Tables.Swaps

/-- An update that is carried out changes nothing but the owner, the expiry and the time of the last
write of one row. -/
theorem Tables.CarriedOut.changes {d : Dialect} {start : Tables} {requests : List Request} {n : Nat}
    {m : LeaseMap} (hold : start.Holds m) (h : start.CarriedOut d requests n)
    {u : Leases.Update} (hu : requests[n]? = some (.update u)) :
    (∃ row, (start.before d requests n).row? u.key = some row ∧
      (start.before d requests (n + 1)).row? u.key = some { row with
        owner := u.owner
        expiresAt := Timestamp.text u.expiresAt
        updatedAt := Timestamp.text u.now }) ∧
      (∀ other ≠ u.key, (start.before d requests (n + 1)).about other =
        (start.before d requests n).about other) ∧
      (start.before d requests n).SameTags (start.before d requests (n + 1)) := by
  obtain ⟨u', hu', ran⟩ := h
  cases hu.symm.trans hu'
  obtain ⟨_, hold⟩ := hold.before d requests n
  refine ⟨?_, ?_, ?_⟩
  · have gives := hold.gives d u
    rw [ran] at gives
    generalize start.before d requests (n + 1) = after at gives
    cases gives with
    | moved ends left found written => exact ⟨_, found, written⟩
  · intro other hk
    exact Leases.update_about_of_ne ran hk.symm
  · obtain ⟨texts, -, ran⟩ := bind_eq_ok ran
    exact Tables.updateReservation_sameTags (Dialect.executed_eq_ok ran)

end LeaseCatalog
