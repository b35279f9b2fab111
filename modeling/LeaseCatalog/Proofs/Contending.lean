import LeaseCatalog.Proofs.Calls
import LeaseCatalog.Proofs.Effects

/-!
# Contending for a lease by oneself

What a call comes to that runs while nothing else happens, on tables that hold a map of leases: a
caller who may claim what the map has for the key gets the lease, and everybody else is told who has
it (`Tables.Holds.run_contend_free`, `Tables.Holds.run_contend_held`).
-/

namespace LeaseCatalog

/-- A lease that starts at `now` ends at `ends`, and rows can hold both instants. -/
structure LeaseTiming.Lasts (timing : LeaseTiming) (now ends : Instant) : Prop where
  /-- The lease lasts as long as the timing says. -/
  ttl : ∃ seconds, timing.ttl? = .ok seconds ∧ now.addSeconds? seconds = some ends
  /-- A row can hold the start. -/
  now_storable : now.Storable
  /-- A row can hold the end. -/
  ends_storable : ends.Storable

section Run

variable {α : Type} (d : Dialect) (now : Instant) (t : Tables) (c : Counters)

theorem Call.run_readClock (next : Instant → Call α) :
    (Call.readClock next).run (.ofTables d) now t c = (next now).run (.ofTables d) now t c := rfl

theorem Call.run_ask (request : Request) (next : request.Answer → Call α) :
    (Call.ask request next).run (.ofTables d) now t c =
      (next (request.perform d t).1).run (.ofTables d) now (request.perform d t).2 c := rfl

end Run

/-- What holds of the tables, and goes on to hold after each request that a call may ask, holds when
the call has run. -/
theorem Call.Obeys.run_induction {α : Type} {may : Option Instant → Request → Prop} {d : Dialect}
    {P : Tables → Prop}
    (kept : ∀ reading r t, may reading r → P t → P (r.perform d t).2) (now : Instant)
    {call : Call α} {reading : Option Instant} (obeys : call.Obeys may reading) {t : Tables}
    (h : P t) (c : Counters) : P (call.run (.ofTables d) now t c).state := by
  induction call generalizing reading t c with
  | done result => exact h
  | readClock next ih => exact ih now (obeys now) h c
  | record event next ih => exact ih obeys h _
  | ask request next ih => exact ih _ (obeys.2 _) (kept _ request t obeys.1 h) c

section Lasts

variable {timing : LeaseTiming} {now ends : Instant}

theorem LeaseTiming.Lasts.lease? (h : timing.Lasts now ends) (c : Claim) :
    c.lease? timing now = .ok (.taken c.key c.owner ends now c.metadata) := by
  obtain ⟨seconds, hseconds, hends⟩ := h.ttl
  unfold Claim.lease?
  rw [hseconds]
  dsimp only
  rw [hends]

theorem LeaseTiming.Lasts.kept (h : timing.Lasts now ends) (kept : now.kept = now) :
    ends.kept = ends := by
  obtain ⟨seconds, -, hends⟩ := h.ttl
  exact Instant.kept_of_addSeconds? kept hends

theorem LeaseTiming.Lasts.storable (h : timing.Lasts now ends) (c : Claim) :
    ∀ x ∈ [(Reservation.taken c.key c.owner ends now c.metadata).expiresAt,
      (Reservation.taken c.key c.owner ends now c.metadata).createdAt,
      (Reservation.taken c.key c.owner ends now c.metadata).updatedAt, now], x.Storable := by
  intro x hx
  change x ∈ [ends, now, now, now] at hx
  simp only [List.mem_cons, List.not_mem_nil, or_false] at hx
  rcases hx with rfl | rfl | rfl | rfl
  · exact h.ends_storable
  · exact h.now_storable
  · exact h.now_storable
  · exact h.now_storable

end Lasts

/-- Tables in which no key stands for an artifact. -/
def Tables.Untagged (t : Tables) : Prop := ∀ key, t.selectTag key = .error .rowNotFound

theorem Tables.untagged_initial : Tables.initial.Untagged := fun _ => rfl

theorem Tables.Untagged.sameTags {t t' : Tables} (h : t.Untagged) (same : t.SameTags t') :
    t'.Untagged := fun key => (same.selectTag key).trans (h key)

theorem foundOrNone_getTag {t : Tables} {key : Key} (h : t.selectTag key = .error .rowNotFound)
    (d : Dialect) : foundOrNone (Tags.get d t key) = .ok none := by
  unfold Tags.get
  rw [h, Dialect.executed_error, Dialect.translate_rowNotFound]
  rfl

namespace Tables.Holds

variable {α : Type} {t : Tables} {m : LeaseMap}

theorem foundOrNone_get (h : t.Holds m) (d : Dialect) (key : Key) :
    foundOrNone (Leases.get d t key) = .ok ((m.lookup key).map (·.on key)) := by
  rw [h.get d key, LeaseMap.get]
  cases m.lookup key <;> rfl

section Contend

variable {c : Claim} {timing : LeaseTiming} {now ends : Instant}

/-- A caller who may claim what the key has gets the lease, and the key has it then. -/
theorem run_contend_free (d : Dialect) (h : t.Holds m) (lasts : timing.Lasts now ends)
    (claimable : ∀ e, m.lookup c.key = some e → (e.on c.key).isClaimableBy c.owner now = true)
    (failure : Event) (give : Attempt → α) (counters : Counters) :
    ∃ t' e counters', t'.Holds (m.insert c.key e) ∧ t.SameTags t' ∧
      e.grant = ⟨c.owner, ends.kept, c.metadata⟩ ∧
      (Call.contend c timing failure give).run (.ofTables d) now t counters =
        ⟨.ok (give ⟨true, .taken c.key c.owner ends now c.metadata⟩), t', counters'⟩ := by
  obtain ⟨t', ht'⟩ := h.createOrUpdate_accepted d (lasts.storable c) claimable
  obtain ⟨-, e, hold, hgrant⟩ := h.createOrUpdate_ok ht'
  have same := Leases.createOrUpdate_sameTags ht'
  -- whether the key was found free decides nothing but what is counted
  have write : ∀ free, ∃ counters',
      (Call.write c timing now free failure give).run (.ofTables d) now t counters =
        ⟨.ok (give ⟨true, .taken c.key c.owner ends now c.metadata⟩), t', counters'⟩ := by
    intro free
    refine ⟨counters.record (if free then .acquiredByCreation else .acquiredByUpdate), ?_⟩
    rw [Call.write_eq (lasts.lease? c), Call.run_ask, Request.perform_createOrUpdate, ht']
    rfl
  have found := h.foundOrNone_get d c.key
  rw [Call.contend_eq, Call.run_readClock, Call.run_ask, Request.perform_get]
  cases he : m.lookup c.key with
  | none =>
    obtain ⟨counters', hwrite⟩ := write true
    rw [he] at found
    refine ⟨t', e, counters', hold, same, hgrant, ?_⟩
    rw [Call.looked_none found, hwrite]
  | some old =>
    obtain ⟨counters', hwrite⟩ := write false
    rw [he] at found
    refine ⟨t', e, counters', hold, same, hgrant, ?_⟩
    rw [Call.looked_claimable found (claimable old he), hwrite]

/-- A caller who may not claim what the key has is told who has it, and changes nothing. -/
theorem run_contend_held (d : Dialect) (h : t.Holds m) {e : Entry} (he : m.lookup c.key = some e)
    (live : ¬ (e.on c.key).isClaimableBy c.owner now = true) (failure : Event)
    (give : Attempt → α) (counters : Counters) :
    (Call.contend c timing failure give).run (.ofTables d) now t counters =
      ⟨.ok (give ⟨false, e.on c.key⟩), t, counters.record .alreadyInProgress⟩ := by
  have found := h.foundOrNone_get d c.key
  rw [he] at found
  rw [Call.contend_eq, Call.run_readClock, Call.run_ask, Request.perform_get,
    Call.looked_live found live]
  rfl

end Contend

end Tables.Holds

end LeaseCatalog
