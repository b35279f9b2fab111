import LeaseCatalog.Proofs.OpenKeys

/-!
# The limits of leases

A lease may last for a week at most, and it starts and ends in the years that rows can hold. Who
contends for a key that is open to the claim acquires the lease exactly if it lies within these
limits (`acquired_within_limits`). Otherwise the error names the limit that is checked first: how
long a lease may last, then whether there is an instant at which it would end, then whether rows can
hold it.

The limits are stated in seconds and years, where nothing overflows. What the checks compute from
instants, which run out in the year 262142, agrees with that because a later day never lies in an
earlier year.
-/

namespace LeaseCatalog

/-! ## Years to come -/

namespace Instant

variable {t u : Instant} {n : Nat}

/-- The year in UTC that it is a number of seconds after an instant. There may be no instant then. -/
def yearAfter (t : Instant) (n : Nat) : Int := (Date.ofDays ((t.seconds + n) / 86400)).year

theorem year_le_yearAfter (t : Instant) (n : Nat) : t.date.year ≤ t.yearAfter n := by
  have days : t.days ≤ (t.seconds + n) / 86400 := by
    unfold Instant.days
    omega
  exact Date.year_le_year days

theorem seconds_lt_of_yearAfter (h : t.yearAfter n ≤ 9999) : t.seconds + n < 253402300800 := by
  by_contra hlate
  have days : 2932897 ≤ (t.seconds + n) / 86400 := by omega
  have year : 10000 ≤ t.yearAfter n := Date.year_ge_of_late days
  omega

theorem seconds_of_addSeconds? (h : t.addSeconds? n = some u) : u.seconds = t.seconds + n := by
  unfold addSeconds? at h
  split_ifs at h with h0
  · cases h
    omega
  · exact (ofParts?_eq_some_iff.mp h).2.1

theorem year_of_addSeconds? (h : t.addSeconds? n = some u) : u.date.year = t.yearAfter n := by
  unfold Instant.date Instant.days yearAfter
  rw [seconds_of_addSeconds? h]

/-- Only after the last second there are no more instants. -/
theorem addSeconds?_eq_none_iff : t.addSeconds? n = none ↔ maxSeconds < t.seconds + n := by
  have first := t.seconds_ge
  have last := t.seconds_le
  unfold addSeconds?
  split_ifs with h0
  · refine ⟨nofun, fun beyond => ?_⟩
    unfold maxSeconds at beyond
    omega
  · -- time that has passed is in no leap second, so it fails by the second alone
    have noLeap : t.nanos % 1000000000 < 1000000000 := Nat.mod_lt _ (by decide)
    unfold ofParts?
    split_ifs with h
    · refine ⟨nofun, fun beyond => ?_⟩
      omega
    · refine ⟨fun _ => ?_, fun _ => rfl⟩
      unfold minSeconds maxSeconds at *
      omega

end Instant

/-! ## Leases within the limits -/

namespace LeaseTiming

variable {timing : LeaseTiming} {now : Instant}

/-- The limits that a lease keeps which starts at `now`. -/
structure Within (timing : LeaseTiming) (now : Instant) : Prop where
  /-- It lasts for a week at most. -/
  ttl : timing.heartbeatSeconds * timing.multiplier ≤ 604800
  /-- It does not start before year 0. -/
  start_ge : 0 ≤ now.date.year
  /-- It does not start after year 9999. -/
  start_le : now.date.year ≤ 9999
  /-- It does not end after year 9999. -/
  end_le : now.yearAfter (timing.heartbeatSeconds * timing.multiplier) ≤ 9999

/-- The kind of the error for a lease that does not keep the limits. -/
def faultKind (timing : LeaseTiming) (now : Instant) : ErrorKind :=
  if 604800 < timing.heartbeatSeconds * timing.multiplier then .invalidConfig
  else if Instant.maxSeconds < now.seconds + (timing.heartbeatSeconds * timing.multiplier : Nat) then
    .internal
  else .invalidArgument

theorem ttl?_of_le (h : timing.heartbeatSeconds * timing.multiplier ≤ 604800) :
    timing.ttl? = .ok (timing.heartbeatSeconds * timing.multiplier) := if_pos h

theorem ttl?_of_lt (h : 604800 < timing.heartbeatSeconds * timing.multiplier) :
    timing.ttl? = .error (.config (.leaseTooLong maxLeaseSeconds)) := if_neg (by
  unfold maxLeaseSeconds
  omega)

theorem Within.exists_lasts (h : timing.Within now) : ∃ ends, timing.Lasts now ends := by
  have late := Instant.seconds_lt_of_yearAfter h.end_le
  cases hends : now.addSeconds? (timing.heartbeatSeconds * timing.multiplier) with
  | none =>
    have beyond := Instant.addSeconds?_eq_none_iff.mp hends
    unfold Instant.maxSeconds at beyond
    omega
  | some ends =>
    have year := Instant.year_of_addSeconds? hends
    have later := now.year_le_yearAfter (timing.heartbeatSeconds * timing.multiplier)
    have start := h.start_ge
    refine ⟨ends, ⟨_, ttl?_of_le h.ttl, hends⟩, ⟨h.start_ge, h.start_le⟩, ?_, ?_⟩
    · omega
    · rw [year]
      exact h.end_le

theorem Lasts.within {ends : Instant} (ttl : timing.heartbeatSeconds * timing.multiplier ≤ 604800)
    (hends : now.addSeconds? (timing.heartbeatSeconds * timing.multiplier) = some ends)
    (hnow : now.Storable) (storable : ends.Storable) : timing.Within now := by
  have year := Instant.year_of_addSeconds? hends
  refine ⟨ttl, hnow.1, hnow.2, ?_⟩
  rw [← year]
  exact storable.2

end LeaseTiming

/-! ## Calls at the limits -/

section Limits

variable {t : Tables} {c : Claim} {timing : LeaseTiming} {now : Instant}

/-- Contending for a lease that does not keep the limits fails, and leaves the tables. -/
theorem Tables.OpenTo.run_outside {α : Type} (h : t.OpenTo c now) (d : Dialect)
    (outside : ¬ timing.Within now) (failure : Event) (give : Attempt → α) (counters : Counters) :
    ∃ e, e.kind = timing.faultKind now ∧
      (Call.contend c timing failure give).run (.ofTables d) now t counters =
        ⟨.error e, t, counters.record failure⟩ := by
  -- The cases are those of the checks, in their order.
  unfold LeaseTiming.faultKind
  by_cases ttl : timing.heartbeatSeconds * timing.multiplier ≤ 604800
  · rw [if_neg (Nat.not_lt.mpr ttl)]
    have seconds := LeaseTiming.ttl?_of_le ttl
    cases hends : now.addSeconds? (timing.heartbeatSeconds * timing.multiplier) with
    | none =>
      rw [if_pos (Instant.addSeconds?_eq_none_iff.mp hends)]
      have undefined : c.lease? timing now = .error (.expiryOverflow now) :=
        Claim.lease?_eq_error_iff.mpr (.inr ⟨_, seconds, hends, rfl⟩)
      exact ⟨_, rfl, h.run_leaseless failure give counters d undefined⟩
    | some ends =>
      have exists_end : ¬ Instant.maxSeconds <
          now.seconds + (timing.heartbeatSeconds * timing.multiplier : Nat) := by
        rw [← Instant.addSeconds?_eq_none_iff, hends]
        nofun
      rw [if_neg exists_end]
      have defined : c.lease? timing now = .ok (.taken c.key c.owner ends now c.metadata) :=
        Claim.lease?_eq_ok_iff.mpr ⟨ends, ⟨_, seconds, hends⟩, rfl⟩
      have unstorable : ¬ (now.Storable ∧ ends.Storable) := by
        rintro ⟨hnow, storable⟩
        exact outside (LeaseTiming.Lasts.within ttl hends hnow storable)
      obtain ⟨x, run⟩ := h.run_unstorable failure give counters d defined unstorable
      exact ⟨_, rfl, run⟩
  · rw [if_pos (Nat.not_le.mp ttl)]
    have undefined : c.lease? timing now = .error (.config (.leaseTooLong maxLeaseSeconds)) :=
      Claim.lease?_eq_error_iff.mpr (.inl (LeaseTiming.ttl?_of_lt (Nat.not_le.mp ttl)))
    exact ⟨_, rfl, h.run_leaseless failure give counters d undefined⟩

/-- Who reserves or extends on a key that is open to the claim, and stands for no artifact, acquires
a lease exactly within the limits. Outside them the call fails by the limit that is checked first,
and leaves the tables, so on a free key the same call acquires a lease as soon as the clock is set
within the limits. -/
theorem acquired_within_limits (d : Dialect) {operation : Operation}
    (hc : operation.claim? = some c) (valid : c.validate = .ok ())
    (untagged : t.selectTag c.key = .error .rowNotFound) (openTo : t.OpenTo c now)
    (timing : LeaseTiming) (counters : Counters) :
    let outcome := (operation.call timing).run (.ofTables d) now t counters
    ((∃ ends, operation.Acquires c timing now ends d t counters outcome) ↔ timing.Within now) ∧
    (¬ timing.Within now →
      outcome.state = t ∧ (∃ e, outcome.result = .error e ∧ e.kind = timing.faultKind now) ∧
      (t.Free c.key → ∀ now', timing.Within now' →
        ∃ ends, operation.Acquires c timing now' ends d outcome.state outcome.counters
          ((operation.call timing).run (.ofTables d) now' outcome.state outcome.counters))) := by
  intro outcome
  obtain ⟨failure, give, -, contends⟩ := Operation.exists_contend hc valid timing
  have ran := contends d t now counters untagged
  have fails : ¬ timing.Within now → ∃ e, e.kind = timing.faultKind now ∧
      outcome = ⟨.error e, t, counters.record failure⟩ := by
    intro outside
    obtain ⟨e, kind, run⟩ := openTo.run_outside d outside failure give counters
    exact ⟨e, kind, ran.trans run⟩
  refine ⟨⟨?_, ?_⟩, ?_⟩
  · rintro ⟨ends, acquires⟩
    by_contra outside
    obtain ⟨e, -, failed⟩ := fails outside
    have reply := acquires.reply
    rw [failed] at reply
    cases reply
  · intro within
    obtain ⟨ends, lasts⟩ := within.exists_lasts
    exact ⟨ends, openTo.acquires hc valid untagged lasts d counters⟩
  · intro outside
    obtain ⟨e, kind, failed⟩ := fails outside
    rw [failed]
    refine ⟨rfl, ⟨e, rfl, kind⟩, ?_⟩
    intro free now' within
    obtain ⟨ends, lasts⟩ := within.exists_lasts
    exact ⟨ends, (Tables.OpenTo.free free).acquires hc valid untagged lasts d _⟩

end Limits

/-- From this instant leases of three heartbeats of five seconds end with the year 9999. -/
def newYearsEve : Instant := (Instant.ofParts? 253402300784 999999000).getD .epoch

theorem leases_of_new_years_eve :
    let c := Session.claimOf "first"
    let late := (newYearsEve.addSeconds? 1).getD .epoch
    let extending := fun now => ((Operation.extend c).call .standard).run (.ofTables .sqlite) now
      .initial .zero
    (c.validate = .ok () ∧ Tables.initial.selectTag c.key = .error .rowNotFound ∧
      ∀ now, Tables.initial.OpenTo c now) ∧
    (∃ ends, (Operation.extend c).Acquires c .standard newYearsEve ends .sqlite .initial .zero
      (extending newYearsEve)) ∧
    ∃ e, (extending late).result = .error e ∧ e.kind = .invalidArgument := by
  intro c late extending
  have claim : (Operation.extend c).claim? = some c := rfl
  have valid : c.validate = .ok () := by decide
  have openTo : ∀ now, Tables.initial.OpenTo c now := by
    intro now
    rw [Tables.holds_initial.openTo_iff .sqlite]
    intro r found
    cases found
  have within : LeaseTiming.standard.Within newYearsEve :=
    ⟨by decide, by decide, by decide, by decide⟩
  have outside : ¬ LeaseTiming.standard.Within late := by
    rintro ⟨-, -, -, later⟩
    exact absurd later (by decide)
  obtain ⟨acquired, -⟩ := acquired_within_limits .sqlite claim valid rfl
    (openTo newYearsEve) .standard .zero
  obtain ⟨-, failed⟩ := acquired_within_limits .sqlite claim valid rfl
    (openTo late) .standard .zero
  obtain ⟨-, ⟨e, result, kind⟩, -⟩ := failed outside
  have kinds : LeaseTiming.standard.faultKind late = .invalidArgument := by decide
  exact ⟨⟨valid, rfl, openTo⟩, acquired.mpr within, e, result, kind.trans kinds⟩

end LeaseCatalog
