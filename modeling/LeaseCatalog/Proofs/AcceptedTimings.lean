import LeaseCatalog.Proofs.Damage
import LeaseCatalog.Proofs.Limits

/-!
# Timings that are accepted

Three checks bound how long leases last, each written by itself: the configuration is refused if a
factor is zero or the product of the two is more than a week, `LeaseTiming.ttl?` refuses such a
product once more for every lease, and `LeaseTiming.heartbeatInterval` cuts what callers are told.
They agree. A configuration passes exactly if its timing is `Accepted`
(`Config.validate_eq_ok_iff`), and the other two then give the configured numbers as they are.

The numbers come as words of 64 and 32 bits. The product of two such words need not fit in 64, and
`LeaseTiming.checkedTtl?` is the check as it is done on words; it decides as if numbers had no end
(`LeaseTiming.map_checkedTtl?`).

A manager with an accepted timing never blames the configuration, whatever happens in the stores
(`Traffic.kind_of_result`), and every lease that it writes ends after the instant for which it was
computed (`Traffic.WritesAt.addSeconds?`).
-/

namespace LeaseCatalog

namespace LeaseTiming

/-! ## The checks on words -/

/-- The product of two words in 64 bits, if it fits. -/
def product? (heartbeat : UInt64) (multiplier : UInt32) : Option UInt64 :=
  if heartbeat.toNat * multiplier.toNat < 18446744073709551616 then
    some (heartbeat * multiplier.toUInt64)
  else none

/-- How many seconds a lease lasts, as computed on words. -/
def checkedTtl? (heartbeat : UInt64) (multiplier : UInt32) : Option UInt64 :=
  (product? heartbeat multiplier).filter fun seconds => decide (seconds ≤ 604800)

/-- The timing of two words. -/
def ofWords (heartbeat : UInt64) (multiplier : UInt32) : LeaseTiming :=
  ⟨heartbeat.toNat, multiplier.toNat⟩

section Words

variable {heartbeat : UInt64} {multiplier : UInt32}

/-- A product that fits is that of the numbers. -/
theorem toNat_product (fits : heartbeat.toNat * multiplier.toNat < 18446744073709551616) :
    (heartbeat * multiplier.toUInt64).toNat = heartbeat.toNat * multiplier.toNat := by
  rw [UInt64.toNat_mul, UInt32.toNat_toUInt64]
  exact Nat.mod_eq_of_lt fits

/-- On words a lease lasts as long as on numbers: no product overflows into one that is short
enough. -/
theorem map_checkedTtl? (heartbeat : UInt64) (multiplier : UInt32) :
    (checkedTtl? heartbeat multiplier).map UInt64.toNat =
      (ofWords heartbeat multiplier).ttl?.toOption := by
  unfold checkedTtl? product? ttl? ofWords maxLeaseSeconds
  dsimp only
  split_ifs with fits short short
  · have accepted : heartbeat * multiplier.toUInt64 ≤ 604800 := by
      rw [UInt64.le_iff_toNat_le, toNat_product fits]
      exact short
    rw [Option.filter_some, if_pos (decide_eq_true accepted), Option.map_some,
      toNat_product fits]
    rfl
  · have refused : ¬ heartbeat * multiplier.toUInt64 ≤ 604800 := by
      rw [UInt64.le_iff_toNat_le, toNat_product fits]
      exact short
    rw [Option.filter_some, if_neg (by simpa using refused)]
    rfl
  · omega
  · rfl

end Words

/-! ## Accepted timings -/

/-- Both numbers are at least one, and leases last for a week at most. -/
structure Accepted (timing : LeaseTiming) : Prop where
  /-- Heartbeats are a second apart at least. -/
  heartbeat : 1 ≤ timing.heartbeatSeconds
  /-- A lease lasts for a heartbeat at least. -/
  multiplier : 1 ≤ timing.multiplier
  /-- A lease lasts for a week at most. -/
  ttl : timing.heartbeatSeconds * timing.multiplier ≤ 604800

section Accepted

variable {timing : LeaseTiming} (h : timing.Accepted)

include h

theorem Accepted.ttl?_eq :
    timing.ttl? = .ok (timing.heartbeatSeconds * timing.multiplier) := ttl?_of_le h.ttl

theorem Accepted.heartbeat_le_ttl :
    timing.heartbeatSeconds ≤ timing.heartbeatSeconds * timing.multiplier :=
  Nat.le_mul_of_pos_right _ h.multiplier

/-- Callers are told the configured seconds between heartbeats. -/
theorem Accepted.heartbeatInterval_eq : timing.heartbeatInterval = timing.heartbeatSeconds :=
  Nat.min_eq_left (Nat.le_trans h.heartbeat_le_ttl h.ttl)

theorem Accepted.ttl_pos : 0 < timing.heartbeatSeconds * timing.multiplier :=
  Nat.mul_pos h.heartbeat h.multiplier

end Accepted

end LeaseTiming

/-- The settings that have nothing to do with leases are sound. -/
structure Config.SoundElsewhere (c : Config) : Prop where
  /-- There is an address. -/
  url : Text.allBlank c.url = false
  /-- Some connection is allowed. -/
  connections : 0 < c.maxConnections
  /-- Requests get some time. -/
  timeout : 0 < c.timeoutMillis

theorem Config.fault?_eq_none_iff {c : Config} :
    c.fault? = none ↔ c.timing.Accepted ∧ c.SoundElsewhere := by
  unfold fault? maxLeaseSeconds
  constructor
  · intro none
    split_ifs at none with heartbeat multiplier ttl url connections timeout
    exact ⟨⟨by omega, by omega, by omega⟩, Bool.eq_false_iff.mpr url, by omega, by omega⟩
  · rintro ⟨accepted, sound⟩
    rw [if_neg (Nat.ne_of_gt accepted.heartbeat), if_neg (Nat.ne_of_gt accepted.multiplier),
      if_neg (Nat.not_lt.mpr accepted.ttl), if_neg (Bool.eq_false_iff.mp sound.url),
      if_neg (Nat.ne_of_gt sound.connections), if_neg (Nat.ne_of_gt sound.timeout)]

/-- A configuration passes exactly if its timing is accepted and its other settings are sound. -/
theorem Config.validate_eq_ok_iff {c : Config} :
    c.validate = .ok () ↔ c.timing.Accepted ∧ c.SoundElsewhere := by
  rw [← fault?_eq_none_iff]
  unfold validate
  cases c.fault? with
  | none => simp
  | some fault => simp

/-! ## Errors of calls -/

section Courses

variable {timing : LeaseTiming} {e : Error}

/-- Contending fails with an answer of the stores, or for want of a lease. -/
theorem Claim.Course.error_origin {α : Type} {c : Claim} {failure : Event} {give : Attempt → α}
    {way : List Observation} (course : c.Course timing failure give way (.error e)) :
    (∃ request, .answer request (.error e) ∈ way) ∨ ∃ now, c.lease? timing now = .error e := by
  cases course with
  | unread fails => exact .inl ⟨.get c.key, by simp⟩
  | leaseless may undefined => exact .inr ⟨_, undefined⟩
  | @unwritten now look lease _ may defined fails =>
    exact .inl ⟨.createOrUpdate lease now, by simp⟩
  | blinded may defined loses fails => exact .inl ⟨.get c.key, by simp⟩

/-- A call fails by a fault of what its caller supplies, with an answer of the stores, or for want
of a lease. -/
theorem Operation.Course.error_origin {operation : Operation} {seen : List Observation}
    (course : operation.Course timing seen (.error e)) :
    operation.validate = .error e ∨ (∃ request, .answer request (.error e) ∈ seen) ∨
      ∃ c : Claim, ∃ now, c.lease? timing now = .error e := by
  cases course with
  | invalid fault => exact .inl fault
  | @unresolved c _ valid fails => exact .inr (.inl ⟨.getTag c.key, List.mem_cons_self⟩)
  | @reserving c _ way _ valid notFound course =>
    rcases course.error_origin with ⟨request, asked⟩ | ⟨now, undefined⟩
    · exact .inr (.inl ⟨request, List.mem_cons_of_mem _ asked⟩)
    · exact .inr (.inr ⟨c, now, undefined⟩)
  | @extending c way _ valid course =>
    rcases course.error_origin with asked | ⟨now, undefined⟩
    · exact .inr (.inl asked)
    · exact .inr (.inr ⟨c, now, undefined⟩)
  | @unreleased key _ valid => exact .inr (.inl ⟨.delete key, List.mem_cons_self⟩)
  | @unseen key _ valid fails => exact .inr (.inl ⟨.get key, List.mem_cons_self⟩)

/-- The stores do not blame the configuration. -/
theorem Request.invalidConfig_not_mem (request : Request) :
    ErrorKind.invalidConfig ∉ request.failureKinds := by
  cases request <;> simp [failureKinds]

/-- Under an accepted timing there is a lease unless it would end after the last instant. -/
theorem Claim.kind_of_leaseless (accepted : timing.Accepted) {c : Claim} {now : Instant}
    (undefined : c.lease? timing now = .error e) : e.kind = .internal := by
  rcases Claim.lease?_eq_error_iff.mp undefined with ttl | ⟨seconds, -, -, rfl⟩
  · rw [accepted.ttl?_eq] at ttl
    cases ttl
  · rfl

/-- Under an accepted timing no call blames the configuration, if the stores do not. -/
theorem Operation.Course.kind_ne_invalidConfig (accepted : timing.Accepted)
    {operation : Operation} {seen : List Observation}
    (course : operation.Course timing seen (.error e)) (fitting : ∀ o ∈ seen, o.Fitting) :
    e.kind ≠ .invalidConfig := by
  intro blamed
  rcases course.error_origin with fault | ⟨request, asked⟩ | ⟨c, now, undefined⟩
  · have kind := operation.validate_failsIn e fault
    rw [blamed] at kind
    exact absurd kind (by decide)
  · have kind := fitting _ asked e rfl
    rw [blamed] at kind
    exact request.invalidConfig_not_mem kind
  · have kind := Claim.kind_of_leaseless accepted undefined
    rw [blamed] at kind
    cases kind

end Courses

/-! ## Calls under an accepted timing -/

namespace Traffic

variable {s : Session} {operations : Nat → Nat × Operation} {turns : List Turn} {n i : Nat}

/-- What calls see of the tables of a database is what can come of them. -/
theorem observations_fitting (start : Traffic) (i : Nat) (turns : List Turn) :
    ∀ o ∈ start.observations i turns, o.Fitting := by
  intro o seen
  obtain ⟨n, observed⟩ := mem_observations_iff.mp seen
  cases o with
  | reading | counting => trivial
  | answer request given =>
    obtain ⟨-, rfl⟩ := observed.asks
    exact request.perform_failsIn _ _

/-- A call of a manager with an accepted timing does not blame the configuration, whatever the
tables hold and whoever else calls. -/
theorem kind_of_result (accepted : (s.managers (operations i).1).timing.Accepted) {e : Error}
    (h : ((start s operations).run turns).result? i = some (.error e)) :
    e.kind ≠ .invalidConfig := by
  have reaches := (start s operations).reaches_run i turns
  rw [result?_eq_some_iff.mp h] at reaches
  exact (Operation.course_of_reaches reaches).kind_ne_invalidConfig accepted
    (observations_fitting _ i turns)

/-- A lease that such a call writes ends as many seconds after the instant it is computed from as
the timing says. -/
theorem WritesAt.addSeconds? {r : Reservation} {now : Instant}
    (accepted : (s.managers (operations i).1).timing.Accepted)
    (h : (start s operations).WritesAt turns n i r now) :
    now.addSeconds? ((s.managers (operations i).1).timing.heartbeatSeconds *
      (s.managers (operations i).1).timing.multiplier) = some r.expiresAt := by
  obtain ⟨⟨c, -, -, lease⟩, -⟩ := h.claimed
  obtain ⟨seconds, ends, hseconds, hends, rfl⟩ := Claim.lease?_eq_ok lease
  rw [accepted.ttl?_eq] at hseconds
  cases hseconds
  exact hends

/-- It ends after that instant. -/
theorem WritesAt.lt_expiresAt {r : Reservation} {now : Instant}
    (accepted : (s.managers (operations i).1).timing.Accepted)
    (h : (start s operations).WritesAt turns n i r now) : now < r.expiresAt :=
  Instant.lt_of_addSeconds? accepted.ttl_pos (h.addSeconds? accepted)

end Traffic

end LeaseCatalog
