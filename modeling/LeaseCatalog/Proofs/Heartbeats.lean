import LeaseCatalog.Proofs.AcceptedTimings
import LeaseCatalog.Proofs.EndedCalls
import LeaseCatalog.Proofs.Swaps

/-!
# Leases that are kept alive

An owner keeps a lease by extending it, one call after the other, at gaps of at most the heartbeat
interval. `Traffic.Heartbeats` says what this is where calls take their time and any number of other
callers contend for the key meanwhile. Where leases last for two heartbeats or more nobody else gets
the key as long as this goes on: what the owner has written is kept in the row of the key
(`Traffic.Heartbeats.keptUntil`), and it never ends before an instant that anybody reads
(`Traffic.Heartbeats.outlasted`).

A call of the owner may still be under way when somebody else looks. The one before it has ended by
then, and that is where the second heartbeat goes: one until the owner's next call has read the
clock, and one until that call has written.
-/

namespace LeaseCatalog

/-! ## Microseconds -/

namespace Instant

variable {t u : Instant}

theorem le_refl (t : Instant) : t ≤ t := .inr ⟨rfl, Nat.le_refl _⟩

/-- Whole microseconds outside leap seconds are ordered as their numbers are. -/
theorem le_iff_micros (ht : t.kept = t) (ht' : t.nanos < 1000000000) (hu : u.kept = u)
    (hu' : u.nanos < 1000000000) : t ≤ u ↔ t.micros ≤ u.micros := by
  rw [kept_eq_iff, truncate_eq_iff] at ht hu
  rw [le_def]
  unfold micros
  omega

theorem lt_iff_micros (ht : t.kept = t) (ht' : t.nanos < 1000000000) (hu : u.kept = u)
    (hu' : u.nanos < 1000000000) : t < u ↔ t.micros < u.micros := by
  rw [← not_le, le_iff_micros hu hu' ht ht']
  omega

theorem nanos_of_addSeconds? {n : Nat} (ht : t.nanos < 1000000000) (h : t.addSeconds? n = some u) :
    u.nanos = t.nanos := by
  unfold addSeconds? at h
  split_ifs at h with h0
  · cases h
    rfl
  · rw [(ofParts?_eq_some_iff.mp h).2.2]
    omega

theorem micros_of_addSeconds? {n : Nat} (ht : t.nanos < 1000000000)
    (h : t.addSeconds? n = some u) : u.micros = t.micros + 1000000 * n := by
  unfold micros
  rw [seconds_of_addSeconds? h, nanos_of_addSeconds? ht h]
  omega

end Instant

/-- Whether an operation contends for a key in the name of an owner. -/
def Operation.isFor (key : Key) (owner : String) (operation : Operation) : Bool :=
  operation.claim?.any fun c => c.key == key && c.owner == owner

theorem Operation.isFor_iff {key : Key} {owner : String} {operation : Operation} :
    operation.isFor key owner = true ↔
      ∃ c, operation.claim? = some c ∧ c.key = key ∧ c.owner = owner := by
  unfold isFor
  rw [Option.any_eq_true]
  simp

namespace Traffic

/-! ## Heartbeats -/

section Heartbeats

variable (s : Session) (operations : Nat → Nat × Operation) (turns : List Turn)

/-- At turn `q` call `j`, by which the owner of a lease contends for its key, reads an instant. -/
def BeatsAt (lease : Reservation) (q j : Nat) (t : Instant) : Prop :=
  (operations j).2.isFor lease.key lease.owner = true ∧ (start s operations).ReadsAt turns q j t

/-- How an owner keeps a lease which call `i` has acquired at turn `m`, having read `now`: the calls
by which the owner extends it come one after the other, and at gaps of at most the heartbeat
interval of a clock that all calls share. -/
structure Heartbeats (timing : LeaseTiming) (m i : Nat) (lease : Reservation) (now : Instant) :
    Prop where
  /-- At first there are no leases. -/
  initial : s.tables = .initial
  /-- Calls alone write leases. -/
  leaves : ∀ x ∈ turns, x.leavesLeases = true
  /-- The clock never goes back. -/
  steady : (start s operations).Steady turns
  /-- The owner acquires the lease. -/
  acquired : (start s operations).WritesAt turns m i lease now
  /-- Nobody releases the key. -/
  unreleased : ∀ n j, m < n → ¬ (start s operations).ReleasesAt turns n j lease.key
  /-- The owner's calls are served under one timing. -/
  served : ∀ j, (operations j).2.isFor lease.key lease.owner = true →
    (s.managers (operations j).1).timing = timing
  /-- Rows can hold the owner's leases. -/
  storable : ∀ q j t, BeatsAt s operations turns lease q j t → timing.Within t
  /-- What anybody reads of the clock after the lease has started comes at most a heartbeat after
  what the owner has read before. -/
  often : ∀ q j u, (start s operations).ReadsAt turns q j u → now < u →
    ∃ q' j' t, q' < q ∧ BeatsAt s operations turns lease q' j' t ∧
      u.micros ≤ t.micros + 1000000 * timing.heartbeatInterval
  /-- A call of the owner has ended when the next one reads the clock, and when anybody reads an
  instant a whole heartbeat later. One that nobody disturbs has ended whenever anybody reads the
  clock again. -/
  settled : ∀ q j t q' j' u, BeatsAt s operations turns lease q j t →
    (start s operations).ReadsAt turns q' j' u → q < q' →
    BeatsAt s operations turns lease q' j' u ∨
      t.micros + 1000000 * timing.heartbeatInterval ≤ u.micros →
    (start s operations).EndedBefore turns q' j

/-- At turn `n` call `j` writes a lease of the same key for the same owner. -/
structure RenewsAt (lease : Reservation) (n j : Nat) (r : Reservation) (t : Instant) : Prop where
  /-- It is written. -/
  wrote : (start s operations).WritesAt turns n j r t
  /-- It has the same key. -/
  key : r.key = lease.key
  /-- It has the same owner. -/
  owner : r.owner = lease.owner

/-- From turn `m` on and by turn `n` a lease has been renewed at an instant or later. -/
def RenewedSince (lease : Reservation) (m n : Nat) (t : Instant) : Prop :=
  ∃ l j r t', m ≤ l ∧ l < n ∧ RenewsAt s operations turns lease l j r t' ∧ t ≤ t'

/-- From turn `m` on and by turn `n` a lease has been renewed until after an instant. -/
def OutlastedSince (lease : Reservation) (m n : Nat) (u : Instant) : Prop :=
  ∃ l j r t, m ≤ l ∧ l < n ∧ RenewsAt s operations turns lease l j r t ∧ u < r.expiresAt

/-- When turn `n` comes the row of the key of a lease keeps all that was written since turn `m`, and
all of it is the owner's. -/
def KeepsAll (lease : Reservation) (m n : Nat) : Prop :=
  ∀ l j r t, m ≤ l → l < n → (start s operations).WritesAt turns l j r t → r.key = lease.key →
    r.owner = lease.owner ∧ Keeps ((start s operations).before turns n).session.tables r

/-- So it does at every turn until then. -/
def KeptUntil (lease : Reservation) (m n : Nat) : Prop :=
  ∀ k, m < k → k ≤ n → KeepsAll s operations turns lease m k

end Heartbeats

section Writes

variable {s : Session} {operations : Nat → Nat × Operation} {turns : List Turn}
variable {n i j q : Nat} {r r' : Reservation} {t t' u : Instant}

theorem ReadsAt.le_iff_micros {start : Traffic} (h : start.ReadsAt turns n i t)
    (h' : start.ReadsAt turns q j u) : t ≤ u ↔ t.micros ≤ u.micros :=
  Instant.le_iff_micros h.kept h.nanos_lt h'.kept h'.nanos_lt

/-- At one turn one lease is written. -/
theorem WritesAt.unique {start : Traffic} (h : start.WritesAt turns n i r t)
    (h' : start.WritesAt turns n j r' t') : r = r' ∧ t = t' := by
  obtain ⟨⟨next, hi, hc⟩, -⟩ := h
  obtain ⟨⟨next', hj, hc'⟩, -⟩ := h'
  rw [hi] at hj
  cases hj
  rw [hc] at hc'
  cases hc'
  exact ⟨rfl, rfl⟩

theorem WritesAt.isFor (h : (start s operations).WritesAt turns n i r t) :
    (operations i).2.isFor r.key r.owner = true := by
  obtain ⟨⟨c, hc, -, lease⟩, -⟩ := h.claimed
  obtain ⟨-, ends, -, -, rfl⟩ := Claim.lease?_eq_ok lease
  exact Operation.isFor_iff.mpr ⟨c, hc, rfl, rfl⟩

/-- A lease is renewed at an instant that one of the owner's calls has read. -/
theorem RenewsAt.exists_beat {lease : Reservation} (h : RenewsAt s operations turns lease n j r t) :
    ∃ q < n, BeatsAt s operations turns lease q j t := by
  obtain ⟨q, hq, read⟩ := h.wrote.claimed.2
  have isFor := h.wrote.isFor
  rw [h.key, h.owner] at isFor
  exact ⟨q, hq, isFor, read⟩

/-- A lease that a row keeps leaves the key open to its owner. -/
theorem openTo_of_keeps (hs : s.tables = .initial) (hn : n ≤ turns.length)
    (keeps : Keeps ((start s operations).before turns n).session.tables r) {c : Claim}
    (hkey : c.key = r.key) (howner : c.owner = r.owner) (t : Instant) :
    ((start s operations).before turns n).session.tables.OpenTo c t := by
  obtain ⟨row, hrow, hrowOwner, -⟩ := keeps
  have order : InOrder s operations turns n _ := inOrder_before hs n hn
  obtain ⟨m, hold⟩ := order.tables
  rw [← hkey] at hrow
  rw [← howner] at hrowOwner
  refine (hold.openTo_iff .sqlite).mpr fun shown hshown => ?_
  obtain ⟨row', hrow', hshownOwner, -⟩ := Leases.get_eq_ok hshown
  rw [hrow] at hrow'
  cases hrow'
  exact Reservation.isClaimableBy_iff.mpr (.inr (hshownOwner.symm.trans hrowOwner))

end Writes

namespace Heartbeats

variable {s : Session} {operations : Nat → Nat × Operation} {turns : List Turn}
variable {timing : LeaseTiming} {m n i j j' k l q : Nat} {lease r r' : Reservation}
variable {now t t' u : Instant}

section Beats

variable (h : Heartbeats s operations turns timing m i lease now)

include h

/-! ## Calls of the owner -/

theorem renewsAt : RenewsAt s operations turns lease m i lease now := ⟨h.acquired, rfl, rfl⟩

theorem renewed_at_start (hmn : m < n) (ht : t ≤ now) :
    RenewedSince s operations turns lease m n t :=
  ⟨m, i, lease, now, le_rfl, hmn, h.renewsAt, ht⟩

/-- As long as the lease was kept, a call of the owner that has read the clock after the lease was
written, and has ended, has renewed it at what it read. -/
theorem exists_renewsAt (hn : n ≤ turns.length) (kept : KeptUntil s operations turns lease m n)
    (beat : BeatsAt s operations turns lease q j t) (hmq : m < q)
    (ended : (start s operations).EndedBefore turns n j) :
    ∃ l r, q < l ∧ l < n ∧ RenewsAt s operations turns lease l j r t := by
  obtain ⟨c, hc, hkey, howner⟩ := Operation.isFor_iff.mp beat.1
  obtain ⟨ends, lasts⟩ := (h.storable q j t beat).exists_lasts
  rw [← h.served j beat.1] at lasts
  have openTo : ∀ k, q < k → k < n →
      ((start s operations).before turns k).session.tables.OpenTo c t := by
    intro k hqk hkn
    have hmk : m < k := Nat.lt_trans hmq hqk
    have keeps := (kept k hmk (Nat.le_of_lt hkn) m i lease now le_rfl hmk h.acquired rfl).2
    exact openTo_of_keeps h.initial (Nat.le_trans (Nat.le_of_lt hkn) hn) keeps hkey howner t
  obtain ⟨l, hql, hln, wrote⟩ := ended.exists_writesAt hc beat.2 lasts openTo
  exact ⟨l, _, hql, hln, wrote, hkey, howner⟩

/-- As long as the lease was kept, a call of the owner that has read the clock, and has ended,
leaves it renewed at what the call read, or later. -/
theorem renewed_of_ended (hmn : m < n) (hn : n ≤ turns.length)
    (kept : KeptUntil s operations turns lease m n)
    (beat : BeatsAt s operations turns lease q j t)
    (ended : (start s operations).EndedBefore turns n j) :
    RenewedSince s operations turns lease m n t := by
  obtain ⟨p, hp, first⟩ := h.renewsAt.exists_beat
  rcases Nat.lt_trichotomy q p with hqp | rfl | hpq
  · exact h.renewed_at_start hmn (h.steady.le beat.2 first.2 hqp)
  · rw [beat.2.unique first.2]
    exact h.renewed_at_start hmn (Instant.le_refl now)
  · -- the call that acquired the lease has ended when this one reads the clock
    have acquiredBefore := h.settled p i now q j t first beat.2 hpq (.inl beat)
    have hmq : m < q := acquiredBefore.lt (writesAt_iff.mp h.acquired)
    obtain ⟨l, r, hql, hln, renews⟩ := h.exists_renewsAt hn kept beat hmq ended
    exact ⟨l, j, r, t, by omega, hln, renews, Instant.le_refl t⟩

/-- The owner's leases are written in the order of the instants at which they start. -/
theorem instant_le (hlk : l < k) (renews : RenewsAt s operations turns lease l j r t)
    (renews' : RenewsAt s operations turns lease k j' r' t') : t ≤ t' := by
  obtain ⟨q, hql, beat⟩ := renews.exists_beat
  obtain ⟨q', -, beat'⟩ := renews'.exists_beat
  rcases Nat.lt_trichotomy q q' with hlt | rfl | hlt
  · exact h.steady.le beat.2 beat'.2 hlt
  · rw [beat.2.unique beat'.2]
    exact Instant.le_refl t'
  · -- the call that writes later would have ended before the other one reads the clock
    have ended := h.settled q' j' t' q j t beat' beat.2 hlt (.inl beat)
    have := ended.lt (writesAt_iff.mp renews'.wrote)
    omega

/-! ## What the row keeps -/

/-- What is written first is kept. -/
theorem keepsAll_first : KeepsAll s operations turns lease m (m + 1) := by
  intro l a r t hml hln wrote hkey
  obtain rfl : l = m := by omega
  obtain ⟨rfl, -⟩ := wrote.unique h.acquired
  obtain ⟨row, hrow, hrowOwner, hexpires, -⟩ := wrote.row?_succ
  exact ⟨rfl, row, hrow, hrowOwner, hexpires ▸ String.le_refl _⟩

/-- A turn at which nobody writes a lease of the key keeps all that was written. -/
theorem keepsAll_succ_of_unwritten (hmn : m < n) (hn : n < turns.length)
    (kept : KeepsAll s operations turns lease m n)
    (unwritten : ¬ ∃ j r t, (start s operations).WritesAt turns n j r t ∧ r.key = lease.key) :
    KeepsAll s operations turns lease m (n + 1) := by
  intro l a r t hml hln wrote hkey
  rcases row?_before_succ (List.getElem?_eq_getElem hn) (h.leaves _ (List.getElem_mem hn))
    lease.key with ⟨j, r', t', wrote'⟩ | ⟨j, released, -⟩ | same
  · exact absurd ⟨j, r', t', wrote'⟩ unwritten
  · exact absurd released (h.unreleased n j hmn)
  · rcases Nat.lt_or_eq_of_le (Nat.le_of_lt_succ hln) with hln | rfl
    · obtain ⟨howner, row, hrow, hrest⟩ := kept l a r t hml hln wrote hkey
      refine ⟨howner, row, ?_, hrest⟩
      rw [hkey] at hrow ⊢
      exact same.trans hrow
    · exact absurd ⟨a, r, t, wrote, hkey⟩ unwritten

/-! ## How long the owner's leases last -/

variable (accepted : timing.Accepted)

include accepted

theorem addSeconds?_of_renewsAt (renews : RenewsAt s operations turns lease l j r t) :
    t.addSeconds? (timing.heartbeatSeconds * timing.multiplier) = some r.expiresAt := by
  obtain ⟨q, -, beat⟩ := renews.exists_beat
  have same := h.served j beat.1
  have ends := renews.wrote.addSeconds? (same ▸ accepted)
  rwa [same] at ends

/-- The owner's leases are written in the order of the instants at which they end. -/
theorem expiresAt_le (hlk : l < k) (renews : RenewsAt s operations turns lease l j r t)
    (renews' : RenewsAt s operations turns lease k j' r' t') : r.expiresAt ≤ r'.expiresAt := by
  obtain ⟨q, -, beat⟩ := renews.exists_beat
  obtain ⟨q', -, beat'⟩ := renews'.exists_beat
  exact Instant.addSeconds?_le_addSeconds? beat.2.nanos_lt beat'.2.nanos_lt
    (h.instant_le hlk renews renews') (h.addSeconds?_of_renewsAt accepted renews)
    (h.addSeconds?_of_renewsAt accepted renews')

/-- A turn at which the owner renews the lease keeps all that was written: it writes over no lease
that ends later. -/
theorem keepsAll_succ_of_renewsAt (kept : KeepsAll s operations turns lease m n)
    (renews : RenewsAt s operations turns lease n j r t) :
    KeepsAll s operations turns lease m (n + 1) := by
  intro l a r' t' hml hln wrote hkey
  obtain ⟨row, hrow, hrowOwner, hexpires, -⟩ := renews.wrote.row?_succ
  have newest : r'.owner = lease.owner ∧ r'.expiresAt ≤ r.expiresAt := by
    rcases Nat.lt_or_eq_of_le (Nat.le_of_lt_succ hln) with hln | rfl
    · have howner := (kept l a r' t' hml hln wrote hkey).1
      exact ⟨howner, h.expiresAt_le accepted hln ⟨wrote, hkey, howner⟩ renews⟩
    · obtain ⟨rfl, -⟩ := wrote.unique renews.wrote
      exact ⟨renews.owner, Instant.le_refl _⟩
  obtain ⟨howner, hends⟩ := newest
  refine ⟨howner, row, ?_, hrowOwner.trans (renews.owner.trans howner.symm), ?_⟩
  · rw [hkey, ← renews.key]
    exact hrow
  · rw [hexpires, Timestamp.text_le_iff wrote.storable.1 renews.wrote.storable.1,
      wrote.expiresAt_kept, renews.wrote.expiresAt_kept]
    exact hends

/-- A lease that was renewed at an instant outlasts all that is read within its time. -/
theorem outlasted_of_renewed (renewed : RenewedSince s operations turns lease m n t)
    (readT : (start s operations).ReadsAt turns q j t)
    (read : (start s operations).ReadsAt turns k j' u)
    (soon : u.micros < t.micros + 1000000 * (timing.heartbeatSeconds * timing.multiplier : Nat)) :
    OutlastedSince s operations turns lease m n u := by
  obtain ⟨l, a, r, t', hml, hln, renews, hle⟩ := renewed
  obtain ⟨q', -, beat⟩ := renews.exists_beat
  have ends := h.addSeconds?_of_renewsAt accepted renews
  have nanos : r.expiresAt.nanos < 1000000000 := by
    rw [Instant.nanos_of_addSeconds? beat.2.nanos_lt ends]
    exact beat.2.nanos_lt
  refine ⟨l, a, r, t', hml, hln, renews, ?_⟩
  rw [Instant.lt_iff_micros read.kept read.nanos_lt renews.wrote.expiresAt_kept nanos,
    Instant.micros_of_addSeconds? beat.2.nanos_lt ends]
  rw [readT.le_iff_micros beat.2] at hle
  omega

variable (twice : 2 ≤ timing.multiplier)

include twice

/-- A call of the owner that has ended, or that read the clock by the start of the lease, outlasts
by two heartbeats what it has read. -/
theorem outlasted_of_beat (hmn : m < n) (hn : n ≤ turns.length)
    (kept : KeptUntil s operations turns lease m n)
    (beat : BeatsAt s operations turns lease q j t)
    (known : (start s operations).EndedBefore turns n j ∨ t ≤ now)
    (read : (start s operations).ReadsAt turns k j' u)
    (soon : u.micros < t.micros + 2000000 * timing.heartbeatSeconds) :
    OutlastedSince s operations turns lease m n u := by
  have twoBeats : timing.heartbeatSeconds * 2 ≤ timing.heartbeatSeconds * timing.multiplier :=
    Nat.mul_le_mul_left _ twice
  have renewed : RenewedSince s operations turns lease m n t := by
    rcases known with ended | early
    · exact h.renewed_of_ended hmn hn kept beat ended
    · exact h.renewed_at_start hmn early
  exact h.outlasted_of_renewed accepted renewed beat.2 read (by omega)

/-- As long as the lease was kept, it has been renewed until after whatever anybody reads. -/
theorem outlasted (hmn : m < n) (hn : n ≤ turns.length)
    (kept : KeptUntil s operations turns lease m n)
    (read : (start s operations).ReadsAt turns q j u) (hqn : q < n) :
    OutlastedSince s operations turns lease m n u := by
  have heartbeat := accepted.heartbeat
  have interval := accepted.heartbeatInterval_eq
  obtain ⟨p, -, first⟩ := h.renewsAt.exists_beat
  by_cases early : u ≤ now
  · rw [read.le_iff_micros first.2] at early
    exact h.outlasted_of_beat accepted twice hmn hn kept first (.inr (Instant.le_refl now)) read
      (by omega)
  · obtain ⟨q₁, j₁, t₁, hq₁, beat₁, gap₁⟩ := h.often q j u read (Instant.not_le.mp early)
    by_cases known : (start s operations).EndedBefore turns q j₁ ∨ t₁ ≤ now
    · refine h.outlasted_of_beat accepted twice hmn hn kept beat₁ ?_ read (by omega)
      exact known.imp_left fun ended => ended.mono (Nat.le_of_lt hqn) hn
    · -- the owner's last call is still under way, so the one before it counts
      obtain ⟨pending, late⟩ := not_or.mp known
      have soon : u.micros < t₁.micros + 1000000 * timing.heartbeatInterval := by
        by_contra overdue
        exact pending (h.settled q₁ j₁ t₁ q j u beat₁ read hq₁ (.inr (by omega)))
      obtain ⟨q₂, j₂, t₂, hq₂, beat₂, gap₂⟩ :=
        h.often q₁ j₁ t₁ beat₁.2 (Instant.not_le.mp late)
      have ended := h.settled q₂ j₂ t₂ q₁ j₁ t₁ beat₂ beat₁.2 hq₂ (.inl beat₁)
      exact h.outlasted_of_beat accepted twice hmn hn kept beat₂ (.inl (ended.mono (by omega) hn))
        read (by omega)

/-! ## The run -/

/-- As long as the lease is kept nobody else writes. -/
theorem owner_of_writesAt (hmn : m < n) (kept : KeptUntil s operations turns lease m n)
    (wrote : (start s operations).WritesAt turns n j r t) (hkey : r.key = lease.key) :
    r.owner = lease.owner := by
  by_contra other
  obtain ⟨q, hqn, read⟩ := wrote.claimed.2
  obtain ⟨⟨next, step⟩, -⟩ := id wrote
  obtain ⟨l, a, r', t', hml, hln, renews, later⟩ :=
    h.outlasted accepted twice hmn (Nat.le_of_lt step.lt) kept read hqn
  have keeps := (kept n hmn le_rfl l a r' t' hml hln renews.wrote renews.key).2
  have ended := renews.wrote.expiresAt_le_of_keeps keeps wrote (hkey.trans renews.key.symm)
    fun same => other (same.trans renews.owner)
  exact Instant.not_le.mpr later ended

/-- Whenever a turn comes, what was written since the lease has been kept until then. -/
theorem keptUntil (hn : n ≤ turns.length) : KeptUntil s operations turns lease m n := by
  induction n with
  | zero =>
    intro k hmk hk
    omega
  | succ n ih =>
    have kept := ih (Nat.le_of_succ_le hn)
    intro k hmk hk
    rcases Nat.lt_or_eq_of_le hk with hk | rfl
    · exact kept k hmk (Nat.le_of_lt_succ hk)
    · rcases Nat.lt_or_eq_of_le (Nat.le_of_lt_succ hmk) with hmn | rfl
      · by_cases written : ∃ j r t, (start s operations).WritesAt turns n j r t ∧ r.key = lease.key
        · obtain ⟨j, r, t, wrote, hkey⟩ := written
          have howner := h.owner_of_writesAt accepted twice hmn kept wrote hkey
          exact h.keepsAll_succ_of_renewsAt accepted (kept n hmn le_rfl) ⟨wrote, hkey, howner⟩
        · exact h.keepsAll_succ_of_unwritten hmn hn (kept n hmn le_rfl) written
      · exact h.keepsAll_first

/-- When a turn comes the row of the key says that the owner has it, until later than anybody has
read by then. -/
theorem heldBy_before (hmn : m < n) (hn : n ≤ turns.length) :
    ∃ ends, HeldBy ((start s operations).before turns n).session.tables lease.key lease.owner ends ∧
      ∀ q j u, q < n → (start s operations).ReadsAt turns q j u → u < ends := by
  have kept := h.keptUntil accepted twice hn
  have keptNow := kept n hmn le_rfl
  have order : InOrder s operations turns n _ := inOrder_before h.initial n hn
  obtain ⟨tables, hold⟩ := order.tables
  obtain ⟨-, row, hrow, howner, -⟩ := keptNow m i lease now le_rfl hmn h.acquired rfl
  have found := Tables.selectReservation_eq_ok_iff.mpr hrow
  obtain ⟨e, whole, rfl, -⟩ := hold.held_of_row (d := .sqlite) found
  refine ⟨e.expiresAt, ⟨_, found, howner, ?_⟩, ?_⟩
  · exact (Timestamp.decode_text whole.expiresAt_storable).trans
      (congrArg Except.ok whole.expiresAt_kept)
  · intro q j u hqn read
    obtain ⟨l, a, r, t, hml, hln, renews, later⟩ :=
      h.outlasted accepted twice hmn hn kept read hqn
    obtain ⟨-, row, hrow', -, hends⟩ := keptNow l a r t hml hln renews.wrote renews.key
    rw [renews.key, hrow] at hrow'
    cases hrow'
    change Timestamp.text r.expiresAt ≤ Timestamp.text e.expiresAt at hends
    rw [Timestamp.text_le_iff renews.wrote.storable.1 whole.expiresAt_storable,
      renews.wrote.expiresAt_kept, whole.expiresAt_kept] at hends
    rw [Instant.lt_def] at later ⊢
    rw [Instant.le_def] at hends
    omega

end Beats

end Heartbeats

/-! ## What heartbeats keep -/

/-- What comes of heartbeats under a timing. -/
structure KeptAlive (s : Session) (operations : Nat → Nat × Operation) (turns : List Turn)
    (timing : LeaseTiming) (m : Nat) (lease : Reservation) : Prop where
  /-- At every turn after the lease was written the row of the key says that the owner has it, until
  later than anybody has read by then. -/
  held : ∀ n, m < n → n ≤ turns.length → ∃ ends,
    HeldBy ((start s operations).before turns n).session.tables lease.key lease.owner ends ∧
      ∀ q j u, q < n → (start s operations).ReadsAt turns q j u → u < ends
  /-- Nobody else writes a lease of the key any more. -/
  sole : ∀ n j r t, m < n → (start s operations).WritesAt turns n j r t → r.key = lease.key →
    r.owner = lease.owner
  /-- Each later call of the owner that has ended has renewed the lease, and says so. -/
  extended : ∀ q j t, m < q → BeatsAt s operations turns lease q j t → ∀ result,
    ((start s operations).run turns).result? j = some result →
      ∃ n r reply, RenewsAt s operations turns lease n j r t ∧ result = .ok reply ∧
        (operations j).2.told? timing ⟨true, r⟩ = some reply

/-- Heartbeats keep a lease alive that lasts for two of them at least. -/
theorem Heartbeats.keptAlive {s : Session} {operations : Nat → Nat × Operation}
    {turns : List Turn} {timing : LeaseTiming} {m i : Nat} {lease : Reservation} {now : Instant}
    (h : Heartbeats s operations turns timing m i lease now) (accepted : timing.Accepted)
    (twice : 2 ≤ timing.multiplier) : KeptAlive s operations turns timing m lease where
  held n hmn hn := h.heldBy_before accepted twice hmn hn
  sole n j r t hmn wrote hkey := by
    obtain ⟨⟨next, step⟩, -⟩ := id wrote
    have kept := h.keptUntil accepted twice (Nat.le_of_lt step.lt)
    exact h.owner_of_writesAt accepted twice hmn kept wrote hkey
  extended q j t hmq beat result hresult := by
    have ended : (start s operations).EndedBefore turns turns.length j := by
      unfold EndedBefore
      rw [before_length, hresult]
      rfl
    obtain ⟨l, r, -, -, renews⟩ :=
      h.exists_renewsAt le_rfl (h.keptUntil accepted twice le_rfl) beat hmq ended
    obtain ⟨c, hc, -⟩ := Operation.isFor_iff.mp beat.1
    have written := mem_observations_iff.mpr ⟨l, writesAt_iff.mp renews.wrote⟩
    obtain ⟨reply, hreply, told⟩ := (accounts_of_result hc hresult).wrote r t written
    rw [h.served j beat.1] at told
    exact ⟨l, r, reply, renews, hreply, told⟩

/-- The timing of a configuration that is otherwise sound, for any two words: it is accepted exactly
if both are at least one and their product is a week at most, and the check on words finds the same
product or none. If it is accepted, the heartbeat interval and the time of a lease are the ones
configured; no call of a manager with this timing blames the configuration; each lease that such a
call writes ends after the instant that it was computed from, as long after it as configured; and
where a lease lasts for two heartbeats at least, heartbeats keep it alive. -/
theorem accepted_timing_keeps_leases (heartbeat : UInt64) (multiplier : UInt32) (c : Config)
    (timing : c.timing = .ofWords heartbeat multiplier) (sound : c.SoundElsewhere) :
    (c.validate = .ok () ↔ 1 ≤ heartbeat.toNat ∧ 1 ≤ multiplier.toNat ∧
      heartbeat.toNat * multiplier.toNat ≤ 604800) ∧
    (LeaseTiming.checkedTtl? heartbeat multiplier).map UInt64.toNat = c.timing.ttl?.toOption ∧
    (c.validate = .ok () →
      (c.timing.heartbeatInterval = heartbeat.toNat ∧
        c.timing.ttl? = .ok (heartbeat.toNat * multiplier.toNat) ∧
        0 < c.timing.heartbeatInterval ∧
        c.timing.heartbeatInterval ≤ heartbeat.toNat * multiplier.toNat ∧
        heartbeat.toNat * multiplier.toNat ≤ 604800) ∧
      ∀ (s : Session) (operations : Nat → Nat × Operation) (turns : List Turn),
        (∀ i, (s.managers (operations i).1).timing = c.timing →
          (∀ e, ((start s operations).run turns).result? i = some (.error e) →
            e.kind ≠ .invalidConfig) ∧
          ∀ n r now, (start s operations).WritesAt turns n i r now →
            now.addSeconds? (heartbeat.toNat * multiplier.toNat) = some r.expiresAt ∧
            now < r.expiresAt ∧
            HeldBy ((start s operations).before turns (n + 1)).session.tables r.key r.owner
              r.expiresAt) ∧
        (2 ≤ multiplier.toNat → ∀ m i lease now,
          Heartbeats s operations turns c.timing m i lease now →
            KeptAlive s operations turns c.timing m lease)) := by
  have valid : c.validate = .ok () ↔ c.timing.Accepted := by
    rw [Config.validate_eq_ok_iff]
    exact and_iff_left sound
  refine ⟨?_, ?_, ?_⟩
  · rw [valid, timing]
    exact ⟨fun h => ⟨h.heartbeat, h.multiplier, h.ttl⟩, fun ⟨h, m, ttl⟩ => ⟨h, m, ttl⟩⟩
  · rw [timing]
    exact LeaseTiming.map_checkedTtl? heartbeat multiplier
  · intro ok
    have accepted := valid.mp ok
    rw [timing] at accepted ⊢
    refine ⟨?_, ?_⟩
    · have interval := accepted.heartbeatInterval_eq
      rw [interval]
      exact ⟨rfl, accepted.ttl?_eq, accepted.heartbeat, accepted.heartbeat_le_ttl, accepted.ttl⟩
    · intro s operations turns
      refine ⟨?_, ?_⟩
      · intro i same
        have accepted := accepted
        rw [← same] at accepted
        refine ⟨fun e failed => kind_of_result accepted failed, ?_⟩
        intro n r now wrote
        have ends := wrote.addSeconds? accepted
        rw [same] at ends
        exact ⟨ends, wrote.lt_expiresAt accepted, wrote.stored⟩
      · intro twice m i lease now heartbeats
        exact heartbeats.keptAlive accepted twice

/-- Callers of two owners in turn, who want the same key. The first two reserve it, and all others
extend it. -/
def beatingOperations (i : Nat) : Nat × Operation :=
  let c := Session.claimOf (if i % 2 = 0 then "first" else "second")
  (0, if i < 2 then .reserve c else .extend c)

/-- The first owner takes the lease, and extends it every five seconds. The second owner contends
for it while the first of these calls is under way, and at the end of the lease that was taken. -/
def beatingTurns : List Turn :=
  [0, 0, 0, 0, 0].map .thread ++ pass 5 :: [2, 1, 1, 1, 1, 2, 2, 2].map .thread ++
    pass 5 :: [4, 4, 4, 4].map .thread ++ pass 5 :: [3, 3, 3].map .thread

/-- A number of seconds after the epoch. -/
def secondsOn (n : Int) : Instant := (Instant.ofParts? n 0).getD .epoch

/-- The lease that the first call takes. -/
def beatingLease : Reservation :=
  .taken (Session.claimOf "first").key "first" (secondsOn 15) (secondsOn 0) none

section Beating

variable {q j : Nat} {t : Instant}

/-- The turns at which the calls read the clock. -/
theorem readsAt_beating (read : (start freshSession beatingOperations).ReadsAt beatingTurns q j t) :
    (q = 1 ∧ j = 0 ∧ t = secondsOn 0) ∨ (q = 6 ∧ j = 2 ∧ t = secondsOn 5) ∨
      (q = 8 ∧ j = 1 ∧ t = secondsOn 5) ∨ (q = 15 ∧ j = 4 ∧ t = secondsOn 10) ∨
      (q = 20 ∧ j = 3 ∧ t = secondsOn 15) := by
  obtain ⟨⟨next, hi, hc⟩, rfl⟩ := read
  have hq : q < 23 := (List.getElem?_eq_some_iff.mp hi).1
  interval_cases q <;> cases hi <;> first | (cases hc; done) | decide

/-- The turns at which the first owner's calls do so. -/
theorem beatsAt_beating
    (beat : BeatsAt freshSession beatingOperations beatingTurns beatingLease q j t) :
    (q = 1 ∧ j = 0 ∧ t = secondsOn 0) ∨ (q = 6 ∧ j = 2 ∧ t = secondsOn 5) ∨
      (q = 15 ∧ j = 4 ∧ t = secondsOn 10) := by
  obtain ⟨own, read⟩ := beat
  rcases readsAt_beating read with first | second | ⟨-, rfl, -⟩ | third | ⟨-, rfl, -⟩
  · exact .inl first
  · exact .inr (.inl second)
  · exact absurd own (by decide)
  · exact .inr (.inr third)
  · exact absurd own (by decide)

theorem heartbeats_beating : Heartbeats freshSession beatingOperations beatingTurns .standard 3 0
    beatingLease (secondsOn 0) where
  initial := rfl
  leaves := by decide
  steady := by decide
  acquired := ⟨⟨_, rfl, rfl⟩, _, rfl⟩
  unreleased n j _ released := by
    have operation := released.operation_eq
    unfold beatingOperations at operation
    dsimp only at operation
    split_ifs at operation
  served _ _ := rfl
  storable q j t beat := by
    rcases beatsAt_beating beat with ⟨-, -, rfl⟩ | ⟨-, -, rfl⟩ | ⟨-, -, rfl⟩
    · exact ⟨by decide, by decide, by decide, by decide⟩
    · exact ⟨by decide, by decide, by decide, by decide⟩
    · exact ⟨by decide, by decide, by decide, by decide⟩
  often q j u read later := by
    rcases readsAt_beating read with ⟨-, -, rfl⟩ | ⟨rfl, -, rfl⟩ | ⟨rfl, -, rfl⟩ | ⟨rfl, -, rfl⟩ |
      ⟨rfl, -, rfl⟩
    · exact absurd later (by decide)
    · exact ⟨1, 0, _, by decide, ⟨rfl, ⟨_, rfl, rfl⟩, rfl⟩, by decide⟩
    · exact ⟨1, 0, _, by decide, ⟨rfl, ⟨_, rfl, rfl⟩, rfl⟩, by decide⟩
    · exact ⟨6, 2, _, by decide, ⟨rfl, ⟨_, rfl, rfl⟩, rfl⟩, by decide⟩
    · exact ⟨15, 4, _, by decide, ⟨rfl, ⟨_, rfl, rfl⟩, rfl⟩, by decide⟩
  settled q j t q' j' u beat read hlt or := by
    rcases beatsAt_beating beat with ⟨rfl, rfl, rfl⟩ | ⟨rfl, rfl, rfl⟩ | ⟨rfl, rfl, rfl⟩ <;>
      rcases readsAt_beating read with ⟨rfl, -, rfl⟩ | ⟨rfl, rfl, rfl⟩ | ⟨rfl, rfl, rfl⟩ |
        ⟨rfl, -, rfl⟩ | ⟨rfl, -, rfl⟩ <;>
      first
      | rfl
      | omega
      | exact absurd or (by
          rintro (⟨own, -⟩ | late)
          · exact absurd own (by decide)
          · exact absurd late (by decide))

end Beating

/-- Leases of three heartbeats of five seconds are kept alive by extending them every five seconds:
when everything has happened the first owner has the key beyond the end of the first lease, which
somebody else has read. -/
theorem beating_keeps_lease :
    (Config.standard.validate = .ok () ∧ Config.standard.SoundElsewhere ∧
      Config.standard.timing = .ofWords 5 3) ∧
    Heartbeats freshSession beatingOperations beatingTurns .standard 3 0 beatingLease
      (secondsOn 0) ∧
    (start freshSession beatingOperations).ReadsAt beatingTurns 20 3 beatingLease.expiresAt ∧
    ∃ ends, HeldBy ((start freshSession beatingOperations).run beatingTurns).session.tables
      beatingLease.key "first" ends ∧ beatingLease.expiresAt < ends := by
  have valid : Config.standard.validate = .ok () := by decide
  have sound : Config.standard.SoundElsewhere := ⟨by decide, by decide, by decide⟩
  have timing : Config.standard.timing = .ofWords 5 3 := by decide
  have read : (start freshSession beatingOperations).ReadsAt beatingTurns 20 3
      beatingLease.expiresAt := ⟨⟨_, rfl, rfl⟩, rfl⟩
  obtain ⟨-, -, keeps⟩ := accepted_timing_keeps_leases 5 3 Config.standard timing sound
  obtain ⟨-, runs⟩ := keeps valid
  obtain ⟨-, beats⟩ := runs freshSession beatingOperations beatingTurns
  have alive := beats (by decide) 3 0 beatingLease (secondsOn 0) heartbeats_beating
  obtain ⟨ends, held, later⟩ := alive.held beatingTurns.length (by decide) le_rfl
  rw [before_length] at held
  exact ⟨⟨valid, sound, timing⟩, heartbeats_beating, read, ends, held,
    later 20 3 _ (by decide) read⟩

end Traffic

end LeaseCatalog
