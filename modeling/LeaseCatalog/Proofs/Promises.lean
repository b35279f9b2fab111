import LeaseCatalog.Proofs.Outcomes

/-!
# How long a lease lasts

A caller who acquires a lease is told when it ends. Where one manager serves all calls and its clock
never goes back, nobody else gets the key before that, unless one of three things happens first: the
key is released; the owner's lease is cut short by a call of the owner's own, which had read the
clock earlier and writes late, since the store lets an owner write over the owner's lease whatever it
says; or somebody else has taken the key over once the lease was at its end, and then that owner
writes late (`Traffic.lease_lasts_as_promised`). Neither of the last two can be left out
(`Traffic.broken_cutShort`, `Traffic.broken_takenOver`).

Until one of them has happened the row of the key is the owner's and does not end before what the
caller was told (`Traffic.kept_or_lost`).
-/

namespace LeaseCatalog.Traffic

/-! ## What calls read -/

/-- The instant that a call reads at a turn. -/
def reading? (s : Traffic) : Turn → Option Instant
  | .thread i =>
    match (s.threads i).call with
    | .readClock _ => some (s.session.managers (s.threads i).manager).clock.now
    | _ => none
  | .step _ => none

/-- The instants that calls read in the course of some turns. -/
def readings (s : Traffic) : List Turn → List Instant
  | [] => []
  | x :: rest => (s.reading? x).toList ++ readings (s.turn x) rest

/-- No instant is read after a later one. -/
def Steady (s : Traffic) (turns : List Turn) : Prop := (s.readings turns).Pairwise (· ≤ ·)

instance (s : Traffic) (turns : List Turn) : Decidable (s.Steady turns) :=
  inferInstanceAs (Decidable (List.Pairwise _ _))

section Readings

variable {start : Traffic} {turns : List Turn} {p q i j : Nat} {t u : Instant}

theorem readsAt_zero {x : Turn} {rest : List Turn} (h : start.ReadsAt (x :: rest) 0 i t) :
    start.reading? x = some t := by
  obtain ⟨⟨next, hi, hc⟩, rfl⟩ := h
  cases hi
  change (start.threads i).call = _ at hc
  unfold reading?
  dsimp only
  rw [hc]
  rfl

theorem readsAt_succ {x : Turn} {rest : List Turn} :
    start.ReadsAt (x :: rest) (p + 1) i t ↔ (start.turn x).ReadsAt rest p i t := Iff.rfl

theorem ReadsAt.mem_readings (h : start.ReadsAt turns p i t) : t ∈ start.readings turns := by
  induction turns generalizing start p with
  | nil =>
    obtain ⟨⟨next, hi, -⟩, -⟩ := h
    cases hi
  | cons x rest ih =>
    rw [readings, List.mem_append, Option.mem_toList]
    cases p with
    | zero => exact .inl (readsAt_zero h)
    | succ p => exact .inr (ih (readsAt_succ.mp h))

/-- What is read later is no earlier instant. -/
theorem Steady.le (steady : start.Steady turns) (hp : start.ReadsAt turns p i t)
    (hq : start.ReadsAt turns q j u) (hpq : p < q) : t ≤ u := by
  induction turns generalizing start p q with
  | nil =>
    obtain ⟨⟨next, hi, -⟩, -⟩ := hp
    cases hi
  | cons x rest ih =>
    unfold Steady at steady
    rw [readings, List.pairwise_append] at steady
    obtain ⟨-, later, first⟩ := steady
    cases q with
    | zero => omega
    | succ q =>
      cases p with
      | zero =>
        have ht : t ∈ (start.reading? x).toList := Option.mem_toList.mpr (readsAt_zero hp)
        exact first t ht u (readsAt_succ.mp hq).mem_readings
      | succ p => exact ih later (readsAt_succ.mp hp) (readsAt_succ.mp hq) (by omega)

/-- At one turn one call reads one instant. -/
theorem ReadsAt.unique (h : start.ReadsAt turns p i t) (h' : start.ReadsAt turns p j u) :
    t = u := by
  obtain ⟨⟨-, hi, -⟩, rfl⟩ := h
  obtain ⟨⟨-, hj, -⟩, rfl⟩ := h'
  rw [hi] at hj
  cases hj
  rfl

end Readings

/-! ## What can become of a lease -/

section Fates

variable (start : Traffic) (turns : List Turn)

/-- Between two turns a key is released. -/
def ReleasedBetween (m n : Nat) (key : Key) : Prop :=
  ∃ l j, m < l ∧ l < n ∧ start.ReleasesAt turns l j key

/-- Between two turns a lease is cut short by a call of its owner that had read the clock before the
call that wrote the lease. -/
def CutShortBetween (m n : Nat) (i : Nat) (lease : Reservation) (now : Instant) : Prop :=
  ∃ l j r t p q, m < l ∧ l < n ∧ start.WritesAt turns l j r t ∧ r.key = lease.key ∧
    r.owner = lease.owner ∧ r.expiresAt < lease.expiresAt ∧
    start.ReadsAt turns p j t ∧ start.ReadsAt turns q i now ∧ p < q ∧ t < now

/-- Between two turns somebody else takes a key over, and not before the end of the lease. -/
def TakenOverBetween (m n : Nat) (lease : Reservation) : Prop :=
  ∃ l j r t, m < l ∧ l < n ∧ start.WritesAt turns l j r t ∧ r.key = lease.key ∧
    r.owner ≠ lease.owner ∧ lease.expiresAt ≤ t

/-- One of the things happens between two turns that end a lease. -/
def LostBetween (m n : Nat) (i : Nat) (lease : Reservation) (now : Instant) : Prop :=
  start.ReleasedBetween turns m n lease.key ∨ start.CutShortBetween turns m n i lease now ∨
    start.TakenOverBetween turns m n lease

end Fates

/-- The row of the key of a lease is the owner's, and does not end before the lease. -/
def Keeps (t : Tables) (lease : Reservation) : Prop :=
  ∃ row, t.row? lease.key = some row ∧ row.owner = lease.owner ∧
    Timestamp.text lease.expiresAt ≤ row.expiresAt

section Kept

variable {s : Session} {operations : Nat → Nat × Operation} {turns : List Turn}
variable {m n i j k l : Nat} {lease r : Reservation} {now t : Instant}

theorem LostBetween.succ {start : Traffic} (h : start.LostBetween turns m n i lease now) :
    start.LostBetween turns m (n + 1) i lease now := by
  rcases h with ⟨l, j, hm, hn, h⟩ | ⟨l, j, r, t, p, q, hm, hn, h⟩ | ⟨l, j, r, t, hm, hn, h⟩
  · exact .inl ⟨l, j, hm, by omega, h⟩
  · exact .inr (.inl ⟨l, j, r, t, p, q, hm, by omega, h⟩)
  · exact .inr (.inr ⟨l, j, r, t, hm, by omega, h⟩)

/-- A lease that a call of the same manager wrote at an instant that is no earlier does not end
earlier. -/
theorem WritesAt.expiresAt_le (hk : ∀ j, (operations j).1 = k)
    (h : (start s operations).WritesAt turns m i lease now)
    (h' : (start s operations).WritesAt turns n j r t) (hnow : now ≤ t) :
    lease.expiresAt ≤ r.expiresAt := by
  obtain ⟨⟨c, -, -, hlease⟩, p, -, hread⟩ := h.claimed
  obtain ⟨⟨c', -, -, hlease'⟩, q, -, hread'⟩ := h'.claimed
  obtain ⟨seconds, ends, hseconds, hends, rfl⟩ := Claim.lease?_eq_ok hlease
  obtain ⟨seconds', ends', hseconds', hends', rfl⟩ := Claim.lease?_eq_ok hlease'
  rw [hk] at hseconds hseconds'
  rw [hseconds] at hseconds'
  cases hseconds'
  exact Instant.addSeconds?_le_addSeconds? hread.nanos_lt hread'.nanos_lt hnow hends hends'

/-- A call that writes a lease that ends earlier had read the clock earlier. -/
theorem WritesAt.read_before (hk : ∀ j, (operations j).1 = k)
    (steady : (start s operations).Steady turns)
    (h : (start s operations).WritesAt turns m i lease now)
    (h' : (start s operations).WritesAt turns n j r t) (hends : r.expiresAt < lease.expiresAt) :
    ∃ p q, (start s operations).ReadsAt turns p j t ∧ (start s operations).ReadsAt turns q i now ∧
      p < q ∧ t < now := by
  have hlate : t < now := by
    rw [← Instant.not_le]
    intro hle
    exact Instant.not_le.mpr hends (h.expiresAt_le hk h' hle)
  obtain ⟨-, q, -, hq⟩ := h.claimed
  obtain ⟨-, p, -, hp⟩ := h'.claimed
  refine ⟨p, q, hp, hq, ?_, hlate⟩
  by_contra hqp
  rcases Nat.lt_or_eq_of_le (Nat.le_of_not_lt hqp) with hqp | rfl
  · exact Instant.not_le.mpr hlate (steady.le hq hp hqp)
  · rw [hp.unique hq, Instant.lt_def] at hlate
    omega

/-- Whoever else writes over a lease that is kept does so once it has ended. -/
theorem WritesAt.expiresAt_le_of_keeps (h : (start s operations).WritesAt turns m i lease now)
    (keeps : Keeps ((start s operations).before turns n).session.tables lease)
    (h' : (start s operations).WritesAt turns n j r t) (hkey : r.key = lease.key)
    (hother : r.owner ≠ lease.owner) : lease.expiresAt ≤ t := by
  obtain ⟨row, hrow, howner, hends⟩ := keeps
  obtain ⟨-, t', hwrite⟩ := id h'
  rw [← hkey] at hrow
  rcases Leases.createOrUpdate_admitted hwrite hrow with ended | same
  · have hle : Timestamp.text lease.expiresAt ≤ Timestamp.text t :=
      String.le_trans hends ended
    rw [Timestamp.text_le_iff h.storable.1 h'.storable.2, h.expiresAt_kept] at hle
    obtain ⟨-, q, -, hread⟩ := h'.claimed
    rwa [hread.kept] at hle
  · exact absurd (same.symm.trans howner) hother

/-- One turn keeps a lease, or it is one that ends the lease. -/
theorem keeps_succ (hk : ∀ j, (operations j).1 = k) (steady : (start s operations).Steady turns)
    (h : (start s operations).WritesAt turns m i lease now) (hml : m < l) {x : Turn}
    (hx : turns[l]? = some x) (leaves : x.leavesLeases = true)
    (keeps : Keeps ((start s operations).before turns l).session.tables lease) :
    Keeps ((start s operations).before turns (l + 1)).session.tables lease ∨
      (start s operations).LostBetween turns m (l + 1) i lease now := by
  rcases row?_before_succ hx leaves lease.key with
    ⟨j, r, t, hwrite, hkey⟩ | ⟨j, hrelease, -⟩ | same
  · by_cases howner : r.owner = lease.owner
    · by_cases hends : lease.expiresAt ≤ r.expiresAt
      · -- the owner renews the lease
        left
        obtain ⟨row, hrow, hrowOwner, hexpires, -⟩ := hwrite.row?_succ
        refine ⟨row, hkey ▸ hrow, hrowOwner.trans howner, ?_⟩
        rw [hexpires, Timestamp.text_le_iff h.storable.1 hwrite.storable.1,
          h.expiresAt_kept, hwrite.expiresAt_kept]
        exact hends
      · -- a lease that ends earlier was written by a call that had read the clock earlier
        right; right; left
        have hshort := Instant.not_le.mp hends
        obtain ⟨p, q, hp, hq, hpq, hlate⟩ := h.read_before hk steady hwrite hshort
        exact ⟨l, j, r, t, p, q, hml, Nat.lt_succ_self l, hwrite, hkey, howner, hshort, hp, hq,
          hpq, hlate⟩
    · have hends := h.expiresAt_le_of_keeps keeps hwrite hkey howner
      right; right; right
      exact ⟨l, j, r, t, hml, Nat.lt_succ_self l, hwrite, hkey, howner, hends⟩
  · exact .inr (.inl ⟨l, j, hml, Nat.lt_succ_self l, hrelease⟩)
  · obtain ⟨row, hrow, hrest⟩ := keeps
    exact .inl ⟨row, same.trans hrow, hrest⟩

/-- Whenever a turn comes after a lease was written, the lease is kept, or one of the things has
happened that end it. -/
theorem kept_or_lost (hk : ∀ j, (operations j).1 = k)
    (leaves : ∀ x ∈ turns, x.leavesLeases = true) (steady : (start s operations).Steady turns)
    (h : (start s operations).WritesAt turns m i lease now) (hmn : m < n)
    (hn : n ≤ turns.length) :
    Keeps ((start s operations).before turns n).session.tables lease ∨
      (start s operations).LostBetween turns m n i lease now := by
  -- on the turns after the write
  induction n, hmn using Nat.le_induction with
  | base =>
    obtain ⟨row, hrow, howner, hexpires, -⟩ := h.row?_succ
    exact .inl ⟨row, hrow, howner, hexpires ▸ String.le_refl _⟩
  | succ n hmn ih =>
    rcases ih (Nat.le_of_succ_le hn) with keeps | lost
    · exact keeps_succ hk steady h hmn (List.getElem?_eq_getElem hn)
        (leaves _ (List.getElem_mem hn)) keeps
    · exact .inr lost.succ

end Kept

/-- Where one manager serves all calls and no call reads an instant before one that was read earlier,
a lease lasts as long as its owner was told: every call that writes one tells when it ends, and
nobody else writes a lease of the same key at an instant before that end, unless between the two
writes the key was released, or the lease was cut short by a late write of its owner, or somebody
else had taken the key over once the lease was at its end. -/
theorem lease_lasts_as_promised (s : Session) (operations : Nat → Nat × Operation)
    (turns : List Turn) (k : Nat) (hk : ∀ i, (operations i).1 = k)
    (leaves : ∀ x ∈ turns, x.leavesLeases = true) (steady : (start s operations).Steady turns)
    (m i : Nat) (lease : Reservation) (now : Instant)
    (h : (start s operations).WritesAt turns m i lease now) :
    (∀ result, ((start s operations).run turns).result? i = some result →
      ∃ reply, result = .ok reply ∧
        (operations i).2.told? (s.managers k).timing ⟨true, lease⟩ = some reply) ∧
    ∀ n j r t, m < n → (start s operations).WritesAt turns n j r t → r.key = lease.key →
      r.owner ≠ lease.owner → t < lease.expiresAt →
      (start s operations).LostBetween turns m n i lease now := by
  constructor
  · intro result hresult
    obtain ⟨⟨c, hc, -, -⟩, -⟩ := h.claimed
    have written := mem_observations_iff.mpr ⟨m, writesAt_iff.mp h⟩
    have told := (accounts_of_result hc hresult).wrote lease now written
    rwa [hk] at told
  · intro n j r t hmn hwrite hkey hother hearly
    obtain ⟨⟨next, hstep⟩, -⟩ := id hwrite
    rcases kept_or_lost hk leaves steady h hmn (Nat.le_of_lt hstep.lt) with keeps | lost
    · have hends := h.expiresAt_le_of_keeps keeps hwrite hkey hother
      exact absurd hends (Instant.not_le.mpr hearly)
    · exact lost

/-! ## Leases that are cut short -/

/-- A promise that is not kept. One manager serves all calls, all of which contend for leases, no
lease is void, and no call reads an instant before one that was read earlier. The owner of a lease is
told when it ends, and yet a later call of somebody else, which has read an instant before that end,
writes over it, without a release in between. -/
structure Broken (s : Session) (operations : Nat → Nat × Operation) (turns : List Turn)
    (m n i j : Nat) (lease r : Reservation) (now t : Instant) : Prop where
  /-- At first there are no leases. -/
  initial : s.tables = .initial
  /-- One manager serves all calls. -/
  manager : ∀ i, (operations i).1 = 0
  /-- All calls contend for leases. -/
  contend : ∀ i, (operations i).2.claim?.isSome = true
  /-- Leases last for some time. -/
  timing : ∃ seconds, (s.managers 0).timing.ttl? = .ok seconds ∧ 0 < seconds
  /-- Nothing else writes leases. -/
  leaves : ∀ x ∈ turns, x.leavesLeases = true
  /-- The clock never goes back. -/
  steady : (start s operations).Steady turns
  /-- The lease is granted. -/
  granted : (start s operations).WritesAt turns m i lease now
  /-- The owner is told. -/
  told : ∃ reply, ((start s operations).run turns).result? i = some (.ok reply) ∧
    (operations i).2.told? (s.managers 0).timing ⟨true, lease⟩ = some reply
  /-- The other lease is written later. -/
  later : m < n
  /-- It is written over the first one. -/
  overwritten : (start s operations).WritesAt turns n j r t
  /-- It is one of the same key. -/
  key : r.key = lease.key
  /-- It has another owner. -/
  other : r.owner ≠ lease.owner
  /-- Its call has read an instant before the end of the first one. -/
  early : t < lease.expiresAt
  /-- The key is not released in between. -/
  unreleased : ¬ (start s operations).ReleasedBetween turns m n lease.key

/-- Where all calls contend for leases no key is released. -/
theorem not_releasedBetween {s : Session} {operations : Nat → Nat × Operation} {turns : List Turn}
    {m n : Nat} {key : Key} (contend : ∀ i, (operations i).2.claim?.isSome = true) :
    ¬ (start s operations).ReleasedBetween turns m n key := by
  rintro ⟨l, j, -, -, hrelease⟩
  have claims := contend j
  rw [hrelease.operation_eq] at claims
  cases claims

/-- The calls of some first callers are of one owner, and all others of another one. They all want
the same key of one manager. -/
def lateOperations (count i : Nat) : Nat × Operation :=
  (0, .reserve ⟨⟨⟨"project", "domain", "name", "version"⟩, "tag"⟩,
    if i < count then "first" else "second", none⟩)

/-- The clock moves on by some seconds. -/
def pass (seconds : Int) : Turn := .step (.move 0 (.advance (.ofParts seconds 0)))

/-- A call of the owner finds the key free. Ten seconds later a second call of the same owner takes
the lease, and then the first one writes. Six seconds later somebody else takes the lease. -/
def cutShortTurns : List Turn :=
  [0, 0, 0].map .thread ++ pass 10 :: [1, 1, 1, 1, 1, 0, 0].map .thread ++
    pass 6 :: [2, 2, 2, 2, 2].map .thread

theorem broken_cutShort :
    ∃ lease r now t, Broken freshSession (lateOperations 2) cutShortTurns 7 15 1 2 lease r now t ∧
      ¬ (start freshSession (lateOperations 2)).TakenOverBetween cutShortTurns 7 15 lease := by
  have granted : (start freshSession (lateOperations 2)).WritesAt cutShortTurns 7 1 _ _ :=
    ⟨⟨_, rfl, rfl⟩, _, rfl⟩
  have overwritten : (start freshSession (lateOperations 2)).WritesAt cutShortTurns 15 2 _ _ :=
    ⟨⟨_, rfl, rfl⟩, _, rfl⟩
  refine ⟨_, _, _, _, ⟨rfl, fun _ => rfl, fun _ => rfl, ⟨15, rfl, by decide⟩, by decide, by decide,
    granted, ⟨_, rfl, rfl⟩, by decide, overwritten, rfl, by decide, by decide,
    not_releasedBetween fun _ => rfl⟩, ?_⟩
  rintro ⟨l, j, r, t, hl, hl', ⟨⟨next, hi, hc⟩, -⟩, -, hother, -⟩
  -- the only write in between is that of the owner's first call
  interval_cases l
  · cases hi
    cases hc
  · cases hi
    cases hc
    exact hother rfl
  · cases hi
    cases hc
  · cases hi
  · cases hi
    cases hc
  · cases hi
    cases hc
  · cases hi
    cases hc

/-- Two calls, of different owners, find the key free, one five seconds after the other, and the
first takes the lease. Eleven seconds later another call of the second owner takes it over, and then
the one that found the key free writes. -/
def takenOverTurns : List Turn :=
  [0, 0, 0].map .thread ++ pass 5 :: [1, 1, 1, 0, 0].map .thread ++
    pass 11 :: [2, 2, 2, 2, 2, 1, 1].map .thread

theorem broken_takenOver :
    ∃ lease r now t, Broken freshSession (lateOperations 1) takenOverTurns 7 15 0 1 lease r now t ∧
      ¬ (start freshSession (lateOperations 1)).CutShortBetween takenOverTurns 7 15 0 lease now := by
  have granted : (start freshSession (lateOperations 1)).WritesAt takenOverTurns 7 0 _ _ :=
    ⟨⟨_, rfl, rfl⟩, _, rfl⟩
  have overwritten : (start freshSession (lateOperations 1)).WritesAt takenOverTurns 15 1 _ _ :=
    ⟨⟨_, rfl, rfl⟩, _, rfl⟩
  refine ⟨_, _, _, _, ⟨rfl, fun _ => rfl, fun _ => rfl, ⟨15, rfl, by decide⟩, by decide, by decide,
    granted, ⟨_, rfl, rfl⟩, by decide, overwritten, rfl, by decide, by decide,
    not_releasedBetween fun _ => rfl⟩, ?_⟩
  rintro ⟨l, j, r, t, p, q, hl, hl', ⟨⟨next, hi, hc⟩, -⟩, -, howner, -⟩
  -- the only write in between is that of somebody else
  interval_cases l
  · cases hi
    cases hc
  · cases hi
  · cases hi
    cases hc
  · cases hi
    cases hc
  · cases hi
    cases hc
  · cases hi
    cases hc
    exact absurd howner (by decide)
  · cases hi
    cases hc

/-- A lease that its owner was told to have until later is cut short by the owner's late write. -/
theorem lease_cut_short :
    ∃ lease now, (start freshSession (lateOperations 2)).WritesAt cutShortTurns 7 1 lease now ∧
      (start freshSession (lateOperations 2)).CutShortBetween cutShortTurns 7 15 1 lease now := by
  obtain ⟨lease, r, now, t, broken, notTakenOver⟩ := broken_cutShort
  have lasts := lease_lasts_as_promised freshSession (lateOperations 2) cutShortTurns 0
    broken.manager broken.leaves broken.steady 7 1 lease now broken.granted
  refine ⟨lease, now, broken.granted, ?_⟩
  rcases lasts.2 15 2 r t broken.later broken.overwritten broken.key broken.other broken.early with
    released | cut | taken
  · exact absurd released broken.unreleased
  · exact cut
  · exact absurd taken notTakenOver

/-- Without a release a promise can be broken by a late write of the owner, where nobody else has
taken the key over, and by a late write of somebody who has, where the owner's lease was not cut
short. -/
theorem promise_broken_by_late_write :
    (∃ lease r now t,
      Broken freshSession (lateOperations 2) cutShortTurns 7 15 1 2 lease r now t ∧
      ¬ (start freshSession (lateOperations 2)).TakenOverBetween cutShortTurns 7 15 lease) ∧
    ∃ lease r now t,
      Broken freshSession (lateOperations 1) takenOverTurns 7 15 0 1 lease r now t ∧
      ¬ (start freshSession (lateOperations 1)).CutShortBetween takenOverTurns 7 15 0 lease now :=
  ⟨broken_cutShort, broken_takenOver⟩

end LeaseCatalog.Traffic
