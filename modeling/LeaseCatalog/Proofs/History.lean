import LeaseCatalog.Proofs.Contending
import LeaseCatalog.Proofs.Instants

/-!
# What is told follows from what was told

In a session without artifacts, in which one call comes after the other, nobody has to look into the
tables to know what a manager will reply. It is enough to have written down which leases were given
and which keys were released, and `Operation.reply` says what follows from these deeds: a caller
gets the lease unless the last deed on the key gave it to somebody else, for longer than until now.

`Session.Recorded` is what holds between any two steps: for every key the tables hold what the last
deed on it says. So every reply, and every lease that is then stored, follows from the deeds
(`reply_follows_deeds`).
-/

namespace LeaseCatalog

/-! ## Deeds -/

/-- What a call can do to the lease on a key. -/
inductive Deed where
  /-- The lease was given. -/
  | acquired (key : Key) (grant : Grant)
  /-- The key was released. -/
  | released (key : Key)
deriving DecidableEq

/-- The key of a deed. -/
def Deed.key : Deed → Key
  | .acquired key _ | .released key => key

/-- The lease that a key has after some deeds, of which the last comes first. -/
def held? (deeds : List Deed) (key : Key) : Option Grant :=
  match deeds.find? (·.key == key) with
  | some (.acquired _ grant) => some grant
  | some (.released _) | none => none

/-- The lease that keeps a claim from being granted: a live one of another owner. -/
def rival? (deeds : List Deed) (c : Claim) (now : Instant) : Option Grant :=
  (held? deeds c.key).filter fun grant =>
    !(decide (grant.expiresAt ≤ now) || grant.owner == c.owner)

namespace Operation

/-- What is wrong with what the caller of an operation supplies. -/
def validate : Operation → Except Error Unit
  | .reserve c | .extend c => c.validate
  | .release key | .get key => key.validate

/-- The reply to an operation at `now`, after some deeds, where a lease that is given ends at
`ends`. -/
def reply (deeds : List Deed) (timing : LeaseTiming) (now ends : Instant) : Operation → Reply
  | .reserve c =>
    let grant := (rival? deeds c now).getD ⟨c.owner, ends, c.metadata⟩
    .reserved (.status ⟨(rival? deeds c now).isNone, grant.owner, grant.expiresAt,
      timing.heartbeatInterval⟩)
  | .extend c =>
    let grant := (rival? deeds c now).getD ⟨c.owner, ends, c.metadata⟩
    .extended ⟨c.key, grant.owner, grant.expiresAt, timing.heartbeatInterval, grant.metadata⟩
  | .release _ => .released
  | .get key =>
    .found ((held? deeds key).map fun grant =>
      ⟨key, grant.owner, grant.expiresAt, timing.heartbeatInterval, grant.metadata⟩)

/-- What a call did to a lease, as its caller can tell from the reply. Whoever extends has the lease
exactly if the reply names the caller. -/
def deed? : Operation → Except Error Reply → Option Deed
  | .reserve c, .ok (.reserved (.status status)) =>
    if status.acquired then some (.acquired c.key ⟨status.owner, status.expiresAt, c.metadata⟩)
    else none
  | .extend c, .ok (.extended lease) =>
    if lease.owner = c.owner then
      some (.acquired c.key ⟨lease.owner, lease.expiresAt, lease.metadata⟩)
    else none
  | .release key, .ok .released => some (.released key)
  | _, _ => none

end Operation

/-- What a step did to a lease, as can be told from its answer. -/
def Step.deed? : (x : Step) → x.Answer → Option Deed
  | .serve _ operation, answer => operation.deed? answer
  | .ask _, _ | .move _ _, _ | .initialise, _ => none

namespace Session

/-- The deeds of steps, as can be told from their answers. The last comes first. -/
def deeds (s : Session) (steps : List Step) : List Deed :=
  ((s.run steps).1.filterMap fun answered => answered.1.deed? answered.2).reverse

/-- Whether a step is a call that is sound, or a move of a clock. If a lease may come of the call,
it may not be too long, and rows can hold its instants. -/
def Admits (s : Session) : Step → Prop
  | .serve i operation =>
    operation.validate = .ok () ∧
      (operation.claim?.isSome = true →
        ∃ ends, (s.managers i).timing.Lasts (s.managers i).clock.now ends)
  | .move _ _ => True
  | .ask _ | .initialise => False

/-- Whether all steps are such, one after the other. -/
def AdmitsAll (s : Session) : List Step → Prop
  | [] => True
  | x :: rest => s.Admits x ∧ (s.step x).2.AdmitsAll rest

end Session

/-! ## What is recorded -/

theorem held?_cons_self (deed : Deed) (deeds : List Deed) :
    held? (deed :: deeds) deed.key =
      match deed with
      | .acquired _ grant => some grant
      | .released _ => none := by
  have find : (deed :: deeds).find? (·.key == deed.key) = some deed :=
    List.find?_cons_of_pos (beq_self_eq_true deed.key)
  unfold held?
  rw [find]
  cases deed <;> rfl

theorem held?_cons_of_ne {deed : Deed} {key : Key} (h : key ≠ deed.key) (deeds : List Deed) :
    held? (deed :: deeds) key = held? deeds key := by
  unfold held?
  rw [List.find?_cons_of_neg (by simpa using Ne.symm h)]

/-- Tables in which no key stands for an artifact, and each key has the lease that the last deed on
it gave. -/
structure Tables.Record (t : Tables) (deeds : List Deed) : Prop where
  /-- No key stands for an artifact. -/
  untagged : t.Untagged
  /-- Each key has the lease that the last deed on it gave. -/
  leases : ∃ m, t.Holds m ∧ ∀ key, (m.lookup key).map Entry.grant = held? deeds key

theorem Tables.record_initial : Tables.initial.Record [] :=
  ⟨Tables.untagged_initial, ∅, Tables.holds_initial, fun _ => rfl⟩

section Rival

variable {m : LeaseMap} {deeds : List Deed} {c : Claim} {now : Instant}

/-- A claim without a rival may be written. -/
theorem claimable_of_rival?_none (h : (m.lookup c.key).map Entry.grant = held? deeds c.key)
    (free : rival? deeds c now = none) :
    ∀ e, m.lookup c.key = some e → (e.on c.key).isClaimableBy c.owner now = true := by
  intro e he
  unfold rival? at free
  rw [← h, he, Option.map_some, Option.filter_eq_none_iff] at free
  have := free e.grant rfl
  rw [Bool.not_eq_true', Bool.not_eq_false] at this
  exact this

/-- A rival is what the key has, and may not be overwritten. -/
theorem rival?_eq_some (h : (m.lookup c.key).map Entry.grant = held? deeds c.key) {grant : Grant}
    (held : rival? deeds c now = some grant) :
    ∃ e, m.lookup c.key = some e ∧ e.grant = grant ∧
      ¬ (e.on c.key).isClaimableBy c.owner now = true ∧ grant.owner ≠ c.owner := by
  unfold rival? at held
  rw [← h, Option.filter_eq_some_iff] at held
  obtain ⟨hgrant, live⟩ := held
  obtain ⟨e, he, rfl⟩ := Option.map_eq_some_iff.mp hgrant
  rw [Bool.not_eq_true', Bool.or_eq_false_iff] at live
  refine ⟨e, he, rfl, ?_, ?_⟩
  · unfold Reservation.isClaimableBy Reservation.isExpiredAt
    rw [Bool.not_eq_true, Bool.or_eq_false_iff]
    exact live
  · intro howner
    rw [howner] at live
    simp at live

end Rival

namespace Tables.Record

variable {t : Tables} {deeds : List Deed}

/-- What the store gives for a key is what the last deed on it gave. -/
theorem get (h : t.Record deeds) (d : Dialect) (key : Key) :
    ∃ found, foundOrNone (Leases.get d t key) = .ok found ∧
      found.map Reservation.grant = held? deeds key ∧ ∀ r ∈ found, r.key = key := by
  obtain ⟨m, hold, hm⟩ := h.leases
  refine ⟨_, hold.foundOrNone_get d key, ?_, ?_⟩
  · rw [← hm key, Option.map_map]
    rfl
  · intro r hr
    obtain ⟨e, -, rfl⟩ := Option.map_eq_some_iff.mp hr
    rfl

section Contend

variable {α : Type} {c : Claim} {timing : LeaseTiming} {now ends : Instant}

/-- Without a rival a claim is granted. -/
theorem contend_free (h : t.Record deeds) (d : Dialect) (lasts : timing.Lasts now ends)
    (kept : now.kept = now) (free : rival? deeds c now = none) (failure : Event)
    (give : Attempt → α) (counters : Counters) :
    ∃ t' counters', t'.Record (.acquired c.key ⟨c.owner, ends, c.metadata⟩ :: deeds) ∧
      (Call.contend c timing failure give).run (.ofTables d) now t counters =
        ⟨.ok (give ⟨true, .taken c.key c.owner ends now c.metadata⟩), t', counters'⟩ := by
  obtain ⟨m, hold, hm⟩ := h.leases
  obtain ⟨t', e, counters', hold', same, hgrant, hrun⟩ :=
    hold.run_contend_free d lasts (claimable_of_rival?_none (hm c.key) free) failure give counters
  refine ⟨t', counters', ⟨h.untagged.sameTags same, _, hold', fun key => ?_⟩, hrun⟩
  by_cases hk : key = c.key
  · rw [hk, Finmap.lookup_insert, lasts.kept kept] at *
    rw [Option.map_some, hgrant]
    exact (held?_cons_self (.acquired c.key ⟨c.owner, ends, c.metadata⟩) deeds).symm
  · rw [Finmap.lookup_insert_of_ne _ hk, hm key]
    exact (held?_cons_of_ne hk deeds).symm

/-- With a rival the rival is named, and nothing changes. -/
theorem contend_held (h : t.Record deeds) (d : Dialect) {grant : Grant}
    (held : rival? deeds c now = some grant) (failure : Event) (give : Attempt → α)
    (counters : Counters) :
    ∃ r counters', r.key = c.key ∧ r.grant = grant ∧
      (Call.contend c timing failure give).run (.ofTables d) now t counters =
        ⟨.ok (give ⟨false, r⟩), t, counters'⟩ := by
  obtain ⟨m, hold, hm⟩ := h.leases
  obtain ⟨e, he, hgrant, live, -⟩ := rival?_eq_some (hm c.key) held
  exact ⟨e.on c.key, _, rfl, hgrant, hold.run_contend_held d he live failure give counters⟩

end Contend

theorem release (h : t.Record deeds) (d : Dialect) (key : Key) :
    ∃ t', Leases.delete d t key = .ok t' ∧ t'.Record (.released key :: deeds) := by
  obtain ⟨m, hold, hm⟩ := h.leases
  obtain ⟨t', ht', hold'⟩ := hold.delete d key
  have same := Leases.delete_sameTags ht'
  refine ⟨t', ht', h.untagged.sameTags same, _, hold', fun key' => ?_⟩
  by_cases hk : key' = key
  · rw [hk, Finmap.lookup_erase]
    exact (held?_cons_self (.released key) deeds).symm
  · rw [Finmap.lookup_erase_ne hk, hm key']
    exact (held?_cons_of_ne hk deeds).symm

end Tables.Record

/-! ## One call -/

namespace Operation

variable {t : Tables} {deeds : List Deed} {timing : LeaseTiming} {now : Instant}

/-- What holds of a call that has come to an end: the reply follows from the deeds, and the tables
are as the deeds say with the one that the reply tells of. Without such a deed they are as they
were. -/
structure Follows (operation : Operation) (deeds : List Deed) (timing : LeaseTiming)
    (now ends : Instant) (t : Tables) (result : Except Error Reply) (t' : Tables) : Prop where
  /-- A lease that may come of the call ends at `ends`. -/
  lasts : operation.claim?.isSome = true → timing.Lasts now ends
  /-- The reply follows from the deeds. -/
  reply : result = .ok (operation.reply deeds timing now ends)
  /-- The tables are as the deeds say. -/
  record : t'.Record ((operation.deed? result).toList ++ deeds)
  /-- Without a deed nothing changes. -/
  unchanged : operation.deed? result = none → t' = t

theorem reply_reserve (deeds : List Deed) (timing : LeaseTiming) (now ends : Instant) (c : Claim) :
    reply deeds timing now ends (.reserve c) =
      .reserved (.status ⟨(rival? deeds c now).isNone,
        ((rival? deeds c now).getD ⟨c.owner, ends, c.metadata⟩).owner,
        ((rival? deeds c now).getD ⟨c.owner, ends, c.metadata⟩).expiresAt,
        timing.heartbeatInterval⟩) := rfl

theorem reply_extend (deeds : List Deed) (timing : LeaseTiming) (now ends : Instant) (c : Claim) :
    reply deeds timing now ends (.extend c) =
      .extended ⟨c.key, ((rival? deeds c now).getD ⟨c.owner, ends, c.metadata⟩).owner,
        ((rival? deeds c now).getD ⟨c.owner, ends, c.metadata⟩).expiresAt,
        timing.heartbeatInterval,
        ((rival? deeds c now).getD ⟨c.owner, ends, c.metadata⟩).metadata⟩ := rfl

/-- Reserving is contending where the key stands for no artifact. -/
theorem reserve_run {c : Claim} (h : t.selectTag c.key = .error .rowNotFound) (d : Dialect)
    (valid : c.validate = .ok ()) (counters : Counters) :
    ((reserve c).call timing).run (.ofTables d) now t counters =
      (Call.contend c timing .acquireFailed fun attempt =>
        Reply.reserved (.status (attempt.status timing))).run (.ofTables d) now t counters := by
  show (Call.reserve timing c Reply.reserved).run _ _ _ _ = _
  rw [Call.reserve_eq timing _ valid, Call.run_ask]
  show (Call.tagLooked timing c Reply.reserved (Tags.get d t c.key)).run _ _ _ _ = _
  rw [Call.tagLooked_none (foundOrNone_getTag h d)]
  rfl

theorem reserve_follows (h : t.Record deeds) (d : Dialect) {c : Claim} {ends : Instant}
    (valid : c.validate = .ok ()) (lasts : timing.Lasts now ends) (kept : now.kept = now)
    (counters : Counters) :
    ∃ result t' counters', ((reserve c).call timing).run (.ofTables d) now t counters =
        ⟨result, t', counters'⟩ ∧
      (reserve c).Follows deeds timing now ends t result t' := by
  rw [reserve_run (h.untagged c.key) d valid]
  cases hr : rival? deeds c now with
  | none =>
    obtain ⟨t', counters', record, hrun⟩ := h.contend_free d lasts kept hr .acquireFailed
      (fun attempt => Reply.reserved (.status (attempt.status timing))) counters
    refine ⟨_, t', counters', hrun, fun _ => lasts, ?_, record, nofun⟩
    rw [reply_reserve, hr]
    rfl
  | some grant =>
    obtain ⟨r, counters', -, rfl, hrun⟩ := h.contend_held d hr .acquireFailed
      (fun attempt => Reply.reserved (.status (attempt.status timing))) counters
    refine ⟨_, t, counters', hrun, fun _ => lasts, ?_, h, fun _ => rfl⟩
    rw [reply_reserve, hr]
    rfl

theorem extend_follows (h : t.Record deeds) (d : Dialect) {c : Claim} {ends : Instant}
    (valid : c.validate = .ok ()) (lasts : timing.Lasts now ends) (kept : now.kept = now)
    (counters : Counters) :
    ∃ result t' counters', ((extend c).call timing).run (.ofTables d) now t counters =
        ⟨result, t', counters'⟩ ∧
      (extend c).Follows deeds timing now ends t result t' := by
  have hcall : (extend c).call timing = Call.contend c timing .extendFailed fun attempt =>
      Reply.extended (attempt.holder.toLease timing) := Call.extend_eq timing _ valid
  rw [hcall]
  cases hr : rival? deeds c now with
  | none =>
    obtain ⟨t', counters', record, hrun⟩ := h.contend_free d lasts kept hr .extendFailed
      (fun attempt => Reply.extended (attempt.holder.toLease timing)) counters
    have hdeed : (extend c).deed? (.ok (Reply.extended
          ((Reservation.taken c.key c.owner ends now c.metadata).toLease timing))) =
        some (.acquired c.key ⟨c.owner, ends, c.metadata⟩) := if_pos rfl
    refine ⟨_, t', counters', hrun, fun _ => lasts, ?_, ?_, ?_⟩
    · rw [reply_extend, hr]
      rfl
    · rw [hdeed]
      exact record
    · rw [hdeed]
      nofun
  | some grant =>
    obtain ⟨r, counters', hkey, rfl, hrun⟩ := h.contend_held d hr .extendFailed
      (fun attempt => Reply.extended (attempt.holder.toLease timing)) counters
    obtain ⟨m, -, hm⟩ := h.leases
    obtain ⟨-, -, -, -, other⟩ := rival?_eq_some (hm c.key) hr
    -- the reply names the rival, who is not the caller, so it tells of no deed
    have hdeed : (extend c).deed? (.ok (Reply.extended (r.toLease timing))) = none := if_neg other
    refine ⟨_, t, counters', hrun, fun _ => lasts, ?_, ?_, fun _ => rfl⟩
    · rw [reply_extend, hr, ← hkey]
      rfl
    · rw [hdeed]
      exact h

theorem release_follows (h : t.Record deeds) (d : Dialect) {key : Key} (ends : Instant)
    (valid : key.validate = .ok ()) (counters : Counters) :
    ∃ result t' counters', ((release key).call timing).run (.ofTables d) now t counters =
        ⟨result, t', counters'⟩ ∧
      (release key).Follows deeds timing now ends t result t' := by
  obtain ⟨t', ht', record⟩ := h.release d key
  refine ⟨.ok .released, t', counters, ?_, nofun, rfl, record, nofun⟩
  show (Call.release key Reply.released).run _ _ _ _ = _
  rw [Call.release_eq _ valid, Call.run_ask, Request.perform_delete, ht']
  rfl

theorem get_follows (h : t.Record deeds) (d : Dialect) {key : Key} (ends : Instant)
    (valid : key.validate = .ok ()) (counters : Counters) :
    ∃ result t' counters', ((get key).call timing).run (.ofTables d) now t counters =
        ⟨result, t', counters'⟩ ∧
      (get key).Follows deeds timing now ends t result t' := by
  obtain ⟨found, hfound, hgrant, hkey⟩ := h.get d key
  refine ⟨.ok (.found (found.map (·.toLease timing))), t, counters, ?_, nofun, ?_, h, fun _ => rfl⟩
  · show (Call.get timing key Reply.found).run _ _ _ _ = _
    rw [Call.get_eq timing _ valid, Call.run_ask, Request.perform_get, Call.shown_ok hfound]
    rfl
  · show _ = Except.ok (Reply.found ((held? deeds key).map _))
    rw [← hgrant, Option.map_map]
    cases found with
    | none => rfl
    | some r =>
      rw [← hkey r rfl]
      rfl

theorem call_follows (h : t.Record deeds) (d : Dialect) {operation : Operation}
    (valid : operation.validate = .ok ())
    (lasts : operation.claim?.isSome = true → ∃ ends, timing.Lasts now ends)
    (kept : now.kept = now) (counters : Counters) :
    ∃ ends result t' counters', (operation.call timing).run (.ofTables d) now t counters =
        ⟨result, t', counters'⟩ ∧
      operation.Follows deeds timing now ends t result t' := by
  cases operation with
  | reserve c =>
    obtain ⟨ends, lasts⟩ := lasts rfl
    exact ⟨ends, reserve_follows h d valid lasts kept counters⟩
  | extend c =>
    obtain ⟨ends, lasts⟩ := lasts rfl
    exact ⟨ends, extend_follows h d valid lasts kept counters⟩
  | release key => exact ⟨now, release_follows h d now valid counters⟩
  | get key => exact ⟨now, get_follows h d now valid counters⟩

end Operation

/-! ## All calls -/

namespace Session

variable {s : Session} {deeds : List Deed}

theorem serve_follows (h : s.tables.Record deeds) {i : Nat} {operation : Operation}
    (admits : s.Admits (.serve i operation)) :
    ∃ ends, operation.Follows deeds (s.managers i).timing (s.managers i).clock.now ends s.tables
      (s.step (.serve i operation)).1 (s.step (.serve i operation)).2.tables := by
  obtain ⟨valid, lasts⟩ := admits
  obtain ⟨ends, result, t', counters', hrun, follows⟩ := Operation.call_follows h s.dialect valid
    lasts (ManualClock.kept_now _) (s.managers i).counters
  refine ⟨ends, ?_⟩
  change operation.Follows _ _ _ _ _ (Call.run _ _ (operation.call _) _ _).result
    (Call.run _ _ (operation.call _) _ _).state
  rw [hrun]
  exact follows

/-- After a step the tables hold what the deeds say with the one that its answer tells of. -/
theorem record_step (h : s.tables.Record deeds) {x : Step} (admits : s.Admits x) :
    (s.step x).2.tables.Record ((x.deed? (s.step x).1).toList ++ deeds) := by
  cases x with
  | serve i operation =>
    obtain ⟨ends, follows⟩ := serve_follows h admits
    exact follows.record
  | move i how => exact h
  | ask request => exact admits.elim
  | initialise => exact admits.elim

theorem deeds_cons (s : Session) (x : Step) (rest : List Step) :
    s.deeds (x :: rest) = (s.step x).2.deeds rest ++ (x.deed? (s.step x).1).toList := by
  unfold deeds
  change (List.filterMap _ (⟨x, (s.step x).1⟩ :: ((s.step x).2.run rest).1)).reverse = _
  rw [List.filterMap_cons]
  cases x.deed? (s.step x).1 with
  | none => simp
  | some deed => simp

/-- After any steps the tables hold what the deeds say that the answers tell of. -/
theorem record_run {steps : List Step} (h : s.tables.Record deeds)
    (admits : s.AdmitsAll steps) :
    (s.run steps).2.tables.Record (s.deeds steps ++ deeds) := by
  induction steps generalizing s deeds with
  | nil => exact h
  | cons x rest ih =>
    rw [deeds_cons, List.append_assoc]
    exact ih (record_step h admits.1) admits.2

theorem admitsAll_append {steps : List Step} {x : Step} (h : s.AdmitsAll (steps ++ [x])) :
    s.AdmitsAll steps ∧ (s.run steps).2.Admits x := by
  induction steps generalizing s with
  | nil => exact ⟨trivial, h.1⟩
  | cons y rest ih =>
    obtain ⟨hrest, hx⟩ := ih h.2
    exact ⟨⟨h.1, hrest⟩, hx⟩

theorem deeds_append (s : Session) (steps : List Step) (x : Step) :
    s.deeds (steps ++ [x]) =
      (x.deed? ((s.run steps).2.step x).1).toList ++ s.deeds steps := by
  induction steps generalizing s with
  | nil =>
    rw [List.nil_append, deeds_cons]
    exact (List.append_nil _).symm
  | cons y rest ih =>
    rw [List.cons_append, deeds_cons, ih, deeds_cons, List.append_assoc]
    rfl

/-- In a session that begins with empty tables, the reply to every call follows from the deeds that
the earlier answers tell of, by the clock and the timing of the manager that is called. What is
stored for any key afterwards is what the last deed on it says, and a call that tells of no deed
changes nothing. -/
theorem reply_follows_deeds (s : Session) (hs : s.tables = .initial) (steps : List Step) (i : Nat)
    (operation : Operation) (admits : s.AdmitsAll (steps ++ [.serve i operation])) :
    ∃ ends,
      (operation.claim?.isSome = true →
        ((s.run steps).2.managers i).timing.Lasts ((s.run steps).2.managers i).clock.now ends) ∧
      ((s.run steps).2.step (.serve i operation)).1 =
        .ok (operation.reply (s.deeds steps) ((s.run steps).2.managers i).timing
          ((s.run steps).2.managers i).clock.now ends) ∧
      (∀ key, ∃ found,
        foundOrNone (Leases.get ((s.run steps).2.step (.serve i operation)).2.dialect
          ((s.run steps).2.step (.serve i operation)).2.tables key) = .ok found ∧
        found.map Reservation.grant = held? (s.deeds (steps ++ [.serve i operation])) key) ∧
      (operation.deed? ((s.run steps).2.step (.serve i operation)).1 = none →
        ((s.run steps).2.step (.serve i operation)).2.tables = (s.run steps).2.tables) := by
  obtain ⟨admitted, hadmits⟩ := admitsAll_append admits
  have record : (s.run steps).2.tables.Record (s.deeds steps) := by
    have := record_run (hs ▸ Tables.record_initial : s.tables.Record []) admitted
    rwa [List.append_nil] at this
  obtain ⟨ends, follows⟩ := serve_follows record hadmits
  refine ⟨ends, follows.lasts, follows.reply, fun key => ?_, follows.unchanged⟩
  rw [deeds_append]
  obtain ⟨found, hfound, hgrant, -⟩ := follows.record.get _ key
  exact ⟨found, hfound, hgrant⟩

/-- Two managers in a session with empty tables. -/
def newSession : Session where
  dialect := .sqlite
  tables := .initial
  managers _ := .startingAt .standard .epoch

/-- What two callers want on the same key. -/
def claimOf (owner : String) : Claim :=
  ⟨⟨⟨"project", "domain", "name", "version"⟩, "tag"⟩, owner, none⟩

/-- An owner takes a lease, and the clock of another manager is put to its end. -/
def takenAndOver : List Step :=
  [.serve 0 (.reserve (claimOf "first")),
    .move 1 (.advance (.ofParts 15 0))]

theorem reply_after_end :
    newSession.AdmitsAll (takenAndOver ++ [.serve 1 (.extend (claimOf "second"))]) ∧
      ((newSession.run takenAndOver).2.step (.serve 1 (.extend (claimOf "second")))).1 =
        (.ok (.extended ⟨(claimOf "second").key, "second",
          (Instant.ofParts? 30 0).getD .epoch, 5, none⟩) : Except Error Reply) := by
  have lasts : ∀ now ends : Instant, now.addSeconds? 15 = some ends → now.Storable →
      ends.Storable → LeaseTiming.standard.Lasts now ends :=
    fun now ends h hnow hends => ⟨⟨15, rfl, h⟩, hnow, hends⟩
  have admits : newSession.AdmitsAll (takenAndOver ++ [.serve 1 (.extend (claimOf "second"))]) :=
    ⟨⟨rfl, fun _ => ⟨_, lasts .epoch _ rfl (by decide) (by decide)⟩⟩, trivial,
      ⟨rfl, fun _ => ⟨_, lasts ((Instant.ofParts? 15 0).getD .epoch) _ rfl
        (by decide) (by decide)⟩⟩, trivial⟩
  obtain ⟨ends, hlasts, hreply, -⟩ := reply_follows_deeds newSession rfl takenAndOver 1
    (.extend (claimOf "second")) admits
  obtain ⟨⟨seconds, hseconds, hends⟩, -, -⟩ := hlasts rfl
  cases hseconds
  cases hends
  exact ⟨admits, hreply⟩

end Session

end LeaseCatalog
