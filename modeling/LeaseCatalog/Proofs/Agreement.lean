import LeaseCatalog.Proofs.Race

/-!
# A race has one winner

While nobody may keep the key from a caller, all calls of a race are still at the stages before the
write (`Race.Unsettled`). From the first write on, or from the beginning if the key has a live
lease, there is one owner whom no other caller can displace, and every call that has come further
tells of that owner (`Race.Settled`). Both are shown of one move, and so of all turns of all
callers.

So when all calls of a race have ended, they agree (`Race.calls_agree`).
-/

namespace LeaseCatalog.Race

variable {race : Race} {stages : Nat → Stage} {m m' : LeaseMap} {i : Nat} {stage : Stage}

/-! ## A settled race -/

/-- Leases that only one owner may overwrite, and among which are the leases that the race can give
to this owner. -/
structure Rule (race : Race) (owner : String) (leases : Grant → Prop) : Prop where
  /-- They are the owner's. -/
  owner_eq : ∀ grant, leases grant → grant.owner = owner
  /-- They have not ended. -/
  live : ∀ grant, leases grant → race.now < grant.expiresAt
  /-- A caller of this name gets such a lease. -/
  renewed : ∀ i < race.count, race.owners i = owner → leases (race.grant i)

/-- Whether a call at a stage tells the right story: only the owner has the lease, and all others
have found a lease of the owner. -/
def Stage.Tells (race : Race) (owner : String) (leases : Grant → Prop) (i : Nat) : Stage → Prop
  | .starting | .reading | .looking | .writing _ => True
  | .acquiring _ => race.owners i = owner
  | .blocked found => race.owners i ≠ owner ∧ leases found.grant
  | .conflicted | .asking => race.owners i ≠ owner
  | .ended a =>
    if a.acquired then race.owners i = owner ∧ a.holder = race.lease i
    else race.owners i ≠ owner ∧ leases a.holder.grant

/-- A race in which the key has a live lease, and in which all calls tell the same story. -/
structure Settled (race : Race) (owner : String) (leases : Grant → Prop) (stages : Nat → Stage)
    (m : LeaseMap) : Prop where
  /-- The key has such a lease. -/
  held : ∃ e, m.lookup race.key = some e ∧ leases e.grant
  /-- All calls tell of such leases. -/
  tells : ∀ i < race.count, (stages i).Tells race owner leases i

section Settled

variable {owner : String} {leases : Grant → Prop}

/-- Only the owner may write over such a lease. -/
theorem Rule.claimable_iff (rule : Rule race owner leases) {e : Entry} (he : leases e.grant)
    (caller : String) :
    (e.on race.key).isClaimableBy caller race.now = true ↔ caller = owner := by
  have live : ¬ e.expiresAt ≤ race.now := Instant.not_le.mpr (rule.live _ he)
  have howner : e.owner = owner := rule.owner_eq _ he
  rw [Reservation.isClaimableBy_iff]
  constructor
  · rintro (expired | same)
    · exact absurd expired live
    · exact same.symm.trans howner
  · rintro rfl
    exact .inr howner

/-- The call that moves goes on telling the story, and the key goes on having such a lease. -/
theorem Settled.move_self (rule : Rule race owner leases)
    (h : Settled race owner leases stages m) (hi : i < race.count)
    (move : race.Moves i m (stages i) stage m') :
    (∃ e, m'.lookup race.key = some e ∧ leases e.grant) ∧
      stage.Tells race owner leases i := by
  obtain ⟨e, he, hleases⟩ := h.held
  have tells := h.tells i hi
  generalize stages i = old at move tells
  cases move with
  | start => exact ⟨h.held, trivial⟩
  | read => exact ⟨h.held, trivial⟩
  | lookFree => exact ⟨h.held, trivial⟩
  | lookClaimable => exact ⟨h.held, trivial⟩
  | lookLive hfound live =>
    rw [he] at hfound
    cases hfound
    exact ⟨h.held, fun same => live ((rule.claimable_iff hleases _).mpr same), hleases⟩
  | write claimable hgrant =>
    -- only the owner can write over such a lease, so the new one is the owner's as well
    have same := (rule.claimable_iff hleases _).mp (claimable e he)
    refine ⟨⟨_, Finmap.lookup_insert _, ?_⟩, same⟩
    rw [hgrant]
    exact rule.renewed i hi same
  | conflict hfound live =>
    rw [he] at hfound
    cases hfound
    exact ⟨h.held, fun same => live ((rule.claimable_iff hleases _).mpr same)⟩
  | gain => exact ⟨h.held, tells, rfl⟩
  | miss => exact ⟨h.held, tells⟩
  | lose => exact ⟨h.held, tells⟩
  | learn hfound =>
    rw [he] at hfound
    cases hfound
    exact ⟨h.held, tells, hleases⟩
  | learnNothing hfound =>
    rw [he] at hfound
    cases hfound
  | rest => exact ⟨h.held, tells⟩

theorem Settled.move (rule : Rule race owner leases) (h : Settled race owner leases stages m)
    (hi : i < race.count) (move : race.Moves i m (stages i) stage m') :
    Settled race owner leases (Function.update stages i stage) m' := by
  obtain ⟨held, tells⟩ := h.move_self rule hi move
  exact ⟨held, forall_update h.tells tells⟩

end Settled

/-! ## A race that is not settled -/

/-- A stage before the write. -/
def Stage.Early : Stage → Prop
  | .starting | .reading | .looking | .writing _ => True
  | .acquiring _ | .blocked _ | .conflicted | .asking | .ended _ => False

/-- A race in which every caller may have the key, and nobody has written yet. -/
structure Unsettled (race : Race) (stages : Nat → Stage) (m : LeaseMap) : Prop where
  /-- What lease the key has has ended. -/
  ended : ∀ e, m.lookup race.key = some e → e.expiresAt ≤ race.now
  /-- No call has come further than the write. -/
  early : ∀ i < race.count, (stages i).Early

theorem Stage.Early.tells (h : stage.Early) (owner : String) (leases : Grant → Prop) :
    stage.Tells race owner leases i := by
  cases stage <;> trivial

/-- The lease that a caller gets is one that nobody else may overwrite. -/
theorem rule_of_winner {w : Nat} (hw : w < race.count) :
    Rule race (race.owners w) (· = race.grant w) where
  owner_eq := by
    rintro grant rfl
    rfl
  live := by
    rintro grant rfl
    exact race.now_lt_ends
  renewed j hj hname := by rw [race.distinct j hj w hw hname]

/-- One move leaves a race unsettled, or settles it for the caller who moves. -/
theorem Unsettled.move (h : Unsettled race stages m) (hi : i < race.count)
    (move : race.Moves i m (stages i) stage m') :
    Unsettled race (Function.update stages i stage) m' ∨
      Settled race (race.owners i) (· = race.grant i) (Function.update stages i stage) m' := by
  have expired : ∀ e, m.lookup race.key = some e →
      (e.on race.key).isClaimableBy (race.owners i) race.now = true := by
    intro e he
    exact Reservation.isClaimableBy_iff.mpr (.inl (h.ended e he))
  have unsettled : stage.Early → m' = m →
      Unsettled race (Function.update stages i stage) m' := by
    rintro hstage rfl
    exact ⟨h.ended, forall_update h.early hstage⟩
  have early := h.early i hi
  generalize stages i = old at move early
  cases move with
  | start => exact .inl (unsettled trivial rfl)
  | read => exact .inl (unsettled trivial rfl)
  | lookFree => exact .inl (unsettled trivial rfl)
  | lookClaimable => exact .inl (unsettled trivial rfl)
  | lookLive hfound live => exact absurd (expired _ hfound) live
  | write claimable hgrant =>
    -- the first write settles the race for the writer, and no other call has come so far
    refine .inr ⟨⟨_, Finmap.lookup_insert _, hgrant⟩, forall_update ?_ rfl⟩
    intro j hj
    exact (h.early j hj).tells _ _
  | conflict hfound live => exact absurd (expired _ hfound) live
  | gain => exact early.elim
  | miss => exact early.elim
  | lose => exact early.elim
  | learn => exact early.elim
  | learnNothing => exact early.elim
  | rest => exact early.elim

/-! ## The end of a race -/

/-- What a caller is told who is told of a lease. -/
def status (race : Race) (acquired : Bool) (owner : String) (ends : Instant) : Reply :=
  .reserved (.status ⟨acquired, owner, ends, race.manager.timing.heartbeatInterval⟩)

/-- The traffic after some turns of the callers. -/
def after (race : Race) (s : Session) (k : Nat) (turns : List Turn) : Traffic :=
  (race.start s k).run turns

/-- Whether a caller has been told to have the lease. -/
def hasAcquired (s : Traffic) (i : Nat) : Bool :=
  match s.result? i with
  | some (.ok (.reserved (.status status))) => status.acquired
  | _ => false

section End

variable {k : Nat} {s : Traffic}

/-- Nothing is left of a call at the last stage only. -/
theorem Stage.eq_ended {result : Except Error Reply} (h : stage.call race i = .done result) :
    ∃ a, stage = .ended a ∧ result = .ok (race.told a) := by
  cases stage with
  | ended a => exact ⟨a, rfl, (Call.done.inj h).symm⟩
  | _ => cases h

/-- A call that has ended is at the last stage, and the caller was told of the attempt. -/
theorem Tracks.ended (h : race.Tracks k stages m s) (hi : i < race.count)
    (ended : (s.result? i).isSome = true) :
    ∃ a, stages i = .ended a ∧ s.result? i = some (.ok (race.told a)) := by
  obtain ⟨result, hresult⟩ := Option.isSome_iff_exists.mp ended
  have done := Traffic.result?_eq_some_iff.mp hresult
  rw [h.calls i hi] at done
  obtain ⟨a, hstage, rfl⟩ := Stage.eq_ended done
  exact ⟨a, hstage, hresult⟩

/-- When all calls have ended, the counters have risen by what the callers were told. -/
theorem Tracks.counters (h : race.Tracks k stages m s)
    (ended : ∀ i < race.count, (s.result? i).isSome = true) :
    (s.session.managers k).counters.acquired = race.manager.counters.acquired +
        ((Finset.range race.count).filter fun i => hasAcquired s i = true).card ∧
      (s.session.managers k).counters.alreadyInProgress =
        race.manager.counters.alreadyInProgress +
          ((Finset.range race.count).filter fun i => ¬ hasAcquired s i = true).card ∧
      (s.session.managers k).counters.failures = race.manager.counters.failures := by
  have counted : ∀ i ∈ Finset.range race.count,
      (stages i).gained = (if hasAcquired s i = true then 1 else 0) ∧
        (stages i).missed = (if ¬ hasAcquired s i = true then 1 else 0) := by
    intro i hi
    have hi := Finset.mem_range.mp hi
    obtain ⟨a, hstage, hresult⟩ := h.ended hi (ended i hi)
    have acquired : hasAcquired s i = a.acquired := by
      unfold hasAcquired
      rw [hresult]
      rfl
    rw [hstage, acquired]
    cases ha : a.acquired <;> simp [Stage.gained, Stage.missed, ha]
  refine ⟨?_, ?_, h.failures⟩
  · rw [h.acquired, Finset.card_filter]
    exact congrArg _ (Finset.sum_congr rfl fun i hi => (counted i hi).1)
  · rw [h.alreadyInProgress, Finset.card_filter]
    exact congrArg _ (Finset.sum_congr rfl fun i hi => (counted i hi).2)

variable {owner : String} {leases : Grant → Prop}

/-- In a settled race the owner has the lease, if the owner is one of the callers. -/
theorem Settled.result_of_owner (h : Settled race owner leases stages m)
    (tracks : race.Tracks k stages m s) (hi : i < race.count)
    (ended : (s.result? i).isSome = true) (howner : race.owners i = owner) :
    s.result? i = some (.ok (race.status true owner race.ends)) := by
  obtain ⟨a, hstage, hresult⟩ := tracks.ended hi ended
  have tells := h.tells i hi
  rw [hstage, Stage.Tells] at tells
  split_ifs at tells with ha
  · rw [hresult, told, Attempt.status, ha, tells.2, ← howner]
    rfl
  · exact absurd howner tells.1

/-- In a settled race everybody else is told of a lease of the owner. -/
theorem Settled.result_of_other (h : Settled race owner leases stages m)
    (rule : Rule race owner leases) (tracks : race.Tracks k stages m s) (hi : i < race.count)
    (ended : (s.result? i).isSome = true) (howner : race.owners i ≠ owner) :
    ∃ grant, leases grant ∧
      s.result? i = some (.ok (race.status false owner grant.expiresAt)) := by
  obtain ⟨a, hstage, hresult⟩ := tracks.ended hi ended
  have tells := h.tells i hi
  rw [hstage, Stage.Tells] at tells
  split_ifs at tells with ha
  · exact absurd tells.1 howner
  · refine ⟨a.holder.grant, tells.2, ?_⟩
    rw [hresult, told, Attempt.status, Bool.eq_false_of_not_eq_true ha,
      ← rule.owner_eq _ tells.2]
    rfl

/-- In a settled race such a lease is what the store gives. -/
theorem Settled.get (h : Settled race owner leases stages m) (tracks : race.Tracks k stages m s) :
    ∃ r, Leases.get s.session.dialect s.session.tables race.key = .ok r ∧ leases r.grant := by
  obtain ⟨e, he, hleases⟩ := h.held
  refine ⟨e.on race.key, ?_, hleases⟩
  rw [tracks.holds.get, LeaseMap.get, he]

end End

section Agree

variable {s : Session} {k : Nat} {initial : LeaseMap} {turns : List Turn}

/-- Callers who race for a key that is free, or whose lease has ended, agree on one of them. -/
theorem agree_on_winner (hk : s.managers k = race.manager) (hold : s.tables.Holds initial)
    (untagged : s.tables.selectTag race.key = .error .rowNotFound)
    (callers : ∀ x ∈ turns, ∃ i < race.count, x = .thread i) (anyone : 0 < race.count)
    (ended : ∀ i < race.count, ((race.after s k turns).result? i).isSome = true)
    (free : ∀ e, initial.lookup race.key = some e → e.expiresAt ≤ race.now) :
    ∃ w < race.count,
      (∀ i < race.count, (race.after s k turns).result? i =
        some (.ok (race.status (decide (i = w)) (race.owners w) race.ends))) ∧
      ∃ r, Leases.get (race.after s k turns).session.dialect
        (race.after s k turns).session.tables race.key = .ok r ∧ r.grant = race.grant w := by
  obtain ⟨stages, m, tracks, inv⟩ := (race.tracks_start hk hold untagged).run
    (I := fun stages m => Unsettled race stages m ∨
      ∃ w < race.count, Settled race (race.owners w) (· = race.grant w) stages m)
    (.inl ⟨free, fun _ _ => trivial⟩)
    (by
      rintro stages m i stage m' hi (h | ⟨w, hw, h⟩) move
      · exact (h.move hi move).imp_right fun settled => ⟨i, hi, settled⟩
      · exact .inr ⟨w, hw, h.move (rule_of_winner hw) hi move⟩)
    callers
  rcases inv with unsettled | ⟨w, hw, settled⟩
  · -- the first call has ended, but none has come so far
    obtain ⟨a, hstage, -⟩ := tracks.ended anyone (ended 0 anyone)
    have early := unsettled.early 0 anyone
    rw [hstage] at early
    exact early.elim
  · refine ⟨w, hw, fun i hi => ?_, settled.get tracks⟩
    by_cases hiw : i = w
    · rw [decide_eq_true hiw]
      exact settled.result_of_owner tracks hi (ended i hi) (congrArg race.owners hiw)
    · rw [decide_eq_false hiw]
      obtain ⟨grant, rfl, hresult⟩ := settled.result_of_other (rule_of_winner hw) tracks hi
        (ended i hi) fun same => hiw (race.distinct i hi w hw same)
      exact hresult

/-- Callers who race for a key whose lease has not ended agree on its owner. -/
theorem agree_on_owner (hk : s.managers k = race.manager) (hold : s.tables.Holds initial)
    (untagged : s.tables.selectTag race.key = .error .rowNotFound)
    (callers : ∀ x ∈ turns, ∃ i < race.count, x = .thread i)
    (ended : ∀ i < race.count, ((race.after s k turns).result? i).isSome = true)
    {e : Entry} (he : initial.lookup race.key = some e) (live : race.now < e.expiresAt) :
    (∀ i < race.count,
      (race.owners i = e.owner → (race.after s k turns).result? i =
        some (.ok (race.status true e.owner race.ends))) ∧
      (race.owners i ≠ e.owner → ∃ ends, (ends = e.expiresAt ∨ ends = race.ends) ∧
        (race.after s k turns).result? i =
          some (.ok (race.status false e.owner ends)))) ∧
      ∃ r, Leases.get (race.after s k turns).session.dialect
        (race.after s k turns).session.tables race.key = .ok r ∧ r.owner = e.owner := by
  have rule : Rule race e.owner fun grant => grant.owner = e.owner ∧
      (grant.expiresAt = e.expiresAt ∨ grant.expiresAt = race.ends) := by
    refine ⟨fun grant h => h.1, ?_, fun i _ howner => ⟨howner, .inr rfl⟩⟩
    rintro grant ⟨-, h | h⟩
    · rw [h]
      exact live
    · rw [h]
      exact race.now_lt_ends
  obtain ⟨stages, m, tracks, settled⟩ := (race.tracks_start hk hold untagged).run
    (I := Settled race e.owner fun grant => grant.owner = e.owner ∧
      (grant.expiresAt = e.expiresAt ∨ grant.expiresAt = race.ends))
    ⟨⟨e, he, rfl, .inl rfl⟩, fun _ _ => trivial⟩
    (fun _ _ _ _ _ hi settled move => settled.move rule hi move) callers
  refine ⟨fun i hi => ⟨fun howner => ?_, fun howner => ?_⟩, ?_⟩
  · exact settled.result_of_owner tracks hi (ended i hi) howner
  · obtain ⟨grant, ⟨-, hends⟩, hresult⟩ :=
      settled.result_of_other rule tracks hi (ended i hi) howner
    exact ⟨grant.expiresAt, hends, hresult⟩
  · obtain ⟨r, hr, howner, -⟩ := settled.get tracks
    exact ⟨r, hr, howner⟩

/-- A caller who has had seven turns has been answered, whatever the others do. When all have been
answered, they agree: if the key was free, or its lease had ended, exactly one has the lease and all
others are told of it; if the key had a live lease, its owner has it and all others are told so. The
counters have risen by these answers, and by nothing else. -/
theorem calls_agree (race : Race) (s : Session) (k : Nat) (hk : s.managers k = race.manager)
    (initial : LeaseMap) (hold : s.tables.Holds initial)
    (untagged : s.tables.selectTag race.key = .error .rowNotFound) (turns : List Turn)
    (callers : ∀ x ∈ turns, ∃ i < race.count, x = .thread i) (anyone : 0 < race.count) :
    (∀ i < race.count, 7 ≤ turns.count (.thread i) →
      ((race.after s k turns).result? i).isSome = true) ∧
    ((∀ i < race.count, ((race.after s k turns).result? i).isSome = true) →
      ((∀ e, initial.lookup race.key = some e → e.expiresAt ≤ race.now) →
        ∃ w < race.count,
          (∀ i < race.count, (race.after s k turns).result? i =
            some (.ok (race.status (decide (i = w)) (race.owners w) race.ends))) ∧
          ∃ r, Leases.get (race.after s k turns).session.dialect
            (race.after s k turns).session.tables race.key = .ok r ∧
            r.grant = race.grant w) ∧
      (∀ e, initial.lookup race.key = some e → race.now < e.expiresAt →
        (∀ i < race.count,
          (race.owners i = e.owner → (race.after s k turns).result? i =
            some (.ok (race.status true e.owner race.ends))) ∧
          (race.owners i ≠ e.owner → ∃ ends, (ends = e.expiresAt ∨ ends = race.ends) ∧
            (race.after s k turns).result? i =
              some (.ok (race.status false e.owner ends)))) ∧
        ∃ r, Leases.get (race.after s k turns).session.dialect
          (race.after s k turns).session.tables race.key = .ok r ∧ r.owner = e.owner) ∧
      ((race.after s k turns).session.managers k).counters.acquired =
        race.manager.counters.acquired + ((Finset.range race.count).filter fun i =>
          hasAcquired (race.after s k turns) i = true).card ∧
      ((race.after s k turns).session.managers k).counters.alreadyInProgress =
        race.manager.counters.alreadyInProgress + ((Finset.range race.count).filter fun i =>
          ¬ hasAcquired (race.after s k turns) i = true).card ∧
      ((race.after s k turns).session.managers k).counters.failures =
        race.manager.counters.failures) := by
  refine ⟨fun i _ enough => ?_, fun ended => ⟨fun free => ?_, fun e he live => ?_, ?_⟩⟩
  · have lasts : ((race.start s k).threads i).call.EndsWithin 7 :=
      Operation.call_endsWithin (s.managers k).timing (.reserve (race.claim i))
    exact Traffic.result?_isSome_of_count turns lasts enough
  · exact agree_on_winner hk hold untagged callers anyone ended free
  · exact agree_on_owner hk hold untagged callers ended he live
  · obtain ⟨stages, m, tracks, -⟩ := (race.tracks_start hk hold untagged).run
      (I := fun _ _ => True) trivial (fun _ _ _ _ _ _ _ _ => trivial) callers
    exact tracks.counters ended

/-- Two callers who race for one key. -/
def twoCallers : Race where
  count := 2
  key := ⟨⟨"project", "domain", "name", "version"⟩, "tag"⟩
  owners i := if i = 0 then "first" else "second"
  metadata _ := none
  manager := .startingAt .standard .epoch
  seconds := 15
  ends := (Instant.ofParts? 15 0).getD .epoch
  valid i _ := by
    by_cases h : i = 0
    · rw [if_pos h]
      rfl
    · rw [if_neg h]
      rfl
  distinct := by decide
  ttl := rfl
  positive := by decide
  ends_eq := rfl
  now_storable := by decide
  ends_storable := by decide

/-- The session in which they do so. -/
def closeSession : Session := ⟨.sqlite, .initial, fun _ => twoCallers.manager⟩

/-- Both callers look before either writes, and the second writes first. -/
def closeTurns : List Turn := [0, 0, 0, 1, 1, 1, 1, 0, 0, 0, 1].map .thread

theorem close_race_agrees :
    (∀ i < 2, ((twoCallers.after closeSession 0 closeTurns).result? i).isSome = true) ∧
      ∃ w < 2,
        (∀ i < 2, (twoCallers.after closeSession 0 closeTurns).result? i =
          some (.ok (twoCallers.status (decide (i = w)) (twoCallers.owners w)
            twoCallers.ends))) ∧
        ((twoCallers.after closeSession 0 closeTurns).session.managers 0).counters.failures =
          (0, 0, 0, 0) := by
  have callers : ∀ x ∈ closeTurns, ∃ i < twoCallers.count, x = .thread i := by decide
  have ended : ∀ i < 2,
      ((twoCallers.after closeSession 0 closeTurns).result? i).isSome = true := by decide +kernel
  have agree := (calls_agree twoCallers closeSession 0 rfl ∅ Tables.holds_initial rfl closeTurns
    callers (by decide)).2 ended
  have free : ∀ e, (∅ : LeaseMap).lookup twoCallers.key = some e →
      e.expiresAt ≤ twoCallers.now := by
    intro e he
    rw [Finmap.lookup_empty] at he
    cases he
  obtain ⟨w, hw, results, -⟩ := agree.1 free
  exact ⟨ended, w, hw, results, agree.2.2.2.2⟩

end Agree

end LeaseCatalog.Race
