import LeaseCatalog.Proofs.Effects
import LeaseCatalog.Proofs.Turns

/-!
# No lease is taken from a live owner

Calls of any number of managers run side by side, and between the look that a call takes at a row
and the write that it makes anything may happen. Here the turns of a run are numbered, and what a
call does at its turn is named: it reads a clock, writes a lease, or releases a key.

`InOrder` is what holds whenever a turn comes: the tables hold a map of leases, and what is left of
each call asks only what its operation may ask, and writes only at an instant that the call read
from its clock at an earlier turn. So a lease that is written over another owner's has been written
after that had ended, by the clock of the writer, whatever the writer saw when it looked
(`write_respects_owner`).
-/

namespace LeaseCatalog

/-- Whether a turn leaves leases to the calls under way: it may be a step of one of them, a move of
a clock, the creation of missing tables, or a request that writes no lease. -/
def Turn.leavesLeases : Turn → Bool
  | .thread _ | .step (.move _ _) | .step .initialise => true
  | .step (.ask request) => request.writtenKey?.isNone
  | .step (.serve _ _) => false

namespace Traffic

/-! ## What happens at a turn -/

/-- At turn `n` call `i` takes a step, of which `call` is what is left before it. -/
def StepsAt (start : Traffic) (turns : List Turn) (n i : Nat) (call : Call Reply) : Prop :=
  turns[n]? = some (.thread i) ∧ ((start.before turns n).threads i).call = call

/-- At turn `n` call `i` reads an instant from the clock of its manager. -/
def ReadsAt (start : Traffic) (turns : List Turn) (n i : Nat) (now : Instant) : Prop :=
  (∃ next, start.StepsAt turns n i (.readClock next)) ∧
    ((start.before turns n).session.managers
      ((start.before turns n).threads i).manager).clock.now = now

/-- At turn `n` call `i` asks to write a lease at an instant, and the store does so. -/
def WritesAt (start : Traffic) (turns : List Turn) (n i : Nat) (r : Reservation) (now : Instant) :
    Prop :=
  (∃ next, start.StepsAt turns n i (.ask (.createOrUpdate r now) next)) ∧
    ∃ t, Leases.createOrUpdate (start.before turns n).session.dialect
      (start.before turns n).session.tables r now = .ok t

/-- At turn `n` call `i` asks to remove the reservation of a key, and the store does so. -/
def ReleasesAt (start : Traffic) (turns : List Turn) (n i : Nat) (key : Key) : Prop :=
  (∃ next, start.StepsAt turns n i (.ask (.delete key) next)) ∧
    ∃ t, Leases.delete (start.before turns n).session.dialect
      (start.before turns n).session.tables key = .ok t

/-! ## What holds whenever a turn comes -/

/-- A step of a call leaves tables that hold a map of leases. -/
theorem stepThread_holds {s : Traffic} {m : LeaseMap} (h : s.session.tables.Holds m) (i : Nat) :
    ∃ m', (s.stepThread i).session.tables.Holds m' := by
  cases hc : (s.threads i).call with
  | done result =>
    rw [stepThread_done hc]
    exact ⟨m, h⟩
  | readClock next =>
    rw [stepThread_readClock hc]
    exact ⟨m, h⟩
  | record event next =>
    rw [stepThread_record hc]
    exact ⟨m, h⟩
  | ask request next =>
    rw [stepThread_ask hc]
    obtain ⟨m', hm', -⟩ := h.perform_frame s.session.dialect request
    exact ⟨m', hm'⟩

section InOrder

variable {s : Session} {operations : Nat → Nat × Operation} {turns : List Turn}

/-- When turn `n` comes, what is left of call `i` asks what its operation may ask, and knows no
instant but what it has read. -/
def Knows (s : Session) (operations : Nat → Nat × Operation) (turns : List Turn) (n i : Nat)
    (call : Call Reply) : Prop :=
  ∃ reading,
    call.Obeys ((operations i).2.MayAsk (s.managers (operations i).1).timing) reading ∧
    ∀ t, reading = some t → ∃ k < n, (start s operations).ReadsAt turns k i t

/-- What a call has read stays read. -/
theorem Knows.succ {n i : Nat} {call : Call Reply} (h : Knows s operations turns n i call) :
    Knows s operations turns (n + 1) i call := by
  obtain ⟨reading, obeys, hread⟩ := h
  refine ⟨reading, obeys, fun t ht => ?_⟩
  obtain ⟨k, hk, hreads⟩ := hread t ht
  exact ⟨k, Nat.lt_succ_of_lt hk, hreads⟩

/-- What holds of the traffic when turn `n` comes. -/
structure InOrder (s : Session) (operations : Nat → Nat × Operation) (turns : List Turn) (n : Nat)
    (now : Traffic) : Prop where
  /-- The tables hold a map of leases. -/
  tables : ∃ m, now.session.tables.Holds m
  /-- Each call knows what it has read. -/
  calls : ∀ i, Knows s operations turns n i (now.threads i).call

theorem inOrder_start (hs : s.tables = .initial) :
    InOrder s operations turns 0 (start s operations) where
  tables := ⟨∅, hs ▸ Tables.holds_initial⟩
  calls i := ⟨none, (operations i).2.call_obeys _, fun _ h => nomatch h⟩

/-- What is left of a call after its step. -/
theorem InOrder.knows_stepThread {n i : Nat} (hi : turns[n]? = some (.thread i))
    (h : InOrder s operations turns n ((start s operations).before turns n)) :
    Knows s operations turns (n + 1) i
      ((((start s operations).before turns n).stepThread i).threads i).call := by
  obtain ⟨reading, obeys, hread⟩ := (h.calls i).succ
  cases hc : (((start s operations).before turns n).threads i).call with
  | done result =>
    rw [stepThread_done hc]
    exact (h.calls i).succ
  | readClock next =>
    -- this turn is the one at which the call reads what it then knows
    rw [hc] at obeys
    rw [stepThread_readClock hc, advance_call_self]
    refine ⟨_, obeys _, fun t ht => ⟨n, Nat.lt_succ_self n, ?_⟩⟩
    exact ⟨⟨next, hi, hc⟩, Option.some.inj ht⟩
  | record event next =>
    rw [hc] at obeys
    rw [stepThread_record hc]
    change Knows _ _ _ _ _ ((advance _ i next).threads i).call
    rw [advance_call_self]
    exact ⟨reading, obeys, hread⟩
  | ask request next =>
    rw [hc] at obeys
    rw [stepThread_ask hc]
    change Knows _ _ _ _ _ ((advance _ i (next _)).threads i).call
    rw [advance_call_self]
    exact ⟨reading, obeys.2 _, hread⟩

theorem InOrder.stepThread {n i : Nat} (hi : turns[n]? = some (.thread i))
    (h : InOrder s operations turns n ((start s operations).before turns n)) :
    InOrder s operations turns (n + 1)
      (((start s operations).before turns n).stepThread i) where
  tables := by
    obtain ⟨m, hm⟩ := h.tables
    exact stepThread_holds hm i
  calls j := by
    by_cases hj : j = i
    · rw [hj]
      exact h.knows_stepThread hi
    · rw [stepThread_threads_of_ne hj]
      exact (h.calls j).succ

/-- Whenever a turn comes, everything is in order. -/
theorem inOrder_before (hs : s.tables = .initial) :
    ∀ n ≤ turns.length,
      InOrder s operations turns n ((start s operations).before turns n) := by
  refine before_induction (inOrder_start hs) ?_
  intro n x hx h
  cases x with
  | thread i => exact h.stepThread hx
  | step x =>
    obtain ⟨m, hm⟩ := h.tables
    exact ⟨hm.step x, fun j => (h.calls j).succ⟩

end InOrder

/-! ## Writes -/

section Writes

variable {s : Session} {operations : Nat → Nat × Operation} {turns : List Turn}

theorem StepsAt.lt {start : Traffic} {n i : Nat} {call : Call Reply}
    (h : start.StepsAt turns n i call) : n < turns.length :=
  (List.getElem?_eq_some_iff.mp h.1).1

/-- A lease is written only for a claim, and only at an instant that the call has read. -/
theorem WritesAt.of_claim (hs : s.tables = .initial) {n i : Nat} {r : Reservation} {now : Instant}
    (h : (start s operations).WritesAt turns n i r now) :
    (∃ c, (operations i).2.claim? = some c ∧
      c.lease? (s.managers (operations i).1).timing now = .ok r) ∧
    ∃ k < n, (start s operations).ReadsAt turns k i now := by
  obtain ⟨⟨next, hstep⟩, -⟩ := h
  obtain ⟨reading, obeys, hread⟩ := (inOrder_before hs n (Nat.le_of_lt hstep.lt)).calls i
  rw [hstep.2] at obeys
  obtain ⟨⟨hnow, hclaim⟩, -⟩ := obeys
  exact ⟨hclaim, hread now hnow⟩

theorem ReadsAt.kept {start : Traffic} {n i : Nat} {now : Instant}
    (h : start.ReadsAt turns n i now) : now.kept = now := by
  obtain ⟨-, rfl⟩ := h
  exact ManualClock.kept_now _

/-- A key is removed only for a caller who releases it. -/
theorem ReleasesAt.of_release (hs : s.tables = .initial) {n i : Nat} {key : Key}
    (h : (start s operations).ReleasesAt turns n i key) : (operations i).2 = .release key := by
  obtain ⟨⟨next, hstep⟩, -⟩ := h
  obtain ⟨reading, obeys, -⟩ := (inOrder_before hs n (Nat.le_of_lt hstep.lt)).calls i
  rw [hstep.2] at obeys
  exact obeys.1

/-- What is known of the row of a key whose lease has an owner and an expiry. -/
def HeldBy (t : Tables) (key : Key) (owner : String) (ends : Instant) : Prop :=
  ∃ row, t.selectReservation key = .ok row ∧ row.owner = owner ∧
    Timestamp.decode row.expiresAt = .ok ends

/-- The row of a lease says when the lease ends. -/
theorem decode_of_selectReservation {t : Tables} {m : LeaseMap} (hold : t.Holds m) {key : Key}
    {e : Entry} (he : m.lookup key = some e) :
    t.selectReservation key = .ok (e.row key) ∧
      Timestamp.decode (e.row key).expiresAt = .ok e.expiresAt := by
  rw [hold.selectReservation key, he]
  have whole := hold.whole he
  exact ⟨rfl, (Timestamp.decode_text whole.expiresAt_storable).trans
    (congrArg Except.ok whole.expiresAt_kept)⟩

/-- A lease of another owner that is written over has ended. -/
theorem WritesAt.ended (hs : s.tables = .initial) {n i : Nat} {r : Reservation} {now : Instant}
    (h : (start s operations).WritesAt turns n i r now) {row : ReservationRow}
    (hrow : ((start s operations).before turns n).session.tables.selectReservation r.key = .ok row)
    (hother : row.owner ≠ r.owner) :
    ∃ ends, Timestamp.decode row.expiresAt = .ok ends ∧ ends ≤ now := by
  obtain ⟨-, k, -, read⟩ := h.of_claim hs
  obtain ⟨⟨next, hstep⟩, t, hwrite⟩ := h
  obtain ⟨m, hold⟩ := (inOrder_before hs n (Nat.le_of_lt hstep.lt)).tables
  obtain ⟨claimable, -⟩ := hold.createOrUpdate_ok hwrite
  rw [Instant.shown_of_kept read.kept] at claimable
  cases he : m.lookup r.key with
  | none =>
    rw [hold.selectReservation, he] at hrow
    cases hrow
  | some e =>
    obtain ⟨hselect, hdecode⟩ := decode_of_selectReservation hold he
    rw [hselect] at hrow
    cases hrow
    refine ⟨e.expiresAt, hdecode, ?_⟩
    exact (Reservation.isClaimableBy_iff.mp (claimable e he)).resolve_right hother

/-- After a write the row of the key is the writer's. -/
theorem WritesAt.heldBy_succ (hs : s.tables = .initial) {n i : Nat} {r : Reservation}
    {now : Instant} (h : (start s operations).WritesAt turns n i r now) :
    HeldBy ((start s operations).before turns (n + 1)).session.tables r.key r.owner
      r.expiresAt := by
  obtain ⟨⟨c, -, lease⟩, k, -, read⟩ := h.of_claim hs
  obtain ⟨⟨next, hstep⟩, t, hwrite⟩ := h
  obtain ⟨m, hold⟩ := (inOrder_before hs n (Nat.le_of_lt hstep.lt)).tables
  obtain ⟨-, e, hold', hgrant⟩ := hold.createOrUpdate_ok hwrite
  obtain ⟨howner, hends, -⟩ := (Grant.mk.injEq ..).mp hgrant
  obtain ⟨hselect, hdecode⟩ := decode_of_selectReservation hold' (Finmap.lookup_insert _)
  rw [before_succ hstep.1]
  change HeldBy (stepThread _ i).session.tables _ _ _
  rw [stepThread_ask hstep.2]
  change HeldBy (Request.changing _ (Leases.createOrUpdate _ _ r now)).2 _ _ _
  rw [hwrite]
  exact ⟨_, hselect, howner, (hends.trans (Claim.kept_expiresAt lease read.kept)) ▸ hdecode⟩

/-- A turn at which a key is neither written nor released leaves its row. -/
theorem selectReservation_before_succ (hs : s.tables = .initial) {n : Nat} {x : Turn}
    (hx : turns[n]? = some x) (leaves : x.leavesLeases = true) {key : Key}
    (unwritten : ∀ i r now, (start s operations).WritesAt turns n i r now → r.key ≠ key)
    (unreleased : ∀ i, ¬ (start s operations).ReleasesAt turns n i key) :
    ((start s operations).before turns (n + 1)).session.tables.selectReservation key =
      ((start s operations).before turns n).session.tables.selectReservation key := by
  have hn : n ≤ turns.length := Nat.le_of_lt (List.getElem?_eq_some_iff.mp hx).1
  have order : InOrder s operations turns n _ := inOrder_before hs n hn
  obtain ⟨m, hold⟩ := order.tables
  -- a request that is not about the lease of the key
  have frame : ∀ request : Request, request.writtenKey? ≠ some key →
      (request.perform ((start s operations).before turns n).session.dialect
        ((start s operations).before turns n).session.tables).2.selectReservation key =
      ((start s operations).before turns n).session.tables.selectReservation key := by
    intro request hr
    obtain ⟨m', hold', hlookup⟩ := hold.perform_frame _ request
    exact hold.selectReservation_congr hold' (hlookup key hr)
  rw [before_succ hx]
  cases x with
  | step x =>
    cases x with
    | serve => cases leaves
    | ask request =>
      refine frame request fun hr => ?_
      change request.writtenKey?.isNone = true at leaves
      rw [hr] at leaves
      cases leaves
    | move => rfl
    | initialise => exact hold.selectReservation_congr hold.create_tables rfl
  | thread i =>
    change (stepThread _ i).session.tables.selectReservation key = _
    cases hc : (((start s operations).before turns n).threads i).call with
    | done result => rw [stepThread_done hc]
    | readClock next => rw [stepThread_readClock hc, advance_session]
    | record event next =>
      rw [stepThread_record hc]
      rfl
    | ask request next =>
      obtain ⟨reading, obeys, -⟩ := order.calls i
      rw [hc] at obeys
      have may := obeys.1
      rw [stepThread_ask hc]
      cases request with
      | getTag => exact frame _ nofun
      | get => exact frame _ nofun
      | createOrUpdate r now =>
        cases hwrite : Leases.createOrUpdate ((start s operations).before turns n).session.dialect
            ((start s operations).before turns n).session.tables r now with
        | ok t =>
          refine frame _ fun hr => ?_
          exact unwritten i r now ⟨⟨next, hx, hc⟩, t, hwrite⟩ (Option.some.inj hr)
        | error e =>
          change (Request.changing _ (Leases.createOrUpdate _ _ r now)).2.selectReservation key = _
          rw [hwrite]
          rfl
      | delete released =>
        refine frame _ fun hr => ?_
        cases hr
        obtain ⟨t, hdelete, -⟩ :=
          hold.delete ((start s operations).before turns n).session.dialect key
        exact unreleased i ⟨⟨next, hx, hc⟩, t, hdelete⟩
      | createArtifact => exact may.elim
      | addTag => exact may.elim
      | create => exact may.elim
      | update => exact may.elim

/-- A lease stays as it was written while its key is neither written nor released. -/
theorem WritesAt.heldBy (hs : s.tables = .initial) (leaves : ∀ x ∈ turns, x.leavesLeases = true)
    {m n i : Nat} {r : Reservation} {now : Instant} (hmn : m < n) (hn : n ≤ turns.length)
    (h : (start s operations).WritesAt turns m i r now)
    (unwritten : ∀ l j q t, m < l → l < n → (start s operations).WritesAt turns l j q t →
      q.key ≠ r.key)
    (unreleased : ∀ l j, m < l → l < n → ¬ (start s operations).ReleasesAt turns l j r.key) :
    HeldBy ((start s operations).before turns n).session.tables r.key r.owner r.expiresAt := by
  -- on the turns after the write, of which none changes the row
  induction n, hmn using Nat.le_induction with
  | base => exact h.heldBy_succ hs
  | succ n hmn ih =>
    have hx : turns[n]? = some turns[n] := List.getElem?_eq_getElem hn
    obtain ⟨row, hrow, hheld⟩ := ih (Nat.le_of_succ_le hn)
      (fun l j q t hl hln => unwritten l j q t hl (Nat.lt_succ_of_lt hln))
      (fun l j hl hln => unreleased l j hl (Nat.lt_succ_of_lt hln))
    refine ⟨row, ?_, hheld⟩
    rw [← hrow]
    exact selectReservation_before_succ hs hx (leaves _ (List.getElem_mem hn))
      (fun j q t => unwritten n j q t hmn (Nat.lt_succ_self n))
      (fun j => unreleased n j hmn (Nat.lt_succ_self n))

end Writes

/-- Whoever writes a lease claims it at an instant that the call read from the clock of its manager
at an earlier turn, and a row of another owner that is written over says that its lease has ended by
then. So of two writes on one key by different owners, one after the other, either the key was
released between them, or the second was made at or after the end of the lease that the first had
written, and which the row then still held. -/
theorem write_respects_owner (s : Session) (operations : Nat → Nat × Operation)
    (turns : List Turn) (hs : s.tables = .initial) :
    (∀ n i r now, (start s operations).WritesAt turns n i r now →
      (∃ c, (operations i).2.claim? = some c ∧
        c.lease? (s.managers (operations i).1).timing now = .ok r) ∧
      (∃ k < n, (start s operations).ReadsAt turns k i now) ∧
      ∀ row,
        ((start s operations).before turns n).session.tables.selectReservation r.key = .ok row →
        row.owner ≠ r.owner →
        ∃ ends, Timestamp.decode row.expiresAt = .ok ends ∧ ends ≤ now) ∧
    ((∀ x ∈ turns, x.leavesLeases = true) →
      ∀ m n i j first second now later, m < n →
      (start s operations).WritesAt turns m i first now →
      (start s operations).WritesAt turns n j second later →
      second.key = first.key → second.owner ≠ first.owner →
      (∀ l k r t, m < l → l < n → (start s operations).WritesAt turns l k r t →
        r.key ≠ first.key) →
      (∃ l k, m < l ∧ l < n ∧ (start s operations).ReleasesAt turns l k first.key ∧
        (operations k).2 = .release first.key) ∨
      HeldBy ((start s operations).before turns n).session.tables first.key first.owner
          first.expiresAt.truncate ∧
        first.expiresAt.truncate ≤ later) := by
  refine ⟨?_, ?_⟩
  · intro n i r now h
    obtain ⟨hclaim, hread⟩ := h.of_claim hs
    exact ⟨hclaim, hread, fun row hrow hother => h.ended hs hrow hother⟩
  · intro leaves m n i j first second now later hmn hfirst hsecond hkey howner unwritten
    by_cases released : ∃ l k, m < l ∧ l < n ∧ (start s operations).ReleasesAt turns l k first.key
    · obtain ⟨l, k, hml, hln, hrelease⟩ := released
      exact .inl ⟨l, k, hml, hln, hrelease, hrelease.of_release hs⟩
    · right
      obtain ⟨⟨c, -, lease⟩, k, -, read⟩ := hfirst.of_claim hs
      rw [(Instant.kept_eq_iff.mp (Claim.kept_expiresAt lease read.kept)).2]
      obtain ⟨⟨next, hstep⟩, -⟩ := id hsecond
      obtain ⟨row, hrow, hheld, hdecode⟩ := hfirst.heldBy hs leaves hmn (Nat.le_of_lt hstep.lt)
        unwritten fun l k hl hln hrelease => released ⟨l, k, hl, hln, hrelease⟩
      refine ⟨⟨row, hrow, hheld, hdecode⟩, ?_⟩
      rw [← hkey] at hrow
      obtain ⟨ends, hends, hle⟩ := hsecond.ended hs hrow fun h => howner (h.symm.trans hheld)
      rw [hdecode] at hends
      cases hends
      exact hle

/-- Two managers, the clock of the second of which is 20 seconds ahead. -/
def skewedSession : Session where
  dialect := .sqlite
  tables := .initial
  managers i := ⟨.standard, ⟨20000000 * min i 1⟩, .zero⟩

/-- Each manager is asked for a lease on one key, by a caller of its own. -/
def skewedOperations (i : Nat) : Nat × Operation :=
  (i, .reserve ⟨⟨⟨"project", "domain", "name", "version"⟩, "tag"⟩,
    if i = 0 then "first" else "second", none⟩)

/-- The second caller finds the key free, then the first takes the lease, then the second writes. -/
def staleTurns : List Turn := [1, 1, 1, 0, 0, 0, 0, 1].map .thread

theorem write_after_stale_look :
    ∃ first second now later,
      (start skewedSession skewedOperations).WritesAt staleTurns 6 0 first now ∧
      (start skewedSession skewedOperations).WritesAt staleTurns 7 1 second later ∧
      second.owner ≠ first.owner ∧ first.expiresAt.truncate ≤ later := by
  have hs : skewedSession.tables = .initial := rfl
  have leaves : ∀ x ∈ staleTurns, x.leavesLeases = true := by decide
  have first : (start skewedSession skewedOperations).WritesAt staleTurns 6 0 _ _ :=
    ⟨⟨_, rfl, rfl⟩, _, rfl⟩
  have second : (start skewedSession skewedOperations).WritesAt staleTurns 7 1 _ _ :=
    ⟨⟨_, rfl, rfl⟩, _, rfl⟩
  refine ⟨_, _, _, _, first, second, by decide, ?_⟩
  have respects := write_respects_owner skewedSession skewedOperations staleTurns hs
  rcases respects.2 leaves 6 7 0 1 _ _ _ _ (by decide) first second rfl (by decide) (by omega)
    with ⟨l, k, hl, hl', -⟩ | ⟨-, h⟩
  · omega
  · exact h

end Traffic

end LeaseCatalog
