import LeaseCatalog.Proofs.Observations

/-!
# What callers are told is true

A call that contends for a lease puts its reply together from what it was told at up to three
moments, while others write, release and take over. Still every reply tells of something that was
there. `Claim.RestsOn` says what of all that a call saw makes it tell of an attempt: the write that
the store accepted, a row that it was shown, or a refused write after which it was shown no row.
That each reply of a call rests on such a thing is a fact about the call alone
(`Operation.call_accounts`), by way of what is left of it after each step. In a traffic it turns into
one about the rows at the turns at which the call asked (`Traffic.replies_rest_on_rows`).
-/

namespace LeaseCatalog

/-- What the caller of an operation that contends for a lease is told of an attempt. -/
def Operation.told? (timing : LeaseTiming) (a : Attempt) : Operation → Option Reply
  | .reserve _ => some (.reserved (.status (a.status timing)))
  | .extend _ => some (.extended (a.holder.toLease timing))
  | .release _ | .get _ => none

theorem foundOrNone_eq_some {β : Type} {answer : Except Error β} {b : β}
    (h : foundOrNone answer = .ok (some b)) : answer = .ok b := by
  cases answer with
  | ok found =>
    cases h
    rfl
  | error e =>
    unfold foundOrNone at h
    dsimp only at h
    split_ifs at h
    cases h

theorem foundOrNone_eq_none {β : Type} {answer : Except Error β}
    (h : foundOrNone answer = .ok none) : ∃ e, answer = .error e ∧ e.isNotFound = true := by
  cases answer with
  | ok found => cases h
  | error e =>
    unfold foundOrNone at h
    dsimp only at h
    split_ifs at h with notFound
    exact ⟨e, rfl, notFound⟩

/-! ## What a reply rests on -/

/-- The store has not told the call that it wrote a lease. -/
def Unwritten (seen : List Observation) : Prop :=
  ∀ r now, .answer (.createOrUpdate r now) (.ok ()) ∉ seen

theorem Unwritten.append {seen : List Observation} {o : Observation} (h : Unwritten seen)
    (ho : ∀ r now, o ≠ .answer (.createOrUpdate r now) (.ok ())) : Unwritten (seen ++ [o]) := by
  intro r now hmem
  rw [List.mem_append, List.mem_singleton] at hmem
  rcases hmem with hmem | rfl
  · exact h r now hmem
  · exact ho r now rfl

/-- What a call that contends for a lease has seen, if it tells of an attempt. -/
inductive Claim.RestsOn (c : Claim) (timing : LeaseTiming) (seen : List Observation) :
    Attempt → Prop where
  /-- The store accepted its write. -/
  | won {now : Instant} {r : Reservation} (lease : c.lease? timing now = .ok r)
      (accepted : .answer (.createOrUpdate r now) (.ok ()) ∈ seen) : RestsOn c timing seen ⟨true, r⟩
  /-- The store showed it a lease. -/
  | held {r : Reservation} (shown : .answer (.get c.key) (.ok r) ∈ seen) :
      RestsOn c timing seen ⟨false, r⟩
  /-- The store refused its write, and then had nothing to show. -/
  | vanished {now : Instant} {r : Reservation} {e e' : Error} (lease : c.lease? timing now = .ok r)
      (conflict : e.isLeaseConflict = true) (notFound : e'.isNotFound = true)
      (asked : [.answer (.createOrUpdate r now) (.error e),
        .answer (.get c.key) (.error e')].Sublist seen) :
      RestsOn c timing seen ⟨false, .taken c.key "" now now none⟩

namespace Call

variable {α : Type}

/-- What holds when contending for a lease has come to an end: a call that wrote a lease tells of it,
and what a call tells of rests on what it has seen. -/
structure Contended (c : Claim) (timing : LeaseTiming) (give : Attempt → α)
    (seen : List Observation) (result : Except Error α) : Prop where
  /-- A call that wrote a lease has acquired it. -/
  wrote : ∀ r now, .answer (.createOrUpdate r now) (.ok ()) ∈ seen → result = .ok (give ⟨true, r⟩)
  /-- What the call tells of rests on what it has seen. -/
  told : ∀ x, result = .ok x → ∃ a, x = give a ∧ c.RestsOn timing seen a

section Contended

variable {c : Claim} {timing : LeaseTiming} {give : Attempt → α} {seen : List Observation}

/-- A call that has not written is at its end if what it tells of rests on what it has seen. -/
theorem Contended.of_unwritten {result : Except Error α} (unwritten : Unwritten seen)
    (told : ∀ x, result = .ok x → ∃ a, x = give a ∧ c.RestsOn timing seen a) :
    Contended c timing give seen result where
  wrote r now h := absurd h (unwritten r now)
  told := told

theorem failed_contended (unwritten : Unwritten seen) (event : Event) (e : Error) :
    (failed event e : Call α).Ensures (Contended c timing give) seen := by
  have counted : Unwritten (seen ++ [.counting event]) := unwritten.append fun _ _ h => nomatch h
  refine Contended.of_unwritten counted ?_
  intro x hx
  cases hx

theorem reportWinner_contended {now : Instant} {r : Reservation} {e : Error}
    (unwritten : Unwritten seen) (lease : c.lease? timing now = .ok r)
    (conflict : e.isLeaseConflict = true)
    (refused : .answer (.createOrUpdate r now) (.error e) ∈ seen) (failure : Event) :
    (reportWinner c.key now failure give).Ensures (Contended c timing give) seen := by
  rw [reportWinner_eq]
  intro answer
  have counted : Unwritten (seen ++ [.counting .alreadyInProgress]) :=
    unwritten.append fun _ _ h => nomatch h
  have unwritten : Unwritten
      (seen ++ [.counting .alreadyInProgress] ++ [.answer (.get c.key) answer]) :=
    counted.append fun _ _ h => nomatch h
  cases found : foundOrNone answer with
  | error e' =>
    unfold reported
    rw [found]
    exact failed_contended unwritten failure e'
  | ok shown =>
    cases shown with
    | some winner =>
      rw [reported_some found]
      refine Contended.of_unwritten unwritten ?_
      intro x hx
      cases hx
      have shown : answer = .ok winner := foundOrNone_eq_some found
      exact ⟨_, rfl, .held (by simp [shown])⟩
    | none =>
      rw [reported_none found]
      refine Contended.of_unwritten unwritten ?_
      intro x hx
      cases hx
      obtain ⟨e', rfl, notFound⟩ := foundOrNone_eq_none found
      refine ⟨_, rfl, .vanished lease conflict notFound ?_⟩
      -- the refused write was seen before the call asked again
      have before : [.answer (.createOrUpdate r now) (.error e)].Sublist
          (seen ++ [.counting .alreadyInProgress]) :=
        List.singleton_sublist.mpr (List.mem_append_left _ refused)
      exact before.append (.refl _)

theorem write_contended {now : Instant} (unwritten : Unwritten seen) (free : Bool)
    (failure : Event) :
    (write c timing now free failure give).Ensures (Contended c timing give) seen := by
  cases lease : c.lease? timing now with
  | error e =>
    unfold write
    rw [lease]
    exact failed_contended unwritten failure e
  | ok r =>
    rw [write_eq lease]
    intro answer
    cases answer with
    | ok value =>
      cases value
      rw [written_ok]
      constructor
      · intro r' now' hmem
        simp only [List.mem_append, List.mem_singleton] at hmem
        rcases hmem with (hmem | hmem) | hmem
        · exact absurd hmem (unwritten r' now')
        · cases hmem
          rfl
        · cases hmem
      · intro x hx
        cases hx
        exact ⟨_, rfl, .won lease (by simp)⟩
    | error e =>
      have refused : Unwritten (seen ++ [.answer (.createOrUpdate r now) (.error e)]) :=
        unwritten.append fun _ _ h => nomatch h
      unfold written
      dsimp only
      split
      · rename_i conflict
        exact reportWinner_contended refused lease conflict (by simp) failure
      · exact failed_contended refused failure e

/-- However contending comes to an end, the call tells of what it has seen. -/
theorem contend_contended (unwritten : Unwritten seen) (failure : Event) :
    (contend c timing failure give).Ensures (Contended c timing give) seen := by
  rw [contend_eq]
  intro now answer
  have read : Unwritten (seen ++ [.reading now]) := unwritten.append fun _ _ h => nomatch h
  have unwritten : Unwritten (seen ++ [.reading now] ++ [.answer (.get c.key) answer]) :=
    read.append fun _ _ h => nomatch h
  cases found : foundOrNone answer with
  | error e =>
    unfold looked
    rw [found]
    exact failed_contended unwritten failure e
  | ok shown =>
    cases shown with
    | none =>
      rw [looked_none found]
      exact write_contended unwritten true failure
    | some current =>
      by_cases claimable : current.isClaimableBy c.owner now = true
      · rw [looked_claimable found claimable]
        exact write_contended unwritten false failure
      · rw [looked_live found claimable]
        have shown : answer = .ok current := foundOrNone_eq_some found
        refine Contended.of_unwritten (unwritten.append fun _ _ h => nomatch h) ?_
        intro x hx
        cases hx
        exact ⟨_, rfl, .held (by simp [shown])⟩

end Contended

end Call

/-- What holds when a call that contends for a lease has come to an end. -/
structure Operation.Accounts (operation : Operation) (c : Claim) (timing : LeaseTiming)
    (seen : List Observation) (result : Except Error Reply) : Prop where
  /-- A call that wrote a lease tells that it has acquired it. -/
  wrote : ∀ r now, .answer (.createOrUpdate r now) (.ok ()) ∈ seen →
    ∃ reply, result = .ok reply ∧ operation.told? timing ⟨true, r⟩ = some reply
  /-- What the call tells rests on what it has seen. -/
  told : ∀ reply, result = .ok reply →
    (∃ artifact, reply = .reserved (.artifact artifact)) ∨
      ∃ a, operation.told? timing a = some reply ∧ c.RestsOn timing seen a

section Accounts

variable {operation : Operation} {c : Claim} {timing : LeaseTiming} {seen : List Observation}

/-- What accounts for the end of contending accounts for the reply that is made of it. -/
theorem Call.Contended.accounts {give : Attempt → Reply} {result : Except Error Reply}
    (h : Contended c timing give seen result)
    (hgive : ∀ a, operation.told? timing a = some (give a)) :
    operation.Accounts c timing seen result := by
  constructor
  · intro r now hmem
    exact ⟨_, h.wrote r now hmem, hgive _⟩
  · intro reply hreply
    obtain ⟨a, rfl, rests⟩ := h.told reply hreply
    exact .inr ⟨a, hgive a, rests⟩

theorem Operation.accounts_of_error (unwritten : Unwritten seen) (e : Error) :
    operation.Accounts c timing seen (.error e) := by
  constructor
  · intro r now hmem
    exact absurd hmem (unwritten r now)
  · intro reply hreply
    cases hreply

theorem Operation.accounts_of_artifact (unwritten : Unwritten seen) (artifact : Artifact) :
    operation.Accounts c timing seen (.ok (.reserved (.artifact artifact))) := by
  constructor
  · intro r now hmem
    exact absurd hmem (unwritten r now)
  · intro reply hreply
    cases hreply
    exact .inl ⟨artifact, rfl⟩

/-- However a call that contends for a lease comes to an end, it tells of what it has seen. -/
theorem Operation.call_accounts (timing : LeaseTiming) (hc : operation.claim? = some c) :
    (operation.call timing).Ensures (operation.Accounts c timing) [] := by
  have nothing : Unwritten [] := by simp [Unwritten]
  cases hv : operation.validate with
  | error e =>
    rw [call_of_invalid hv]
    exact accounts_of_error nothing e
  | ok =>
    cases operation with
    | reserve c' =>
      cases hc
      change (Call.reserve timing c Reply.reserved).Ensures _ []
      rw [Call.reserve_eq timing _ hv]
      intro answer
      have asked : Unwritten ([] ++ [.answer (.getTag c.key) answer]) :=
        nothing.append fun _ _ h => nomatch h
      unfold Call.tagLooked
      split
      · exact accounts_of_artifact asked _
      · refine Call.Ensures.mono ?_ (Call.contend_contended asked .acquireFailed)
        intro seen result contended
        exact contended.accounts fun a => rfl
      · rename_i e _
        have counted : Unwritten
            ([] ++ [.answer (.getTag c.key) answer] ++ [.counting .tagLookupFailed]) :=
          asked.append fun _ _ h => nomatch h
        exact accounts_of_error counted e
    | extend c' =>
      cases hc
      change (Call.extend timing c Reply.extended).Ensures _ []
      rw [Call.extend_eq timing _ hv]
      refine Call.Ensures.mono ?_ (Call.contend_contended nothing .extendFailed)
      intro seen result contended
      exact contended.accounts fun a => rfl
    | release => cases hc
    | get => cases hc

end Accounts

/-! ## Rows with owners -/

/-- Tables in which every reservation has an owner. -/
def Tables.Named (t : Tables) : Prop := ∀ key row, t.row? key = some row → row.owner ≠ ""

theorem Tables.named_initial : Tables.initial.Named := fun _ _ h => nomatch h

/-- A blank name is none. -/
theorem ne_empty_of_validateOwner {owner : String} (h : validateOwner owner = .ok ()) :
    owner ≠ "" := by
  rintro rfl
  cases h

namespace Traffic

variable {s : Session} {operations : Nat → Nat × Operation} {turns : List Turn} {n i : Nat}

/-- What a call writes is the lease of its claim at an instant that it has read. -/
theorem WritesAt.claimed {r : Reservation} {now : Instant}
    (h : (start s operations).WritesAt turns n i r now) :
    (∃ c, (operations i).2.claim? = some c ∧ c.validate = .ok () ∧
      c.lease? (s.managers (operations i).1).timing now = .ok r) ∧
    ∃ k < n, (start s operations).ReadsAt turns k i now := by
  obtain ⟨⟨next, hstep⟩, -⟩ := h
  obtain ⟨reading, ⟨hreading, c, hc, lease⟩, hread⟩ := hstep.mayAsk
  refine ⟨⟨c, hc, ?_, lease⟩, hread now hreading⟩
  rw [← Operation.validate_of_claim? hc]
  exact hstep.valid

/-- Rows can hold the instants of what is written. -/
theorem WritesAt.storable {r : Reservation} {now : Instant}
    (h : (start s operations).WritesAt turns n i r now) :
    r.expiresAt.Storable ∧ now.Storable := by
  obtain ⟨-, t, hwrite⟩ := h
  have storable := (Leases.createOrUpdate_eq_ok hwrite).1
  exact ⟨storable _ (by simp), storable _ (by simp)⟩

theorem ReadsAt.nanos_lt {now : Instant} {start : Traffic} (h : start.ReadsAt turns n i now) :
    now.nanos < 1000000000 := by
  obtain ⟨-, rfl⟩ := h
  exact ManualClock.nanos_now_lt _

/-- Rows keep the end of a lease in full. -/
theorem WritesAt.expiresAt_kept {r : Reservation} {now : Instant}
    (h : (start s operations).WritesAt turns n i r now) : r.expiresAt.kept = r.expiresAt := by
  obtain ⟨⟨c, -, -, lease⟩, k, -, read⟩ := h.claimed
  exact Claim.kept_expiresAt lease read.kept

/-- After a write the row of the key is that of the lease. -/
theorem WritesAt.stored {r : Reservation} {now : Instant}
    (h : (start s operations).WritesAt turns n i r now) :
    HeldBy ((start s operations).before turns (n + 1)).session.tables r.key r.owner
      r.expiresAt := by
  obtain ⟨storable, -⟩ := h.storable
  obtain ⟨row, hrow, howner, hexpires, -⟩ := h.row?_succ
  refine ⟨row, Tables.selectReservation_eq_ok_iff.mpr hrow, howner, ?_⟩
  rw [hexpires]
  exact (Timestamp.decode_text storable).trans (congrArg Except.ok h.expiresAt_kept)

/-- What a call is shown is the row of the key. -/
theorem ObservesAt.heldBy {key : Key} {r : Reservation}
    (h : (start s operations).ObservesAt turns n i (.answer (.get key) (.ok r))) :
    HeldBy ((start s operations).before turns n).session.tables key r.owner r.expiresAt := by
  obtain ⟨-, shown⟩ := h.asks
  obtain ⟨row, hrow, howner, hexpires⟩ := Leases.get_eq_ok shown
  exact ⟨row, Tables.selectReservation_eq_ok_iff.mpr hrow, howner, hexpires⟩

/-- While calls alone write leases, every reservation has an owner. -/
theorem named_before (leaves : ∀ x ∈ turns, x.leavesLeases = true) (named : s.tables.Named) :
    ∀ n ≤ turns.length, ((start s operations).before turns n).session.tables.Named := by
  refine rows_induction leaves named ?_
  intro n i r now hwrite row hrow
  obtain ⟨⟨c, -, valid, lease⟩, -⟩ := hwrite.claimed
  obtain ⟨_, ends, -, -, rfl⟩ := Claim.lease?_eq_ok lease
  obtain ⟨_, -, hvalid⟩ := bind_eq_ok valid
  obtain ⟨written, hwritten, howner, -⟩ := hwrite.row?_succ
  rw [hwritten] at hrow
  cases hrow
  rw [howner]
  exact ne_empty_of_validateOwner hvalid

/-! ## Replies -/

/-- A call that has ended accounts for what it has seen. -/
theorem accounts_of_result {c : Claim} (hc : (operations i).2.claim? = some c)
    {result : Except Error Reply}
    (h : ((start s operations).run turns).result? i = some result) :
    (operations i).2.Accounts c (s.managers (operations i).1).timing
      ((start s operations).observations i turns) result := by
  have ensures := Operation.call_accounts (s.managers (operations i).1).timing hc
  have reaches := (start s operations).reaches_run i turns
  rw [result?_eq_some_iff.mp h] at reaches
  exact ensures.of_reaches reaches

/-- The call has stored this lease, and it was the row of the key then. -/
def Stored (start : Traffic) (turns : List Turn) (i : Nat) (c : Claim) (lease : Reservation) :
    Prop :=
  ∃ n now, start.WritesAt turns n i lease now ∧ lease.owner = c.owner ∧
    HeldBy (start.before turns (n + 1)).session.tables c.key lease.owner lease.expiresAt

/-- The call has asked for the row of the key when it was that of this lease. -/
def Shown (start : Traffic) (turns : List Turn) (i : Nat) (c : Claim) (lease : Reservation) :
    Prop :=
  ∃ n answer, start.ObservesAt turns n i (.answer (.get c.key) answer) ∧
    HeldBy (start.before turns n).session.tables c.key lease.owner lease.expiresAt

/-- The call has read an instant, then the store has refused its write on the key, and then the call
has asked for the row of the key when there was none. -/
def Vanished (start : Traffic) (turns : List Turn) (i : Nat) (c : Claim) (now : Instant) : Prop :=
  ∃ k m n r e answer, k < m ∧ m < n ∧ start.ReadsAt turns k i now ∧
    r.key = c.key ∧ e.isLeaseConflict = true ∧
    start.ObservesAt turns m i (.answer (.createOrUpdate r now) (.error e)) ∧
    start.ObservesAt turns n i (.answer (.get c.key) answer) ∧
    (start.before turns n).session.tables.row? c.key = none

/-- Nobody has been shown a row without an owner. -/
theorem ObservesAt.owner_ne_empty (leaves : ∀ x ∈ turns, x.leavesLeases = true)
    (named : s.tables.Named) {key : Key} {r : Reservation}
    (h : (start s operations).ObservesAt turns n i (.answer (.get key) (.ok r))) :
    r.owner ≠ "" := by
  obtain ⟨row, hrow, howner, -⟩ := h.heldBy
  rw [← howner]
  exact named_before leaves named n (Nat.le_of_lt h.lt) key row
    (Tables.selectReservation_eq_ok_iff.mp hrow)

theorem vanished_of_asked {c : Claim} {now : Instant} {r : Reservation} {e e' : Error}
    (hkey : r.key = c.key) (conflict : e.isLeaseConflict = true) (notFound : e'.isNotFound = true)
    (asked : [.answer (.createOrUpdate r now) (.error e),
      .answer (.get c.key) (.error e')].Sublist ((start s operations).observations i turns)) :
    (start s operations).Vanished turns i c now := by
  obtain ⟨m, n, hmn, refused, gone⟩ := exists_observesAt_of_sublist asked
  obtain ⟨⟨next, hstep⟩, -⟩ := refused.asks
  obtain ⟨reading, ⟨hreading, -⟩, hread⟩ := hstep.mayAsk
  obtain ⟨k, hkm, hk⟩ := hread now hreading
  obtain ⟨-, hget⟩ := gone.asks
  exact ⟨k, m, n, r, e, _, hkm, hmn, hk, hkey, conflict, refused, gone,
    Leases.row?_of_get_notFound hget notFound⟩

/-- Whatever a caller who contends for a lease is told was true at a moment of the call, however the
steps of all calls alternate. Who is told to have acquired a lease has stored it as the row of the
key. Who is told that somebody else has it has been shown the row of that lease, and who is told
that nobody has it any more had been refused, and has then found no row. A call changes no table but
by storing a lease, and then it tells that it has acquired this lease. -/
theorem replies_rest_on_rows (s : Session) (operations : Nat → Nat × Operation)
    (turns : List Turn) (named : s.tables.Named) (leaves : ∀ x ∈ turns, x.leavesLeases = true)
    (i : Nat) (c : Claim) (hc : (operations i).2.claim? = some c) :
    (∀ reply, ((start s operations).run turns).result? i = some (.ok reply) →
      (∃ artifact, reply = .reserved (.artifact artifact)) ∨
      ∃ a, (operations i).2.told? (s.managers (operations i).1).timing a = some reply ∧
        (a.acquired = true → (start s operations).Stored turns i c a.holder) ∧
        (a.acquired = false → a.holder.owner ≠ "" →
          (start s operations).Shown turns i c a.holder) ∧
        (a.acquired = false → a.holder.owner = "" →
          (start s operations).Vanished turns i c a.holder.expiresAt)) ∧
    ∀ n, turns[n]? = some (.thread i) →
      ((start s operations).before turns (n + 1)).session.tables ≠
        ((start s operations).before turns n).session.tables →
      ∃ r now, (start s operations).WritesAt turns n i r now ∧
        ∀ result, ((start s operations).run turns).result? i = some result →
          ∃ reply, result = .ok reply ∧
            (operations i).2.told? (s.managers (operations i).1).timing ⟨true, r⟩ =
              some reply := by
  constructor
  · intro reply hresult
    rcases (accounts_of_result hc hresult).told reply rfl with artifact | ⟨a, htold, rests⟩
    · exact .inl artifact
    · refine .inr ⟨a, htold, ?_⟩
      cases rests with
      | won lease accepted =>
        obtain ⟨n, hn⟩ := mem_observations_iff.mp accepted
        obtain ⟨_, ends, -, -, rfl⟩ := Claim.lease?_eq_ok lease
        have hwrite := writesAt_iff.mpr hn
        exact ⟨fun _ => ⟨n, _, hwrite, rfl, hwrite.stored⟩, nofun, nofun⟩
      | held shown =>
        obtain ⟨n, hn⟩ := mem_observations_iff.mp shown
        refine ⟨nofun, fun _ _ => ⟨n, _, hn, hn.heldBy⟩, fun _ hempty => ?_⟩
        exact absurd hempty (hn.owner_ne_empty leaves named)
      | vanished lease conflict notFound asked =>
        obtain ⟨_, ends, -, -, rfl⟩ := Claim.lease?_eq_ok lease
        refine ⟨nofun, fun _ hname => absurd rfl hname, fun _ _ => ?_⟩
        exact vanished_of_asked rfl conflict notFound asked
  · intro n hi hne
    rcases tables_before_succ hi with ⟨r, now, hwrite⟩ | ⟨key, hrelease⟩ | same
    · refine ⟨r, now, hwrite, fun result hresult => ?_⟩
      have written := mem_observations_iff.mpr ⟨n, writesAt_iff.mp hwrite⟩
      exact (accounts_of_result hc hresult).wrote r now written
    · -- only a caller who releases changes the tables in this way
      rw [hrelease.operation_eq] at hc
      cases hc
    · exact absurd same hne

/-- A session in which nothing has happened, and all clocks show the epoch. -/
def freshSession : Session where
  dialect := .sqlite
  tables := .initial
  managers _ := .startingAt .standard .epoch

/-- Two callers want the same key, and a third one releases it. -/
def releasedOperations (i : Nat) : Nat × Operation :=
  (0, if i = 2 then .release ⟨⟨"project", "domain", "name", "version"⟩, "tag"⟩
    else .reserve ⟨⟨⟨"project", "domain", "name", "version"⟩, "tag"⟩,
      if i = 0 then "first" else "second", none⟩)

/-- The second caller finds the key free, the first takes the lease, the second is refused, the key
is released, and the second asks who has won. -/
def releasedTurns : List Turn := [1, 1, 1, 0, 0, 0, 0, 0, 1, 1, 2, 1].map .thread

theorem told_of_nobody :
    ∃ status, ((start freshSession releasedOperations).run releasedTurns).result? 1 =
        some (.ok (.reserved (.status status))) ∧
      status.acquired = false ∧ status.owner = "" ∧
      (start freshSession releasedOperations).Vanished releasedTurns 1
        ⟨⟨⟨"project", "domain", "name", "version"⟩, "tag"⟩, "second", none⟩ status.expiresAt := by
  have leaves : ∀ x ∈ releasedTurns, x.leavesLeases = true := by decide
  have ended : ((start freshSession releasedOperations).run releasedTurns).result? 1 =
      some (.ok (.reserved (.status ⟨false, "", .epoch, 5⟩))) := rfl
  refine ⟨_, ended, rfl, rfl, ?_⟩
  have rests := replies_rest_on_rows freshSession releasedOperations releasedTurns
    Tables.named_initial leaves 1 _ rfl
  rcases rests.1 _ ended with ⟨artifact, h⟩ | ⟨a, htold, -, -, hvanished⟩
  · cases h
  · obtain ⟨hacquired, howner, hexpires, -⟩ := (Status.mk.injEq ..).mp
      (Reserved.status.inj (Reply.reserved.inj (Option.some.inj htold)))
    rw [← hexpires]
    exact hvanished hacquired howner

end Traffic

end LeaseCatalog
