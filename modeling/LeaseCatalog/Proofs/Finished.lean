import LeaseCatalog.Proofs.Deliveries
import LeaseCatalog.Proofs.Outcomes

/-!
# Finished work

The lease on a key is for work that is to be done, and a key that stands for an artifact is for work
that is finished. Once a key was tagged, everybody who reserves it is given the artifact, and the
table of reservations is not even asked (`Traffic.tagged_never_leased`).

This is so because a call looks first what its key stands for. It does so once, and the store does
not look again when it is asked to write a lease: it goes by the reservation of the key only. So a
call that found its key untagged can still acquire the lease after the key was tagged
(`Traffic.leased_though_tagged`). What holds is that the key was tagged after that look
(`Traffic.acquired_before_tagged`).
-/

namespace LeaseCatalog

/-! ## Calls that find an artifact -/

/-- What a manager asks the stores while it serves a caller, in order. -/
def Session.requests (s : Session) (i : Nat) (operation : Operation) : List Request :=
  ((operation.call (s.managers i).timing).run (Stores.logged (.ofTables s.dialect))
    (s.managers i).clock.now (s.tables, []) (s.managers i).counters).state.2

namespace Call

variable {α : Type}

/-- A call ends in the same way whether or not the stores write down what they are asked. -/
theorem run_eq_logged {σ : Type} (stores : Stores σ) (now : Instant) (call : Call α) (s : σ)
    (log : List Request) (c : Counters) :
    call.run stores now s c =
      let outcome := call.run stores.logged now (s, log) c
      ⟨outcome.result, outcome.state.1, outcome.counters⟩ := by
  induction call generalizing s log c with
  | done result => rfl
  | readClock next ih => exact ih now s log c
  | record event next ih => exact ih s log (c.record event)
  | ask request next ih => exact ih _ _ (log ++ [request]) c

/-- Who reserves a key that stands for an artifact is given it, and nothing else is asked. -/
theorem run_reserve_tagged {c : Claim} {d : Dialect} {t : Tables} {tag : Tag}
    (valid : c.validate = .ok ()) (hget : Tags.get d t c.key = .ok tag) (timing : LeaseTiming)
    (now : Instant) (counters : Counters) (give : Reserved → α) :
    (reserve timing c give).run (Stores.logged (.ofTables d)) now (t, []) counters =
      ⟨.ok (give (.artifact tag.artifact)), (t, [.getTag c.key]), counters⟩ := by
  have looked : tagLooked timing c give ((Request.getTag c.key).perform d t).1 =
      .done (.ok (give (.artifact tag.artifact))) :=
    tagLooked_some (congrArg foundOrNone hget)
  rw [reserve_eq timing give valid]
  change (tagLooked timing c give ((Request.getTag c.key).perform d t).1).run _ now _ _ = _
  rw [looked]
  rfl

end Call

namespace Session

theorem replace_self (s : Session) (i : Nat) : s.replace i (s.managers i) = s := by
  unfold replace
  congr
  funext j
  split_ifs with h
  · rw [h]
  · rfl

/-- A session in which somebody reserves a key that stands for an artifact. -/
theorem step_reserve_tagged {s : Session} {c : Claim} {tag : Tag} (valid : c.validate = .ok ())
    (hget : Tags.get s.dialect s.tables c.key = .ok tag) (i : Nat) :
    s.step (.serve i (.reserve c)) =
        ((.ok (.reserved (.artifact tag.artifact)) : Except Error Reply), s) ∧
      s.requests i (.reserve c) = [.getTag c.key] := by
  have logged := Call.run_reserve_tagged valid hget (s.managers i).timing
    (s.managers i).clock.now (s.managers i).counters Reply.reserved
  constructor
  · change s.serve i (Call.reserve _ c Reply.reserved) = _
    unfold serve Manager.serve
    rw [Call.run_eq_logged _ _ _ _ [], logged]
    exact congrArg (Prod.mk _) (s.replace_self i)
  · exact congrArg (fun outcome => outcome.state.2) logged

end Session

namespace Traffic

/-- Once a key was tagged, whatever happens later, who reserves it is given the artifact of the
name that it was last tagged with. This changes nothing, and asks for nothing but what the key
stands for. It is so whatever the reservations, the managers and the make of the database are like
by then. -/
theorem tagged_never_leased (s : Session) (operations : Nat → Nat × Operation)
    (turns later : List Turn) (hs : s.tables = .initial) {key : Key}
    (tagged : ∃ id now, .tagged key id now ∈ (start s operations).deliveries turns) :
    ∃ id now a,
      lastTagged? ((start s operations).deliveries (turns ++ later)) key = some (id, now) ∧
      firstStored? ((start s operations).deliveries (turns ++ later)) key.dataset id = some a ∧
      ∀ s' : Session,
        ((start s operations).run (turns ++ later)).session.tables.SameTags s'.tables →
        ∀ i c, c.key = key → validateOwner c.owner = .ok () →
          s'.step (.serve i (.reserve c)) =
              ((.ok (.reserved (.artifact
                ⟨id, key.dataset, a.metadata, a.createdAt.kept⟩)) : Except Error Reply), s') ∧
            s'.requests i (.reserve c) = [.getTag key] := by
  have delivered : ((start s operations).run (turns ++ later)).session.tables.Delivered
      ((start s operations).deliveries (turns ++ later)) := delivered_run hs
  have still : ∃ id now, .tagged key id now ∈ (start s operations).deliveries (turns ++ later) := by
    obtain ⟨id, now, h⟩ := tagged
    rw [deliveries_append]
    exact ⟨id, now, List.mem_append_left _ h⟩
  obtain ⟨⟨id, now⟩, hlast⟩ := Option.isSome_iff_exists.mp (lastTagged?_isSome_iff.mpr still)
  obtain ⟨a, ha, -⟩ := delivered.get_tagged s.dialect hlast
  refine ⟨id, now, a, hlast, ha, ?_⟩
  rintro s' same i c rfl owner
  obtain ⟨a', ha', hget⟩ := (delivered.sameTags same).get_tagged s'.dialect hlast
  rw [ha] at ha'
  cases ha'
  have valid : c.validate = .ok () := by
    unfold Claim.validate
    rw [(delivered.tagged_sound _ id now (lastTagged?_eq_some hlast)).1, ok_bind, owner]
  exact Session.step_reserve_tagged valid hget i

/-- A session in which nobody could get a lease: it has no table of reservations, and its leases
would last too long. -/
def leaseless (s : Session) : Session where
  dialect := .generic
  tables := { s.tables with reservations := none }
  managers _ := .startingAt ⟨maxLeaseSeconds, 2⟩ .first

theorem result_without_leases :
    let s := leaseless ((start Session.newSession retaggingOperations).run retaggingTurns).session
    s.step (.serve 7 (.reserve (Session.claimOf "second"))) =
        ((.ok (.reserved (.artifact (resultOf none))) : Except Error Reply), s) ∧
      s.requests 7 (.reserve (Session.claimOf "second")) =
        [.getTag (Session.claimOf "second").key] := by
  have delivered : (start Session.newSession retaggingOperations).deliveries
      (retaggingTurns.take 6) =
      [.stored (resultOf none), .stored (resultOf (some ⟨#[1]⟩)),
        .tagged (Session.claimOf "second").key "result" .epoch] := rfl
  have tagged : ∃ id now, .tagged (Session.claimOf "second").key id now ∈
      (start Session.newSession retaggingOperations).deliveries (retaggingTurns.take 6) := by
    rw [delivered]
    exact ⟨"result", .epoch, by simp⟩
  obtain ⟨id, now, a, hlast, hfirst, given⟩ := tagged_never_leased Session.newSession
    retaggingOperations (retaggingTurns.take 6) (retaggingTurns.drop 6) rfl tagged
  cases hlast
  cases hfirst
  exact given (leaseless _) ⟨rfl, rfl⟩ 7 (Session.claimOf "second") rfl rfl

end Traffic

/-! ## Calls that acquire a lease -/

/-- A key that stands for an artifact. -/
def Tables.Tagged (t : Tables) (key : Key) : Prop := ∃ found, t.selectTag key = .ok found

theorem Tables.Delivered.tagged_iff {t : Tables} {ds : List Delivery} (h : t.Delivered ds)
    {key : Key} : t.Tagged key ↔ ∃ id now, .tagged key id now ∈ ds := by
  rw [← lastTagged?_isSome_iff]
  cases hlast : lastTagged? ds key with
  | none =>
    unfold Tables.Tagged
    rw [h.selectTag_untagged hlast]
    simp
  | some last =>
    obtain ⟨a, -, select⟩ := h.selectTag_tagged hlast
    exact iff_of_true ⟨_, select⟩ rfl

namespace Call

variable {α : Type} {seen : List Observation} {request : Request}
  {next : request.Answer → Call α}

theorem not_reaches_of_failed (event : Event) (e : Error) :
    ¬ (failed event e : Call α).Reaches seen (.ask request next) := by
  intro h
  have obeys : (failed event e : Call α).Obeys (fun _ _ => False) none := failed_obeys event e
  obtain ⟨_, obeys, -⟩ := obeys.of_reaches h
  exact obeys.1

/-- A call that reserves a key and comes to ask anything else than what the key stands for has been
told that it stands for nothing. -/
theorem Reaches.tag_missed {timing : LeaseTiming} {c : Claim} {give : Reserved → α}
    (h : (reserve timing c give).Reaches seen (.ask request next))
    (hr : request ≠ .getTag c.key) :
    ∃ e : Error, .answer (.getTag c.key) (.error e) ∈ seen ∧ e.isNotFound = true := by
  cases valid : c.validate with
  | error e =>
    unfold reserve at h
    rw [valid] at h
    exact nomatch h.eq_done
  | ok =>
    rw [reserve_eq timing give valid] at h
    rcases h.ask_cases with ⟨-, hask⟩ | ⟨answer, more, rfl, reaches⟩
    · exact absurd (Call.ask.inj hask).1 hr
    · cases hfound : foundOrNone answer with
      | ok found =>
        cases found with
        | some tag =>
          rw [tagLooked_some hfound] at reaches
          exact nomatch reaches.eq_done
        | none =>
          obtain ⟨e, rfl, notFound⟩ := foundOrNone_eq_none hfound
          exact ⟨e, List.mem_cons_self, notFound⟩
      | error e =>
        rw [tagLooked_error hfound] at reaches
        exact absurd reaches (not_reaches_of_failed _ e)

end Call

namespace Traffic

/-- At turn `n` call `i` asks what a key stands for, and is told that it stands for nothing. -/
def MissesTagAt (start : Traffic) (turns : List Turn) (n i : Nat) (key : Key) : Prop :=
  ∃ e : Error, start.ObservesAt turns n i (.answer (.getTag key) (.error e)) ∧ e.isNotFound = true

section Acquired

variable {s : Session} {operations : Nat → Nat × Operation} {turns : List Turn} {n i : Nat}

/-- A call that reserves a key and writes a lease has found that its key stands for nothing. -/
theorem WritesAt.missesTag {c : Claim} (hc : (operations i).2 = .reserve c) {r : Reservation}
    {now : Instant} (h : (start s operations).WritesAt turns n i r now) :
    ∃ k < n, (start s operations).MissesTagAt turns k i c.key := by
  obtain ⟨⟨next, hstep⟩, -⟩ := h
  have reaches := reaches_before s operations turns n i
  rw [hc, hstep.2] at reaches
  change (Call.reserve _ c Reply.reserved).Reaches _ _ at reaches
  obtain ⟨e, hseen, notFound⟩ := reaches.tag_missed fun h => nomatch h
  obtain ⟨k, hk⟩ := mem_observations_iff.mp hseen
  obtain ⟨hkn, hk⟩ := hk.of_take
  exact ⟨k, hkn, e, hk, notFound⟩

/-- Who is told that a key stands for nothing asks while it does so. -/
theorem MissesTagAt.not_tagged (hs : s.tables = .initial) {key : Key}
    (h : (start s operations).MissesTagAt turns n i key) :
    ¬ ((start s operations).before turns n).session.tables.Tagged key := by
  obtain ⟨e, hseen, -⟩ := h
  have delivered : ((start s operations).before turns n).session.tables.Delivered
      ((start s operations).deliveries (turns.take n)) :=
    delivered_before hs n (Nat.le_of_lt hseen.lt)
  rw [delivered.tagged_iff, ← lastTagged?_isSome_iff]
  intro tagged
  obtain ⟨⟨id, now⟩, hlast⟩ := Option.isSome_iff_exists.mp tagged
  obtain ⟨a, -, hget⟩ := delivered.get_tagged
    ((start s operations).before turns n).session.dialect hlast
  obtain ⟨-, hanswer⟩ := hseen.asks
  change Tags.get _ _ key = .error e at hanswer
  rw [hget] at hanswer
  cases hanswer

/-- A key that stands for an artifact at one turn and did not at an earlier one was tagged between
them. -/
theorem tagged_between (hs : s.tables = .initial) {key : Key} {k : Nat} (hkn : k ≤ n)
    (hn : n ≤ turns.length)
    (untagged : ¬ ((start s operations).before turns k).session.tables.Tagged key)
    (tagged : ((start s operations).before turns n).session.tables.Tagged key) :
    ∃ m id now, k ≤ m ∧ m < n ∧
      (start s operations).DeliversAt turns m (.tagged key id now) := by
  rw [(delivered_before hs k (hkn.trans hn)).tagged_iff] at untagged
  rw [(delivered_before hs n hn).tagged_iff] at tagged
  obtain ⟨id, now, hmem⟩ := tagged
  obtain ⟨m, hmn, hm⟩ := mem_deliveries_take_iff.mp hmem
  refine ⟨m, id, now, ?_, hmn, hm⟩
  by_contra hmk
  exact untagged ⟨id, now, mem_deliveries_take_iff.mpr ⟨m, Nat.lt_of_not_le hmk, hm⟩⟩

/-- Who acquires a lease has written it. -/
theorem exists_writesAt_of_acquired {c : Claim} (hc : (operations i).2 = .reserve c)
    {status : Status}
    (hresult : ((start s operations).run turns).result? i =
      some (.ok (.reserved (.status status))))
    (acquired : status.acquired = true) :
    ∃ n r now, (start s operations).WritesAt turns n i r now := by
  have claim : (operations i).2.claim? = some c := by
    rw [hc]
    rfl
  rcases (accounts_of_result claim hresult).told _ rfl with ⟨artifact, h⟩ | ⟨a, htold, rests⟩
  · cases h
  · rw [hc] at htold
    cases htold
    cases rests with
    | won lease accepted =>
      obtain ⟨n, hn⟩ := mem_observations_iff.mp accepted
      exact ⟨n, _, _, writesAt_iff.mpr hn⟩
    | held => cases acquired
    | vanished => cases acquired

end Acquired

/-- A call that acquires the lease on a key has written it, and before any write of it the call has
found that the key stands for nothing, at a turn at which it did so. If the key stands for an
artifact when the lease is written, it was therefore tagged after the call had looked. -/
theorem acquired_before_tagged (s : Session) (operations : Nat → Nat × Operation)
    (turns : List Turn) (hs : s.tables = .initial) {i : Nat} {c : Claim} {status : Status}
    (hc : (operations i).2 = .reserve c)
    (hresult : ((start s operations).run turns).result? i =
      some (.ok (.reserved (.status status))))
    (acquired : status.acquired = true) :
    (∃ n r now, (start s operations).WritesAt turns n i r now) ∧
    ∀ n r now, (start s operations).WritesAt turns n i r now →
      r.key = c.key ∧
      ∃ k < n, (start s operations).MissesTagAt turns k i c.key ∧
        ¬ ((start s operations).before turns k).session.tables.Tagged c.key ∧
        (((start s operations).before turns n).session.tables.Tagged c.key →
          ∃ m id later, k < m ∧ m < n ∧
            (start s operations).DeliversAt turns m (.tagged c.key id later)) := by
  refine ⟨exists_writesAt_of_acquired hc hresult acquired, ?_⟩
  intro n r now hwrite
  have hkey : r.key = c.key := by
    obtain ⟨⟨c', hc', -, lease⟩, -⟩ := hwrite.claimed
    rw [hc] at hc'
    cases hc'
    obtain ⟨_, _, -, -, rfl⟩ := Claim.lease?_eq_ok lease
    rfl
  obtain ⟨k, hkn, misses⟩ := hwrite.missesTag hc
  have untagged := misses.not_tagged hs
  refine ⟨hkey, k, hkn, misses, untagged, fun tagged => ?_⟩
  obtain ⟨⟨next, hstep⟩, -⟩ := hwrite
  obtain ⟨m, id, later, hkm, hmn, hm⟩ :=
    tagged_between hs (Nat.le_of_lt hkn) (Nat.le_of_lt hstep.lt) untagged tagged
  refine ⟨m, id, later, lt_of_le_of_ne hkm ?_, hmn, hm⟩
  -- at its own turn the call delivers nothing
  rintro rfl
  obtain ⟨e, hseen, -⟩ := misses
  obtain ⟨x, hx, hd⟩ := hm
  rw [hseen.stepsAt.1] at hx
  cases hx
  cases hd

/-- Two callers want the lease on a key, and a third one releases it. -/
def overtakenOperations (i : Nat) : Nat × Operation :=
  (0, if i = 0 then .reserve (Session.claimOf "first")
    else if i = 1 then .reserve (Session.claimOf "second")
    else .release (Session.claimOf "first").key)

/-- The first caller takes the lease, and the second looks what the key stands for. Then the key is
tagged with the result and released, and the second caller goes on. -/
def overtakenTurns : List Turn :=
  .step (.ask (.createArtifact (resultOf none))) :: [0, 0, 0, 0, 0, 1].map .thread ++
    .step (.ask (.addTag (Session.claimOf "first").key "result" .epoch)) ::
      [2, 1, 1, 1, 1].map .thread

/-- A key that stands for an artifact is leased. -/
theorem leased_though_tagged :
    ∃ status r now,
      ((start Session.newSession overtakenOperations).run overtakenTurns).result? 1 =
        some (.ok (.reserved (.status status))) ∧
      status.acquired = true ∧
      (start Session.newSession overtakenOperations).WritesAt overtakenTurns 11 1 r now ∧
      ((start Session.newSession overtakenOperations).before overtakenTurns
        11).session.tables.Tagged (Session.claimOf "second").key :=
  ⟨_, _, _, rfl, rfl, ⟨⟨_, rfl, rfl⟩, _, rfl⟩, _, rfl⟩

theorem tagged_after_look :
    ∃ k m id now, k < m ∧ m < 11 ∧
      (start Session.newSession overtakenOperations).MissesTagAt overtakenTurns k 1
        (Session.claimOf "second").key ∧
      (start Session.newSession overtakenOperations).DeliversAt overtakenTurns m
        (.tagged (Session.claimOf "second").key id now) := by
  have result : ((start Session.newSession overtakenOperations).run overtakenTurns).result? 1 =
      some (.ok (.reserved (.status _))) := rfl
  have write : (start Session.newSession overtakenOperations).WritesAt overtakenTurns 11 1 _ _ :=
    ⟨⟨_, rfl, rfl⟩, _, rfl⟩
  have tagged : ((start Session.newSession overtakenOperations).before overtakenTurns
      11).session.tables.Tagged (Session.claimOf "second").key := ⟨_, rfl⟩
  obtain ⟨-, looked⟩ := acquired_before_tagged Session.newSession overtakenOperations
    overtakenTurns rfl rfl result rfl
  obtain ⟨-, k, -, misses, -, later⟩ := looked 11 _ _ write
  obtain ⟨m, id, now, hkm, hmn, hm⟩ := later tagged
  exact ⟨k, m, id, now, hkm, hmn, misses, hm⟩

end Traffic

end LeaseCatalog
