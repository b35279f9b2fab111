import LeaseCatalog.Proofs.OpenKeys
import LeaseCatalog.Proofs.Promises

/-!
# Calls that have ended

A call reads its clock once at most, also while it is under way: whatever it has seen so far is the
beginning of one of its courses (`Operation.reaches_reads_once`). So the instant at which a call
decides is one and the same on its whole way (`Traffic.ReadsAt.once`).

A call that has read its clock and has ended had nothing left to do but to look at its key and, if
what it saw let it, to write. If the key was open to its claim at every turn after its reading, and
there is a lease that rows can hold, then it has written this lease
(`Traffic.EndedBefore.exists_writesAt`).
-/

namespace LeaseCatalog

/-! ## One reading -/

/-- Whether a call reads an instant. -/
def Observation.isReading : Observation → Bool
  | .reading _ => true
  | .counting _ | .answer _ _ => false

/-- Every call can come to an end. -/
theorem Call.exists_end {α : Type} (call : Call α) :
    ∃ seen result, call.Reaches seen (.done result) := by
  induction call with
  | done result => exact ⟨[], result, .start⟩
  | readClock next ih =>
    obtain ⟨seen, result, reaches⟩ := ih .epoch
    exact ⟨_, result, (Reaches.start.readClock .epoch).trans reaches⟩
  | record event next ih =>
    obtain ⟨seen, result, reaches⟩ := ih
    exact ⟨_, result, Reaches.start.record.trans reaches⟩
  | ask request next ih =>
    obtain ⟨seen, result, reaches⟩ := ih (.error .entryNotFound)
    exact ⟨_, result, (Reaches.start.ask (.error .entryNotFound)).trans reaches⟩

theorem Claim.Course.length_readings {α : Type} {c : Claim} {timing : LeaseTiming} {failure : Event}
    {give : Attempt → α} {way : List Observation} {result : Except Error α}
    (course : c.Course timing failure give way result) :
    (way.filter (·.isReading)).length = 1 := by
  cases course <;> rfl

section Reads

variable {timing : LeaseTiming} {operation : Operation} {seen : List Observation}

theorem Operation.Course.length_readings {result : Except Error Reply}
    (course : operation.Course timing seen result) :
    (seen.filter (·.isReading)).length ≤ 1 := by
  cases course with
  | reserving valid notFound course => exact Nat.le_of_eq course.length_readings
  | extending valid course => exact Nat.le_of_eq course.length_readings
  | invalid | resolved | unresolved | released | unreleased | shown | free | unseen =>
    exact Nat.zero_le 1

/-- A call that serves an operation reads its clock once at most. -/
theorem Operation.reaches_reads_once {rest : Call Reply}
    (reaches : (operation.call timing).Reaches seen rest) {t u : Instant} :
    ¬ [.reading t, .reading u].Sublist seen := by
  intro twice
  -- what has been seen of a call under way goes on to a course of it
  obtain ⟨more, result, ends⟩ := rest.exists_end
  have course := Operation.course_of_reaches (reaches.trans ends)
  have readings := (twice.trans (List.sublist_append_left seen more)).filter (·.isReading)
  have two : 2 ≤ ((seen ++ more).filter (·.isReading)).length := readings.length_le
  have one := course.length_readings
  omega

end Reads

namespace Traffic

section ObservesAt

variable {start : Traffic} {turns : List Turn} {m n i : Nat} {o o' : Observation}

theorem ObservesAt.take (h : start.ObservesAt turns m i o) (hm : m < n) :
    start.ObservesAt (turns.take n) m i o := by
  obtain ⟨x, hx, ho⟩ := h
  refine ⟨x, ?_, ?_⟩
  · rw [List.getElem?_take_of_lt hm, hx]
  · rwa [before, List.take_take, min_eq_left (Nat.le_of_lt hm)]

/-- What a call sees at an earlier turn, it sees first. -/
theorem sublist_observations (hm : start.ObservesAt turns m i o)
    (hn : start.ObservesAt turns n i o') (hmn : m < n) :
    [o, o'].Sublist (start.observations i turns) := by
  induction turns generalizing start m n with
  | nil =>
    obtain ⟨x, hx, -⟩ := hm
    cases hx
  | cons x rest ih =>
    cases n with
    | zero => omega
    | succ n =>
      cases m with
      | zero =>
        rw [observations, observesAt_zero.mp hm]
        have later := mem_observations_iff.mpr ⟨n, observesAt_succ.mp hn⟩
        exact (List.singleton_sublist.mpr later).cons_cons o
      | succ m =>
        have later := ih (observesAt_succ.mp hm) (observesAt_succ.mp hn) (by omega)
        exact later.trans (List.sublist_append_right _ _)

theorem ReadsAt.observesAt {t : Instant} (h : start.ReadsAt turns n i t) :
    start.ObservesAt turns n i (.reading t) := by
  obtain ⟨⟨next, hi, hc⟩, rfl⟩ := h
  refine ⟨_, hi, ?_⟩
  rw [observation?, if_pos rfl, hc]

end ObservesAt

section Once

variable {s : Session} {operations : Nat → Nat × Operation} {turns : List Turn} {m n i : Nat}
variable {t u : Instant}

/-- A call reads its clock at one turn only. -/
theorem ReadsAt.once (hm : (start s operations).ReadsAt turns m i t)
    (hn : (start s operations).ReadsAt turns n i u) : m = n := by
  have reaches := (start s operations).reaches_run i turns
  by_contra differ
  rcases Nat.lt_or_gt_of_ne differ with hlt | hlt
  · exact Operation.reaches_reads_once reaches
      (sublist_observations hm.observesAt hn.observesAt hlt)
  · exact Operation.reaches_reads_once reaches
      (sublist_observations hn.observesAt hm.observesAt hlt)

end Once

/-! ## Ended calls -/

/-- When turn `n` comes the call has ended. -/
def EndedBefore (start : Traffic) (turns : List Turn) (n i : Nat) : Prop :=
  ((start.before turns n).result? i).isSome = true

instance (start : Traffic) (turns : List Turn) (n i : Nat) :
    Decidable (start.EndedBefore turns n i) :=
  inferInstanceAs (Decidable (_ = true))

section Ended

variable {start : Traffic} {turns : List Turn} {m n i : Nat}

theorem EndedBefore.exists_done (h : start.EndedBefore turns n i) :
    ∃ result, ((start.before turns n).threads i).call = .done result := by
  obtain ⟨result, hresult⟩ := Option.isSome_iff_exists.mp h
  exact ⟨result, result?_eq_some_iff.mp hresult⟩

/-- What has ended stays ended. -/
theorem result?_turn {s : Traffic} {result : Except Error Reply} (x : Turn)
    (h : s.result? i = some result) : (s.turn x).result? i = some result := by
  rw [result?_eq_some_iff] at h ⊢
  have reaches := s.reaches_turn i x
  rw [h] at reaches
  exact reaches.eq_done

theorem EndedBefore.mono (h : start.EndedBefore turns m i) (hmn : m ≤ n)
    (hn : n ≤ turns.length) : start.EndedBefore turns n i := by
  induction n, hmn using Nat.le_induction with
  | base => exact h
  | succ n hmn ih =>
    obtain ⟨result, hresult⟩ := Option.isSome_iff_exists.mp (ih (Nat.le_of_succ_le hn))
    unfold EndedBefore
    rw [before_succ (List.getElem?_eq_getElem hn), result?_turn _ hresult]
    rfl

/-- A call that has ended sees nothing more. -/
theorem EndedBefore.lt (h : start.EndedBefore turns n i) {o : Observation}
    (seen : start.ObservesAt turns m i o) : m < n := by
  by_contra later
  obtain ⟨result, ended⟩ :=
    (h.mono (Nat.le_of_not_lt later) (Nat.le_of_lt seen.lt)).exists_done
  obtain ⟨-, observed⟩ := seen.stepsAt
  rw [observation?, if_pos rfl, ended] at observed
  cases observed

end Ended

end Traffic

/-! ## What contending comes to -/

/-- After its reading contending looks at the key, and then asks to write its lease if what it was
shown lets it. -/
theorem Claim.Course.looks_then_writes {α : Type} {c : Claim} {timing : LeaseTiming}
    {failure : Event} {give : Attempt → α} {way : List Observation} {result : Except Error α}
    (course : c.Course timing failure give way result) :
    ∃ now look, [.reading now, .answer (.get c.key) look].Sublist way ∧
      ∀ lease, c.MayWrite now look → c.lease? timing now = .ok lease →
        ∃ given, .answer (.createOrUpdate lease now) given ∈ way := by
  cases course with
  | @unread now e fails =>
    refine ⟨now, .error e, .cons_cons _ (.cons_cons _ (List.nil_sublist _)), ?_⟩
    intro lease (may : e.isNotFound = true)
    rw [fails] at may
    cases may
  | @held now current live =>
    refine ⟨now, .ok current, .cons_cons _ (.cons_cons _ (List.nil_sublist _)), ?_⟩
    intro lease may
    exact absurd may live
  | @leaseless now look e may undefined =>
    refine ⟨now, look, .cons_cons _ (.cons_cons _ (List.nil_sublist _)), ?_⟩
    intro lease _ defined
    rw [undefined] at defined
    cases defined
  | @won now look _ _ defined | @unwritten now look _ _ _ defined _
  | @lost now look _ _ _ _ defined _ | @vanished now look _ _ _ _ defined _ _
  | @blinded now look _ _ _ _ defined _ _ =>
    refine ⟨now, look, .cons_cons _ (.cons_cons _ (List.nil_sublist _)), ?_⟩
    intro lease _ same
    rw [defined] at same
    cases same
    exact ⟨_, List.mem_cons_of_mem _ (List.mem_cons_of_mem _ List.mem_cons_self)⟩

/-- So does a call that has read its clock and has ended. -/
theorem Operation.Course.looks_then_writes {timing : LeaseTiming} {operation : Operation}
    {seen : List Observation} {result : Except Error Reply}
    (course : operation.Course timing seen result) {t : Instant} (read : .reading t ∈ seen)
    {c : Claim} (hc : operation.claim? = some c) :
    ∃ now look, [.reading now, .answer (.get c.key) look].Sublist seen ∧
      ∀ lease, c.MayWrite now look → c.lease? timing now = .ok lease →
        ∃ given, .answer (.createOrUpdate lease now) given ∈ seen := by
  cases course with
  | reserving valid notFound course =>
    cases hc
    obtain ⟨now, look, looks, writes⟩ := course.looks_then_writes
    refine ⟨now, look, looks.cons _, ?_⟩
    intro lease may defined
    obtain ⟨given, asked⟩ := writes lease may defined
    exact ⟨given, List.mem_cons_of_mem _ asked⟩
  | extending valid course =>
    cases hc
    exact course.looks_then_writes
  | invalid => cases read
  | resolved | unresolved => simp at read
  | released | unreleased | shown | free | unseen => cases hc

namespace Traffic

section Ended

variable {s : Session} {operations : Nat → Nat × Operation} {turns : List Turn} {n q i : Nat}
variable {t : Instant}

/-- What a call that has ended has seen is one of its courses. -/
theorem EndedBefore.course (h : (start s operations).EndedBefore turns n i) :
    ∃ result, (operations i).2.Course (s.managers (operations i).1).timing
      ((start s operations).observations i (turns.take n)) result := by
  obtain ⟨result, ended⟩ := h.exists_done
  have reaches := reaches_before s operations turns n i
  rw [ended] at reaches
  exact ⟨result, Operation.course_of_reaches reaches⟩

/-- A call that has read its clock and has ended, and for which the key was open at each turn after
its reading, has written its lease, if rows can hold it. -/
theorem EndedBefore.exists_writesAt (h : (start s operations).EndedBefore turns n i) {c : Claim}
    (hc : (operations i).2.claim? = some c) (read : (start s operations).ReadsAt turns q i t)
    {ends : Instant} (lasts : (s.managers (operations i).1).timing.Lasts t ends)
    (openTo : ∀ k, q < k → k < n →
      ((start s operations).before turns k).session.tables.OpenTo c t) :
    ∃ w, q < w ∧ w < n ∧ (start s operations).WritesAt turns w i
      (.taken c.key c.owner ends t c.metadata) t := by
  obtain ⟨result, course⟩ := h.course
  have seen : .reading t ∈ (start s operations).observations i (turns.take n) :=
    mem_observations_iff.mpr ⟨q, read.observesAt.take (h.lt read.observesAt)⟩
  obtain ⟨now, look, looks, writes⟩ := course.looks_then_writes seen hc
  obtain ⟨q', g, hqg, readAt, looked⟩ := exists_observesAt_of_sublist looks
  -- there is one reading only, and the look comes after it
  obtain ⟨-, readAt⟩ := readAt.of_take
  obtain rfl := readAt.readsAt.once read
  obtain rfl := readAt.readsAt.unique read
  obtain ⟨hgn, looked⟩ := looked.of_take
  obtain ⟨-, rfl⟩ := looked.asks
  have may := (openTo g hqg hgn).mayWrite ((start s operations).before turns g).session.dialect
  obtain ⟨given, asked⟩ := writes _ may (lasts.lease? c)
  obtain ⟨w, wrote⟩ := mem_observations_iff.mp asked
  obtain ⟨hwn, wrote⟩ := wrote.of_take
  -- the write comes after the reading that it is made at
  obtain ⟨⟨next, step⟩, answered⟩ := wrote.asks
  obtain ⟨reading, ⟨rfl, -⟩, hread⟩ := step.mayAsk
  obtain ⟨q'', hqw, read'⟩ := hread _ rfl
  obtain rfl := read'.once read
  obtain ⟨t', accepted⟩ := (openTo w hqw hwn).createOrUpdate
    ((start s operations).before turns w).session.dialect lasts.ends_storable lasts.now_storable
  exact ⟨w, hqw, hwn, ⟨next, step⟩, t', accepted⟩

end Ended

end Traffic

end LeaseCatalog
