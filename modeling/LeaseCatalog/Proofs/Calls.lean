import LeaseCatalog.Manager.Operations
import LeaseCatalog.Proofs.Instants

/-!
# What calls ask, and for how long

A call goes on as it is told by the clock and the stores, and the stores may tell it anything. What
holds of a call whatever it is told is said here in two ways: which requests it may come to ask
(`Call.Obeys`), and how many steps it may come to take (`Call.EndsWithin`).

The calls that serve operations ask only about their own key. They write a lease only as their claim
has it, and only at the instant that they have read from the clock (`Operation.MayAsk`).
-/

namespace LeaseCatalog

/-- The claim of an operation that contends for a lease. -/
def Operation.claim? : Operation → Option Claim
  | .reserve c | .extend c => some c
  | .release _ | .get _ => none

/-- The key that an operation is about. -/
def Operation.key : Operation → Key
  | .reserve c | .extend c => c.key
  | .release key | .get key => key

theorem Operation.key_of_claim? {operation : Operation} {c : Claim}
    (h : operation.claim? = some c) : operation.key = c.key := by
  cases operation with
  | reserve | extend =>
    cases h
    rfl
  | release | get => cases h

/-- What a call that serves an operation may ask, given what it has last read from the clock. -/
def Operation.MayAsk (timing : LeaseTiming) (operation : Operation) (reading : Option Instant) :
    Request → Prop
  | .getTag key | .get key => key = operation.key
  | .createOrUpdate r now =>
    reading = some now ∧ ∃ c, operation.claim? = some c ∧ c.lease? timing now = .ok r
  | .delete key => operation = .release key
  | .createArtifact _ | .addTag _ _ _ | .create _ | .update _ => False

theorem Claim.lease?_eq_ok {c : Claim} {timing : LeaseTiming} {now : Instant} {r : Reservation}
    (h : c.lease? timing now = .ok r) :
    ∃ seconds ends, timing.ttl? = .ok seconds ∧ now.addSeconds? seconds = some ends ∧
      r = .taken c.key c.owner ends now c.metadata := by
  unfold Claim.lease? at h
  split at h
  · cases h
  · rename_i seconds hseconds
    split at h
    · cases h
    · rename_i ends hends
      cases h
      exact ⟨seconds, ends, hseconds, hends, rfl⟩

/-- The end of a lease is kept in full if the start is. -/
theorem Claim.kept_expiresAt {c : Claim} {timing : LeaseTiming} {now : Instant} {r : Reservation}
    (h : c.lease? timing now = .ok r) (kept : now.kept = now) : r.expiresAt.kept = r.expiresAt := by
  obtain ⟨seconds, ends, -, hends, rfl⟩ := lease?_eq_ok h
  exact Instant.kept_of_addSeconds? kept hends

namespace Call

variable {α : Type}

/-! ## Between the steps of a call

What is left of a call that has just been answered, by what the answer was.
-/

section Points

variable {c : Claim} {timing : LeaseTiming} {now : Instant} {failure : Event} {give : Attempt → α}

/-- What is left of contending after the look. -/
def looked (c : Claim) (timing : LeaseTiming) (now : Instant) (failure : Event)
    (give : Attempt → α) (answer : (Request.get c.key).Answer) : Call α :=
  match foundOrNone answer with
  | .error e => failed failure e
  | .ok none => write c timing now true failure give
  | .ok (some current) =>
    if current.isClaimableBy c.owner now then write c timing now false failure give
    else .record .alreadyInProgress (.done (.ok (give ⟨false, current⟩)))

theorem contend_eq (c : Claim) (timing : LeaseTiming) (failure : Event) (give : Attempt → α) :
    contend c timing failure give =
      .readClock fun now => .ask (.get c.key) (looked c timing now failure give) := rfl

theorem looked_none {answer : (Request.get c.key).Answer} (h : foundOrNone answer = .ok none) :
    looked c timing now failure give answer = write c timing now true failure give := by
  unfold looked
  rw [h]

theorem looked_claimable {answer : (Request.get c.key).Answer} {current : Reservation}
    (h : foundOrNone answer = .ok (some current))
    (claimable : current.isClaimableBy c.owner now = true) :
    looked c timing now failure give answer = write c timing now false failure give := by
  unfold looked
  rw [h]
  exact if_pos claimable

theorem looked_live {answer : (Request.get c.key).Answer} {current : Reservation}
    (h : foundOrNone answer = .ok (some current))
    (live : ¬ current.isClaimableBy c.owner now = true) :
    looked c timing now failure give answer =
      .record .alreadyInProgress (.done (.ok (give ⟨false, current⟩))) := by
  unfold looked
  rw [h]
  exact if_neg live

theorem looked_error {answer : (Request.get c.key).Answer} {e : Error}
    (h : foundOrNone answer = .error e) :
    looked c timing now failure give answer = failed failure e := by
  unfold looked
  rw [h]

/-- What is left of contending after the write. -/
def written (c : Claim) (lease : Reservation) (now : Instant) (free : Bool) (failure : Event)
    (give : Attempt → α) (answer : (Request.createOrUpdate lease now).Answer) : Call α :=
  match answer with
  | .ok () =>
    .record (if free then .acquiredByCreation else .acquiredByUpdate)
      (.done (.ok (give ⟨true, lease⟩)))
  | .error e => if e.isLeaseConflict then reportWinner c.key now failure give else failed failure e

theorem write_eq {lease : Reservation} (h : c.lease? timing now = .ok lease) (free : Bool)
    (failure : Event) (give : Attempt → α) :
    write c timing now free failure give =
      .ask (.createOrUpdate lease now) (written c lease now free failure give) := by
  unfold write
  rw [h]
  refine congrArg (Call.ask (.createOrUpdate lease now)) (funext fun answer => ?_)
  cases answer with
  | ok => rfl
  | error e => rfl

theorem written_ok (lease : Reservation) (free : Bool) :
    written c lease now free failure give (.ok ()) =
      .record (if free then .acquiredByCreation else .acquiredByUpdate)
        (.done (.ok (give ⟨true, lease⟩))) := rfl

theorem written_conflict (lease : Reservation) (free : Bool) (key : Key) :
    written c lease now free failure give (.error (.heldByAnother key)) =
      reportWinner c.key now failure give := rfl

/-- What is left of contending after the look for the winner. -/
def reported (key : Key) (now : Instant) (failure : Event) (give : Attempt → α)
    (answer : (Request.get key).Answer) : Call α :=
  match foundOrNone answer with
  | .ok (some winner) => .done (.ok (give ⟨false, winner⟩))
  | .ok none => .done (.ok (give ⟨false, .taken key "" now now none⟩))
  | .error e => failed failure e

theorem reportWinner_eq (key : Key) (now : Instant) (failure : Event) (give : Attempt → α) :
    reportWinner key now failure give =
      .record .alreadyInProgress (.ask (.get key) (reported key now failure give)) := rfl

theorem reported_some {key : Key} {answer : (Request.get key).Answer} {winner : Reservation}
    (h : foundOrNone answer = .ok (some winner)) :
    reported key now failure give answer = .done (.ok (give ⟨false, winner⟩)) := by
  unfold reported
  rw [h]

theorem reported_none {key : Key} {answer : (Request.get key).Answer}
    (h : foundOrNone answer = .ok none) :
    reported key now failure give answer =
      .done (.ok (give ⟨false, .taken key "" now now none⟩)) := by
  unfold reported
  rw [h]

/-- What is left of reserving after the look for a tag. -/
def tagLooked (timing : LeaseTiming) (c : Claim) (give : Reserved → α)
    (answer : (Request.getTag c.key).Answer) : Call α :=
  match foundOrNone answer with
  | .ok (some tag) => .done (.ok (give (.artifact tag.artifact)))
  | .ok none =>
    contend c timing .acquireFailed fun attempt => give (.status (attempt.status timing))
  | .error e => failed .tagLookupFailed e

theorem reserve_eq (timing : LeaseTiming) (give : Reserved → α) (valid : c.validate = .ok ()) :
    reserve timing c give = .ask (.getTag c.key) (tagLooked timing c give) := by
  unfold reserve
  rw [valid]
  rfl

theorem tagLooked_none {give : Reserved → α} {answer : (Request.getTag c.key).Answer}
    (h : foundOrNone answer = .ok none) :
    tagLooked timing c give answer =
      contend c timing .acquireFailed fun attempt => give (.status (attempt.status timing)) := by
  unfold tagLooked
  rw [h]

theorem tagLooked_some {give : Reserved → α} {answer : (Request.getTag c.key).Answer} {tag : Tag}
    (h : foundOrNone answer = .ok (some tag)) :
    tagLooked timing c give answer = .done (.ok (give (.artifact tag.artifact))) := by
  unfold tagLooked
  rw [h]

theorem tagLooked_error {give : Reserved → α} {answer : (Request.getTag c.key).Answer} {e : Error}
    (h : foundOrNone answer = .error e) :
    tagLooked timing c give answer = failed .tagLookupFailed e := by
  unfold tagLooked
  rw [h]

theorem extend_eq (timing : LeaseTiming) (give : Lease → α) (valid : c.validate = .ok ()) :
    extend timing c give =
      contend c timing .extendFailed fun attempt => give (attempt.holder.toLease timing) := by
  unfold extend
  rw [valid]

/-- What is left of releasing a key. -/
def freed {key : Key} (give : α) (answer : (Request.delete key).Answer) : Call α :=
  match answer with
  | .ok () => .done (.ok give)
  | .error e => failed .releaseFailed e

theorem release_eq {key : Key} (give : α) (valid : key.validate = .ok ()) :
    release key give = .ask (.delete key) (freed give) := by
  unfold release
  rw [valid]
  refine congrArg (Call.ask (.delete key)) (funext fun answer => ?_)
  cases answer with
  | ok => rfl
  | error e => rfl

/-- What is left of asking who holds a lease. -/
def shown (timing : LeaseTiming) (key : Key) (give : Option Lease → α)
    (answer : (Request.get key).Answer) : Call α :=
  match foundOrNone answer with
  | .ok found => .done (.ok (give (found.map fun r => r.toLease timing)))
  | .error e => .done (.error e)

theorem get_eq (timing : LeaseTiming) {key : Key} (give : Option Lease → α)
    (valid : key.validate = .ok ()) :
    get timing key give = .ask (.get key) (shown timing key give) := by
  unfold get
  rw [valid]
  rfl

theorem shown_ok {key : Key} {give : Option Lease → α} {answer : (Request.get key).Answer}
    {found : Option Reservation} (h : foundOrNone answer = .ok found) :
    shown timing key give answer =
      .done (.ok (give (found.map fun r => r.toLease timing))) := by
  unfold shown
  rw [h]
  rfl

theorem shown_error {key : Key} {give : Option Lease → α} {answer : (Request.get key).Answer}
    {e : Error} (h : foundOrNone answer = .error e) :
    shown timing key give answer = .done (.error e) := by
  unfold shown
  rw [h]

end Points

/-! ## What a call asks -/

/-- A call that never asks what it may not, where this depends on what was last read from the
clock. -/
def Obeys (may : Option Instant → Request → Prop) : Option Instant → Call α → Prop
  | _, .done _ => True
  | _, .readClock next => ∀ now, Obeys may (some now) (next now)
  | reading, .record _ next => Obeys may reading next
  | reading, .ask request next => may reading request ∧ ∀ answer, Obeys may reading (next answer)

section Obeys

variable {may : Option Instant → Request → Prop} {reading : Option Instant}

theorem failed_obeys (event : Event) (e : Error) :
    (failed event e : Call α).Obeys may reading := trivial

theorem reportWinner_obeys {key : Key} (get : ∀ reading, may reading (.get key)) (now : Instant)
    (failure : Event) (give : Attempt → α) :
    (reportWinner key now failure give).Obeys may reading := by
  refine ⟨get reading, fun answer => ?_⟩
  dsimp only
  split
  · trivial
  · trivial
  · exact failed_obeys failure _

theorem write_obeys {c : Claim} {timing : LeaseTiming} (get : ∀ reading, may reading (.get c.key))
    {now : Instant} (put : ∀ r, c.lease? timing now = .ok r → may reading (.createOrUpdate r now))
    (free : Bool) (failure : Event) (give : Attempt → α) :
    (write c timing now free failure give).Obeys may reading := by
  unfold write
  cases hl : c.lease? timing now with
  | error e => exact failed_obeys failure e
  | ok lease =>
    refine ⟨put lease hl, fun answer => ?_⟩
    dsimp only
    split
    · trivial
    · split
      · exact reportWinner_obeys get now failure give
      · exact failed_obeys failure _

theorem contend_obeys {c : Claim} {timing : LeaseTiming}
    (get : ∀ reading, may reading (.get c.key))
    (put : ∀ now r, c.lease? timing now = .ok r → may (some now) (.createOrUpdate r now))
    (failure : Event) (give : Attempt → α) :
    (contend c timing failure give).Obeys may reading := by
  intro now
  refine ⟨get _, fun answer => ?_⟩
  dsimp only
  split
  · exact failed_obeys failure _
  · exact write_obeys get (put now) true failure give
  · split
    · exact write_obeys get (put now) false failure give
    · trivial

end Obeys

/-! ## How long a call lasts -/

/-- A call that ends within a number of steps. -/
def EndsWithin : Nat → Call α → Prop
  | _, .done _ => True
  | 0, _ => False
  | n + 1, .readClock next => ∀ now, EndsWithin n (next now)
  | n + 1, .record _ next => EndsWithin n next
  | n + 1, .ask _ next => ∀ answer, EndsWithin n (next answer)

theorem done_endsWithin (n : Nat) (result : Except Error α) : EndsWithin n (.done result) := by
  cases n <;> trivial

theorem failed_endsWithin (n : Nat) (event : Event) (e : Error) :
    (failed event e : Call α).EndsWithin (n + 1) := done_endsWithin n _

theorem reportWinner_endsWithin (n : Nat) (key : Key) (now : Instant) (failure : Event)
    (give : Attempt → α) : (reportWinner key now failure give).EndsWithin (n + 3) := by
  intro answer
  dsimp only
  split
  · exact done_endsWithin _ _
  · exact done_endsWithin _ _
  · exact failed_endsWithin n failure _

theorem write_endsWithin (n : Nat) (c : Claim) (timing : LeaseTiming) (now : Instant) (free : Bool)
    (failure : Event) (give : Attempt → α) :
    (write c timing now free failure give).EndsWithin (n + 4) := by
  unfold write
  cases c.lease? timing now with
  | error e => exact failed_endsWithin _ failure e
  | ok lease =>
    intro answer
    dsimp only
    split
    · exact done_endsWithin _ _
    · split
      · exact reportWinner_endsWithin n c.key now failure give
      · exact failed_endsWithin _ failure _

theorem contend_endsWithin (n : Nat) (c : Claim) (timing : LeaseTiming) (failure : Event)
    (give : Attempt → α) : (contend c timing failure give).EndsWithin (n + 6) := by
  intro now answer
  dsimp only
  split
  · exact failed_endsWithin _ failure _
  · exact write_endsWithin n c timing now true failure give
  · split
    · exact write_endsWithin n c timing now false failure give
    · exact done_endsWithin _ _

end Call

/-! ## The calls that serve operations -/

namespace Operation

theorem mayAsk_get (timing : LeaseTiming) (operation : Operation) (reading : Option Instant) :
    operation.MayAsk timing reading (.get operation.key) := rfl

theorem mayAsk_put (timing : LeaseTiming) {operation : Operation} {c : Claim}
    (hc : operation.claim? = some c) (now : Instant) (r : Reservation)
    (h : c.lease? timing now = .ok r) :
    operation.MayAsk timing (some now) (.createOrUpdate r now) := ⟨rfl, c, hc, h⟩

/-- Whatever a call is told, it asks only what its operation may ask. -/
theorem call_obeys (timing : LeaseTiming) (operation : Operation) :
    (operation.call timing).Obeys (operation.MayAsk timing) none := by
  cases operation with
  | reserve c =>
    show (Call.reserve timing c Reply.reserved).Obeys _ _
    unfold Call.reserve
    split
    · trivial
    · refine ⟨rfl, fun answer => ?_⟩
      dsimp only
      split
      · trivial
      · exact Call.contend_obeys (mayAsk_get timing (.reserve c)) (mayAsk_put timing rfl) _ _
      · exact Call.failed_obeys _ _
  | extend c =>
    show (Call.extend timing c Reply.extended).Obeys _ _
    unfold Call.extend
    split
    · trivial
    · exact Call.contend_obeys (mayAsk_get timing (.extend c)) (mayAsk_put timing rfl) _ _
  | release key =>
    show (Call.release key Reply.released).Obeys _ _
    unfold Call.release
    split
    · trivial
    · refine ⟨rfl, fun answer => ?_⟩
      dsimp only
      split
      · trivial
      · exact Call.failed_obeys _ _
  | get key =>
    show (Call.get timing key Reply.found).Obeys _ _
    unfold Call.get
    split
    · trivial
    · refine ⟨rfl, fun answer => ?_⟩
      dsimp only
      split
      · trivial
      · trivial

/-- Whatever a call is told, it ends within seven steps. -/
theorem call_endsWithin (timing : LeaseTiming) (operation : Operation) :
    (operation.call timing).EndsWithin 7 := by
  cases operation with
  | reserve c =>
    show (Call.reserve timing c Reply.reserved).EndsWithin 7
    unfold Call.reserve
    split
    · exact Call.done_endsWithin _ _
    · intro answer
      dsimp only
      split
      · exact Call.done_endsWithin _ _
      · exact Call.contend_endsWithin 0 c timing _ _
      · exact Call.failed_endsWithin _ _ _
  | extend c =>
    show (Call.extend timing c Reply.extended).EndsWithin 7
    unfold Call.extend
    split
    · exact Call.done_endsWithin _ _
    · exact Call.contend_endsWithin 1 c timing _ _
  | release key =>
    show (Call.release key Reply.released).EndsWithin 7
    unfold Call.release
    split
    · exact Call.done_endsWithin _ _
    · intro answer
      dsimp only
      split
      · exact Call.done_endsWithin _ _
      · exact Call.failed_endsWithin _ _ _
  | get key =>
    show (Call.get timing key Reply.found).EndsWithin 7
    unfold Call.get
    split
    · exact Call.done_endsWithin _ _
    · intro answer
      dsimp only
      split
      · exact Call.done_endsWithin _ _
      · exact Call.done_endsWithin _ _

end Operation

end LeaseCatalog
