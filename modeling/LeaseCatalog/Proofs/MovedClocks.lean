import LeaseCatalog.Proofs.Instants

/-!
# How far clocks are moved

A clock that is moved by hand ought to show what exact arithmetic in microseconds gives, cut to the
first and last instants (`Move.due`): the instant that it is set to, or what it showed before and the
span that it is advanced by. It does so with every move but those of `Move.Short`, and those it never
makes exactly (`ManualClock.moves_exact_unless_short`).

There are three places at which an advance is cut: the span, to the microseconds that 64 bits hold,
then the sum, to the same, then the result, to the instants. The last two are one cut to the
instants, because all instants lie well within 64 bits. The first is not: 64 bits of microseconds
are less than the whole of time, so from far enough below the last instant the longest span does not
lead up to it. Setting a clock cuts nothing, so an instant in a leap second at the very end puts it
beyond all instants, and it then shows the epoch.
-/

namespace LeaseCatalog

namespace Instant

/-! ## The ends of time in microseconds -/

theorem first_micros : first.micros = -8334601228800000000 := rfl

theorem last_micros : last.micros = 8210266876799999999 := rfl

/-- The number of microseconds nearest to `n` that lies between the first and the last instant. -/
def cutMicros (n : Int) : Int := max first.micros (min n last.micros)

theorem first_micros_le (t : Instant) : first.micros ≤ t.micros := by
  have := t.seconds_ge
  rw [first_micros]
  unfold micros
  omega

theorem cutMicros_of_le {n : Int} (low : first.micros ≤ n) (high : n ≤ last.micros) :
    cutMicros n = n := by
  unfold cutMicros
  omega

theorem cutMicros_of_lt {n : Int} (h : last.micros < n) : cutMicros n = last.micros := by
  rw [last_micros] at h
  unfold cutMicros
  rw [first_micros, last_micros]
  omega

/-- Between the ends of time every microsecond is an instant. -/
theorem exists_ofMicros? {n : Int} (low : first.micros ≤ n) (high : n ≤ last.micros) :
    ∃ t, ofMicros? n = some t ∧ t.micros = n := by
  rw [first_micros] at low
  rw [last_micros] at high
  have parts : minSeconds ≤ n / 1000000 ∧ n / 1000000 ≤ maxSeconds ∧
      (n % 1000000).toNat * 1000 < 2000000000 ∧
      (1000000000 ≤ (n % 1000000).toNat * 1000 → n / 1000000 % 60 = 59) := by
    unfold minSeconds maxSeconds
    omega
  refine ⟨_, dif_pos parts, ?_⟩
  unfold micros
  dsimp only
  omega

/-- Beyond the last instant there are none. -/
theorem ofMicros?_of_lt {n : Int} (h : last.micros < n) : ofMicros? n = none := by
  rw [last_micros] at h
  refine dif_neg ?_
  rintro ⟨-, late, -⟩
  unfold maxSeconds at late
  omega

end Instant

namespace ManualClock

open Instant (cutMicros)

/-! ## Single moves -/

/-- What a clock ought to show after a move, in microseconds, if it counted `count` before. -/
def Move.due (count : Int) : Move → Int
  | .set target => cutMicros target.micros
  | .advance span => cutMicros (count + span.micros)

/-- A move of which a clock that counts `count` falls short. -/
inductive Move.Short (count : Int) : Move → Prop where
  /-- It is set to an instant in a leap second after which there is no minute. -/
  | beyond {target : Instant} (late : Instant.last.micros < target.micros) :
      Short count (.set target)
  /-- It is advanced by more microseconds than 64 bits hold, and as many as they hold do not lead to
  the last instant. -/
  | forwards {span : Span} (long : 9223372036854775807 < span.micros)
      (far : count + 9223372036854775807 < Instant.last.micros) : Short count (.advance span)
  /-- The same backwards, towards the first instant. -/
  | backwards {span : Span} (long : span.micros < -9223372036854775808)
      (far : Instant.first.micros < count - 9223372036854775808) : Short count (.advance span)

/-- What a clock shows after a move of which it falls short. -/
def Move.shortened (count : Int) : Move → Int
  | .set _ => 0
  | .advance span => count + saturate span.micros

/-- What a clock counts stays between the first instant and the end of the last leap second. -/
def Sound (c : ManualClock) : Prop :=
  Instant.first.micros ≤ c.micros ∧ c.micros ≤ Instant.last.micros + 1000000

theorem sound_startingAt (t : Instant) : (startingAt t).Sound := by
  have low := t.seconds_ge
  have high := t.seconds_le
  have nanos := t.nanos_lt
  unfold Sound startingAt
  rw [Instant.first_micros, Instant.last_micros]
  unfold Instant.micros
  dsimp only
  omega

theorem advance_bounds (c : ManualClock) (span : Span) :
    Instant.first.micros ≤ (c.advance span).micros ∧
      (c.advance span).micros ≤ Instant.last.micros := by
  have ends : Instant.first.micros ≤ Instant.last.micros := by decide
  unfold advance
  dsimp only
  omega

theorem sound_move (c : ManualClock) (move : Move) : (c.move move).Sound := by
  cases move with
  | set target => exact sound_startingAt target
  | advance span =>
    obtain ⟨low, high⟩ := c.advance_bounds span
    exact ⟨low, by change (c.advance span).micros ≤ _; omega⟩

/-- A clock shows what it counts, if there is such an instant. -/
theorem micros_now {c : ManualClock} (sound : c.Sound) (high : c.micros ≤ Instant.last.micros) :
    c.now.micros = c.micros := by
  obtain ⟨t, ht, hmicros⟩ := Instant.exists_ofMicros? sound.1 high
  unfold now
  rw [ht]
  exact hmicros

/-- Beyond the last instant it shows the epoch. -/
theorem now_of_lt {c : ManualClock} (h : Instant.last.micros < c.micros) :
    c.now = Instant.epoch := by
  unfold now
  rw [Instant.ofMicros?_of_lt h]
  rfl

/-- An advanced clock shows what it counts. -/
theorem micros_now_advance (c : ManualClock) (span : Span) :
    (c.move (.advance span)).now.micros = (c.advance span).micros :=
  micros_now (c.sound_move _) (c.advance_bounds span).2

/-- Cutting the span, the sum and the result is cutting the exact sum once, unless the span is cut
and what is left of it does not lead to the end of time. -/
theorem micros_advance {c : ManualClock} (sound : c.Sound) {span : Span}
    (whole : ¬ Move.Short c.micros (.advance span)) :
    (c.advance span).micros = cutMicros (c.micros + span.micros) := by
  obtain ⟨low, high⟩ := sound
  have forwards : 9223372036854775807 < span.micros →
      Instant.last.micros ≤ c.micros + 9223372036854775807 :=
    fun long => Int.not_lt.mp fun far => whole (.forwards long far)
  have backwards : span.micros < -9223372036854775808 →
      c.micros - 9223372036854775808 ≤ Instant.first.micros :=
    fun long => Int.not_lt.mp fun far => whole (.backwards long far)
  unfold advance cutMicros saturate
  rw [Instant.first_micros, Instant.last_micros] at *
  dsimp only
  omega

/-- Where the span is cut and what is left of it does not lead to the end of time, only the span is
cut, and the exact sum lies further on. -/
theorem micros_advance_of_short {c : ManualClock} (sound : c.Sound) {span : Span}
    (short : Move.Short c.micros (.advance span)) :
    (c.advance span).micros = c.micros + saturate span.micros ∧
      c.micros + saturate span.micros ≠ cutMicros (c.micros + span.micros) := by
  obtain ⟨low, high⟩ := sound
  have far : 9223372036854775807 < span.micros ∧
        c.micros + 9223372036854775807 < Instant.last.micros ∨
      span.micros < -9223372036854775808 ∧
        Instant.first.micros < c.micros - 9223372036854775808 := by
    cases short with
    | forwards long far => exact .inl ⟨long, far⟩
    | backwards long far => exact .inr ⟨long, far⟩
  unfold advance cutMicros saturate
  rw [Instant.first_micros, Instant.last_micros] at *
  dsimp only
  omega

/-- A clock makes a move of which it does not fall short. -/
theorem micros_now_move {c : ManualClock} (sound : c.Sound) {move : Move}
    (whole : ¬ move.Short c.micros) :
    (c.move move).micros = move.due c.micros ∧ (c.move move).now.micros = move.due c.micros := by
  cases move with
  | set target =>
    have high : target.micros ≤ Instant.last.micros := Int.not_lt.mp fun h => whole (.beyond h)
    have due : Move.due c.micros (.set target) = target.micros :=
      Instant.cutMicros_of_le target.first_micros_le high
    rw [due]
    exact ⟨rfl, micros_now (sound_startingAt target) high⟩
  | advance span =>
    have exactly := micros_advance sound whole
    exact ⟨exactly, (c.micros_now_advance span).trans exactly⟩

/-- Of the other moves it shows something else. -/
theorem micros_now_move_of_short {c : ManualClock} (sound : c.Sound) {move : Move}
    (short : move.Short c.micros) :
    (c.move move).now.micros = move.shortened c.micros ∧
      move.shortened c.micros ≠ move.due c.micros := by
  cases move with
  | set target =>
    obtain ⟨late⟩ := short
    have epoch : (c.move (.set target)).now = Instant.epoch := now_of_lt late
    have due : Move.due c.micros (.set target) = Instant.last.micros :=
      Instant.cutMicros_of_lt late
    have apart : (0 : Int) ≠ Instant.last.micros := by decide
    rw [epoch, due]
    exact ⟨rfl, apart⟩
  | advance span =>
    obtain ⟨shown, wrong⟩ := micros_advance_of_short sound short
    exact ⟨(c.micros_now_advance span).trans shown, wrong⟩

/-! ## Runs of moves -/

/-- A clock that was started at an instant and then moved. -/
def after (start : Instant) (moves : List Move) : ManualClock := moves.foldl move (startingAt start)

/-- What it ought to show then, in microseconds. -/
def due (start : Instant) (moves : List Move) : Int :=
  moves.foldl Move.due (cutMicros start.micros)

section Runs

variable {start : Instant} {moves : List Move} {m : Move} {n : Nat}

theorem after_concat (start : Instant) (moves : List Move) (m : Move) :
    after start (moves ++ [m]) = (after start moves).move m := List.foldl_concat ..

theorem due_concat (start : Instant) (moves : List Move) (m : Move) :
    due start (moves ++ [m]) = m.due (due start moves) := List.foldl_concat ..

theorem take_succ_of_getElem? (h : moves[n]? = some m) :
    moves.take (n + 1) = moves.take n ++ [m] := by
  rw [List.take_add_one, h]
  rfl

theorem sound_after (start : Instant) (moves : List Move) : (after start moves).Sound := by
  rcases List.eq_nil_or_concat moves with rfl | ⟨rest, m, rfl⟩
  · exact sound_startingAt start
  · rw [List.concat_eq_append, after_concat]
    exact sound_move _ m

/-- The instant that a clock was last put to, if it has not been advanced since. -/
def placed? (start : Instant) (moves : List Move) : Option Instant :=
  match moves.getLast? with
  | none => some start
  | some (.set target) => some target
  | some (.advance _) => none

/-- Only a clock that has just been put there stands beyond the last instant. -/
theorem placed_of_lt (h : Instant.last.micros < (after start moves).micros) :
    ∃ target, placed? start moves = some target ∧ Instant.last.micros < target.micros ∧
      due start moves = Instant.last.micros := by
  rcases List.eq_nil_or_concat moves with rfl | ⟨rest, m, rfl⟩
  · exact ⟨start, rfl, h, Instant.cutMicros_of_lt h⟩
  · rw [List.concat_eq_append] at h ⊢
    rw [after_concat] at h
    rw [due_concat]
    unfold placed?
    rw [List.getLast?_concat]
    cases m with
    | set target => exact ⟨target, rfl, h, Instant.cutMicros_of_lt h⟩
    | advance span =>
      have high := ((after start rest).advance_bounds span).2
      exact absurd h (Int.not_lt.mpr high)

/-- A clock that shows what it ought to counts that. -/
theorem micros_of_exact (h : (after start moves).now.micros = due start moves) :
    (after start moves).micros = due start moves := by
  rcases Int.lt_or_le Instant.last.micros (after start moves).micros with beyond | high
  · -- it would show the epoch, and ought to show the last instant
    obtain ⟨-, -, -, last⟩ := placed_of_lt beyond
    rw [now_of_lt beyond, last] at h
    exact absurd h (by decide)
  · rw [← h, micros_now (sound_after start moves) high]

/-- A clock that falls short of no move counts and shows what it ought to. -/
theorem exact_of_whole (first : start.micros ≤ Instant.last.micros)
    (whole : ∀ n (m : Move), moves[n]? = some m → ¬ m.Short (due start (moves.take n))) :
    ∀ n ≤ moves.length,
      (after start (moves.take n)).micros = due start (moves.take n) ∧
        (after start (moves.take n)).now.micros = due start (moves.take n) := by
  intro n
  induction n with
  | zero =>
    intro _
    have due : cutMicros start.micros = start.micros :=
      Instant.cutMicros_of_le start.first_micros_le first
    change start.micros = cutMicros start.micros ∧ _ = cutMicros start.micros
    rw [due]
    exact ⟨rfl, micros_now (sound_startingAt start) first⟩
  | succ n ih =>
    intro hn
    obtain ⟨counts, -⟩ := ih (Nat.le_of_succ_le hn)
    have hm : moves[n]? = some moves[n] := List.getElem?_eq_getElem hn
    have made : ¬ moves[n].Short (after start (moves.take n)).micros := by
      rw [counts]
      exact whole n _ hm
    rw [take_succ_of_getElem? hm, after_concat, due_concat, ← counts]
    exact micros_now_move (sound_after start _) made

end Runs

/-- From its start on, and after each of any number of moves, a clock shows what exact arithmetic
gives, cut to the first and last instants, exactly if it does not start beyond the last instant and
falls short of none of the moves. Wherever moves have brought a clock, it shows what it counts, or
has just been put beyond the last instant and shows the epoch; the next move brings it to where it is
due, unless it falls short of this one, and then it shows something else. -/
theorem moves_exact_unless_short (start : Instant) (moves : List Move) :
    ((∀ n ≤ moves.length,
        (after start (moves.take n)).now.micros = due start (moves.take n)) ↔
      start.micros ≤ Instant.last.micros ∧
        ∀ n (m : Move), moves[n]? = some m → ¬ m.Short (due start (moves.take n))) ∧
    ((after start moves).now.micros = (after start moves).micros ∨
      (after start moves).now = Instant.epoch ∧
        ∃ target, placed? start moves = some target ∧ Instant.last.micros < target.micros) ∧
    ∀ m : Move,
      (¬ m.Short (after start moves).micros →
        ((after start moves).move m).now.micros = m.due (after start moves).micros) ∧
      (m.Short (after start moves).micros →
        ((after start moves).move m).now.micros = m.shortened (after start moves).micros ∧
          m.shortened (after start moves).micros ≠ m.due (after start moves).micros) := by
  have sound := sound_after start moves
  refine ⟨⟨?_, ?_⟩, ?_, ?_⟩
  · intro exactly
    constructor
    · have counts : start.micros = cutMicros start.micros :=
        micros_of_exact (exactly 0 (Nat.zero_le _))
      unfold cutMicros at counts
      rw [Instant.first_micros, Instant.last_micros] at *
      omega
    · intro n m hm short
      have hn : n < moves.length := (List.getElem?_eq_some_iff.mp hm).1
      have counts := micros_of_exact (exactly n (Nat.le_of_lt hn))
      have shown := exactly (n + 1) hn
      rw [take_succ_of_getElem? hm, after_concat, due_concat] at shown
      rw [← counts] at short shown
      obtain ⟨shortened, wrong⟩ := micros_now_move_of_short (sound_after start _) short
      exact wrong (shortened.symm.trans shown)
  · rintro ⟨first, whole⟩ n hn
    exact (exact_of_whole first whole n hn).2
  · rcases Int.lt_or_le Instant.last.micros (after start moves).micros with beyond | high
    · obtain ⟨target, placed, late, -⟩ := placed_of_lt beyond
      exact .inr ⟨now_of_lt beyond, target, placed, late⟩
    · exact .inl (micros_now sound high)
  · intro m
    exact ⟨fun whole => (micros_now_move sound whole).2,
      fun short => micros_now_move_of_short sound short⟩

/-- An instant in a leap second after which there is no minute. -/
def leapAtTheEnd : Instant :=
  ⟨8210266876799, 1500000000, Instant.last.seconds_ge, Instant.last.seconds_le,
    Instant.strayLeap.nanos_lt⟩

/-- From the first instant the longest span leads to the year 30134, and not to the last instant; and
a clock that is put into the last leap second shows the epoch. -/
theorem longest_advance_falls_short :
    (after .first [.advance .longest]).now.micros = 888770808054775807 ∧
      due .first [.advance .longest] = Instant.last.micros ∧
      (after .epoch [.set leapAtTheEnd]).now = .epoch ∧
      due .epoch [.set leapAtTheEnd] = Instant.last.micros := by
  decide

end ManualClock

end LeaseCatalog
