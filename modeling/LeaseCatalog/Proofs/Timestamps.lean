import LeaseCatalog.Proofs.Calendar
import LeaseCatalog.Proofs.Instants
import LeaseCatalog.Time.Timestamp

/-!
# The texts of instants in rows

An instant has a text exactly if its year lies in 0 to 9999 (`encode?_eq`); all texts have the same
length (`length_rowText`). Reading the text of an instant gives what is kept of it (`decode_text`),
and the order of two texts is the order of what is kept of their instants (`text_le_iff`). So
whoever compares texts and whoever compares the instants that he reads from them come to the same
result. The form of documents has as many digits as it needs and is read as the instant that it
shows (`decode_document`).

A text is a run of numbers of fixed width with a fixed sign after each, so two texts compare as the
lists of their numbers do. The calendar says that these lists are in order.
-/

namespace LeaseCatalog

/-! ## Computations that may fail -/

@[simp] theorem ok_bind {ε α β : Type} (a : α) (f : α → Except ε β) :
    (Except.ok a >>= f) = f a := rfl

@[simp] theorem error_bind {ε α β : Type} (e : ε) (f : α → Except ε β) :
    (Except.error e >>= f) = .error e := rfl

/-! ## Numbers of fixed width -/

namespace Decimal

theorem isDigit_of_mem_padded {width n : Nat} {c : Char} (h : c ∈ padded width n) :
    c.isDigit = true := by
  induction width generalizing n with
  | zero => exact absurd h List.not_mem_nil
  | succ width ih =>
    rw [padded, List.mem_append, List.mem_singleton] at h
    rcases h with h | rfl
    · exact ih h
    · rw [Nat.isDigit_digitChar, decide_eq_true_eq]
      exact Nat.mod_lt _ (by decide)

theorem padded_injective {width m n : Nat} (hm : m < Nat.pow 10 width) (hn : n < Nat.pow 10 width)
    (h : padded width m = padded width n) : m = n := by
  rw [← value_padded hm, ← value_padded hn, h]

/-- Texts with beginnings of the same length are compared by these first. -/
theorem append_lt_append_iff {a b c d : List Char} (h : a.length = b.length) :
    a ++ c < b ++ d ↔ a < b ∨ a = b ∧ c < d := by
  induction a generalizing b with
  | nil =>
    cases b with
    | nil => simp
    | cons y b => simp at h
  | cons x a ih =>
    cases b with
    | nil => simp at h
    | cons y b =>
      rw [List.cons_append, List.cons_append, List.cons_lt_cons_iff, List.cons_lt_cons_iff,
        ih (by simpa using h), List.cons_eq_cons]
      tauto

theorem digitChar_lt_digitChar {m n : Nat} (hm : m < 10) (hn : n < 10) :
    Nat.digitChar m < Nat.digitChar n ↔ m < n := by
  rw [Char.lt_def, UInt32.lt_iff_toNat_lt]
  change (Nat.digitChar m).toNat < (Nat.digitChar n).toNat ↔ _
  rw [Nat.toNat_digitChar_of_lt_ten hm, Nat.toNat_digitChar_of_lt_ten hn]
  omega

/-- Numbers of the same width are in the order of their texts. -/
theorem padded_lt_padded {width m n : Nat} (hm : m < Nat.pow 10 width) (hn : n < Nat.pow 10 width) :
    padded width m < padded width n ↔ m < n := by
  induction width generalizing m n with
  | zero =>
    have : m = 0 ∧ n = 0 := by constructor <;> simpa using ‹_ < Nat.pow 10 0›
    simp [padded, this]
  | succ width ih =>
    have hm' : m / 10 < Nat.pow 10 width := (Nat.div_lt_iff_lt_mul (by decide)).mpr hm
    have hn' : n / 10 < Nat.pow 10 width := (Nat.div_lt_iff_lt_mul (by decide)).mpr hn
    have eq : padded width (m / 10) = padded width (n / 10) ↔ m / 10 = n / 10 :=
      ⟨padded_injective hm' hn', fun e => by rw [e]⟩
    rw [padded, padded, append_lt_append_iff (by simp), ih hm' hn', eq, List.cons_lt_cons_iff,
      digitChar_lt_digitChar (Nat.mod_lt _ (by decide)) (Nat.mod_lt _ (by decide))]
    simp only [List.not_lt_nil, and_false, or_false]
    omega

theorem padded_append_lt_iff {width m n : Nat} (hm : m < Nat.pow 10 width)
    (hn : n < Nat.pow 10 width) {a b : List Char} :
    padded width m ++ a < padded width n ++ b ↔ m < n ∨ m = n ∧ a < b := by
  have eq : padded width m = padded width n ↔ m = n :=
    ⟨padded_injective hm hn, fun e => by rw [e]⟩
  rw [append_lt_append_iff (by simp), padded_lt_padded hm hn, eq]

end Decimal

/-- Whether a row can hold an instant. -/
def Instant.Storable (t : Instant) : Prop := 0 ≤ t.date.year ∧ t.date.year ≤ 9999

instance (t : Instant) : Decidable t.Storable :=
  inferInstanceAs (Decidable (0 ≤ t.date.year ∧ t.date.year ≤ 9999))

namespace Timestamp

open Decimal

/-! ## Writing -/

/-- The characters of the text of an instant. -/
def rowText (t : Instant) : List Char :=
  dateText t.date ++ 'T' :: timeText t ++ microsText t ++ ['Z']

/-- The text of an instant in a row. -/
def text (t : Instant) : String := String.ofList (rowText t)

/-- Only the instants that rows can hold have a text. -/
theorem encode?_eq (t : Instant) : encode? t = if t.Storable then some (text t) else none := rfl

/-- The second of the minute that a row shows; it is the 60th in a leap second. -/
def shownSecond (t : Instant) : Nat := t.secondOfDay % 60 + if 1000000000 ≤ t.nanos then 1 else 0

/-- The microseconds of the second that a row shows. -/
def shownMicros (t : Instant) : Nat := t.nanos % 1000000000 / 1000

theorem secondOfDay_lt (t : Instant) : t.secondOfDay < 86400 := by
  unfold Instant.secondOfDay
  omega

theorem shownSecond_le (t : Instant) : shownSecond t ≤ 60 := by
  unfold shownSecond
  split_ifs <;> omega

theorem shownMicros_lt (t : Instant) : shownMicros t < 1000000 := by
  unfold shownMicros
  omega

theorem date_bounds (t : Instant) : t.date.month < 100 ∧ t.date.day < 100 := by
  have h := (Date.exists?_iff t.date).mp (Date.exists?_ofDays t.days)
  have := Date.daysInMonth_le t.date.year t.date.month
  omega

theorem rowText_eq {t : Instant} (h : t.Storable) :
    rowText t = padded 4 t.date.year.toNat ++ '-' :: (padded 2 t.date.month ++ '-' ::
      (padded 2 t.date.day ++ 'T' :: (padded 2 (t.secondOfDay / 3600) ++ ':' ::
        (padded 2 (t.secondOfDay / 60 % 60) ++ ':' :: (padded 2 (shownSecond t) ++ '.' ::
          (padded 6 (shownMicros t) ++ ['Z'])))))) := by
  have hy : yearText t.date.year = padded 4 t.date.year.toNat := if_pos h
  simp only [rowText, dateText, timeText, microsText, hy, List.append_assoc, List.cons_append]
  rfl

/-- Instants with the same whole microseconds have the same text. -/
theorem rowText_congr {a b : Instant} (h : a.truncate = b.truncate) : rowText a = rowText b := by
  obtain ⟨hsec, hn⟩ := Instant.ext_iff.mp h
  change a.seconds = b.seconds at hsec
  change a.nanos / 1000 * 1000 = b.nanos / 1000 * 1000 at hn
  have date : a.date = b.date := by
    unfold Instant.date Instant.days
    rw [hsec]
  have day : a.secondOfDay = b.secondOfDay := by
    unfold Instant.secondOfDay
    rw [hsec]
  have leap : 1000000000 ≤ a.nanos ↔ 1000000000 ≤ b.nanos := by omega
  have micros : a.nanos % 1000000000 / 1000 = b.nanos % 1000000000 / 1000 := by omega
  unfold rowText timeText microsText
  simp only [date, day, leap, micros]

/-- The second that an instant shows lies in the same minute. -/
theorem minute_shown (t : Instant) : t.shown.seconds / 60 = t.seconds / 60 := by
  unfold Instant.shown
  split_ifs with h
  · have := h.2
    dsimp only
    omega
  · rfl

theorem date_shown (t : Instant) : t.shown.date = t.date := by
  have := minute_shown t
  unfold Instant.date Instant.days
  congr 1
  omega

theorem storable_shown {t : Instant} : t.shown.Storable ↔ t.Storable := by
  unfold Instant.Storable
  rw [date_shown]

theorem storable_kept {t : Instant} : t.kept.Storable ↔ t.Storable := storable_shown

theorem nanos_shown (t : Instant) : t.shown.nanos % 1000000000 = t.nanos % 1000000000 := by
  unfold Instant.shown
  split_ifs with h
  · have := h.1
    dsimp only
    omega
  · rfl

theorem timeText_shown (t : Instant) : timeText t.shown = timeText t := by
  have minute := minute_shown t
  have hour : t.shown.secondOfDay / 3600 = t.secondOfDay / 3600 := by
    unfold Instant.secondOfDay
    omega
  have minuteOfHour : t.shown.secondOfDay / 60 % 60 = t.secondOfDay / 60 % 60 := by
    unfold Instant.secondOfDay
    omega
  have second : shownSecond t.shown = shownSecond t := by
    have := t.nanos_lt
    unfold shownSecond Instant.secondOfDay Instant.shown
    split_ifs with h <;> unfold Instant.OffMinute at h <;> dsimp only at * <;> omega
  unfold timeText
  unfold shownSecond at second
  simp only [hour, minuteOfHour, second]

theorem text_shown (t : Instant) : text t.shown = text t := by
  unfold text rowText microsText
  rw [date_shown, timeText_shown, nanos_shown]

theorem document_shown (t : Instant) : document t.shown = document t := by
  unfold document fractionText
  rw [date_shown, timeText_shown, nanos_shown]

/-! ## Reading -/

/-- A text has at least as many bytes as characters. -/
theorem length_le_byteLength (a : List Char) : a.length ≤ byteLength a := by
  induction a with
  | nil => exact Nat.le_refl _
  | cons c a ih =>
    have := c.utf8Size_pos
    rw [byteLength, List.length_cons]
    omega

theorem readNumber_padded {width n : Nat} (h : n < Nat.pow 10 width) (rest : List Char) :
    readNumber width (padded width n ++ rest) = .ok (n, rest) := by
  have hlen : ¬ byteLength (padded width n ++ rest) < width := by
    have := length_le_byteLength (padded width n ++ rest)
    rw [List.length_append, length_padded] at this
    omega
  have hdig : (padded width n).all Char.isDigit = true :=
    List.all_eq_true.mpr fun _ hc => isDigit_of_mem_padded hc
  unfold readNumber
  rw [if_neg hlen, List.take_left' (length_padded width n), List.drop_left' (length_padded width n),
    if_pos hdig, value_padded h]

theorem readOneOf_cons {allowed : List Char} {c : Char} (h : c ∈ allowed) (rest : List Char) :
    readOneOf allowed (c :: rest) = .ok rest := if_pos h

theorem readDate_rowText {t : Instant} (h : t.Storable) (rest : List Char) :
    readDate (padded 4 t.date.year.toNat ++ '-' :: (padded 2 t.date.month ++ '-' ::
      (padded 2 t.date.day ++ rest))) = .ok (t.date, rest) := by
  obtain ⟨hm, hd⟩ := date_bounds t
  have hy : t.date.year.toNat < 10000 := by have := h.1; have := h.2; omega
  have hyear : ((t.date.year.toNat : Nat) : Int) = t.date.year := Int.toNat_of_nonneg h.1
  unfold readDate
  rw [readNumber_padded hy, ok_bind]
  dsimp only
  rw [readOneOf_cons (by simp), ok_bind, readNumber_padded hm, ok_bind]
  dsimp only
  rw [readOneOf_cons (by simp), ok_bind, readNumber_padded hd, ok_bind]
  dsimp only
  rw [hyear]
  exact if_pos (Date.exists?_ofDays t.days)

/-- A fraction of up to nine digits is read in nanoseconds, whatever comes next but a digit. -/
theorem readFraction_padded {width n : Nat} (h : n < Nat.pow 10 width)
    (bounds : 0 < width ∧ width ≤ 9) {rest : List Char}
    (stop : ∀ c ∈ rest.head?, c.isDigit = false) :
    readFraction ('.' :: (padded width n ++ rest)) = .ok (n * Nat.pow 10 (9 - width), rest) := by
  have digits : ∀ c ∈ padded width n, c.isDigit = true := fun _ hc => isDigit_of_mem_padded hc
  have none : rest.takeWhile Char.isDigit = [] ∧ rest.dropWhile Char.isDigit = rest := by
    cases rest with
    | nil => exact ⟨rfl, rfl⟩
    | cons c rest => simp [stop c rfl]
  have taken : (padded width n ++ rest).takeWhile Char.isDigit = padded width n := by
    rw [List.takeWhile_append_of_pos digits, none.1, List.append_nil]
  have left : (padded width n ++ rest).dropWhile Char.isDigit = rest := by
    rw [List.dropWhile_append_of_pos digits, none.2]
  have some : padded width n ≠ [] := by
    rw [← List.length_pos_iff, length_padded]
    exact bounds.1
  obtain ⟨c, tail, e⟩ : ∃ c tail, padded width n ++ rest = c :: tail :=
    List.exists_cons_of_ne_nil (by simp [some])
  have unfolded : readFraction ('.' :: c :: tail) =
      if (c :: tail).takeWhile Char.isDigit = [] then .error .invalid
      else .ok (value (((c :: tail).takeWhile Char.isDigit).take 9) *
        Nat.pow 10 (9 - (((c :: tail).takeWhile Char.isDigit).take 9).length),
        (c :: tail).dropWhile Char.isDigit) := rfl
  rw [e, unfolded, ← e, taken, left, if_neg some,
    List.take_of_length_le (by rw [length_padded]; exact bounds.2), value_padded h, length_padded]

/-- The nanoseconds that a leap second adds to those of its fraction. -/
def leapNanos (t : Instant) : Nat := if 1000000000 ≤ t.nanos then 1000000000 else 0

/-- The time of day that is shown is that of the instant; a 60th second gives back the leap
second. -/
theorem timeOfDay?_shown {t : Instant} (regular : ¬ t.OffMinute) (n : Nat) :
    timeOfDay? (t.secondOfDay / 3600) (t.secondOfDay / 60 % 60) (shownSecond t) n =
      some (t.secondOfDay, n + leapNanos t) := by
  have hs := secondOfDay_lt t
  unfold timeOfDay?
  rw [if_pos ⟨by omega, by omega, shownSecond_le t⟩]
  unfold shownSecond leapNanos Instant.secondOfDay Instant.OffMinute at *
  split_ifs with h1 h2 h2
  · exact congrArg some (Prod.ext (by dsimp only; omega) rfl)
  · omega
  · omega
  · exact congrArg some (Prod.ext (by dsimp only; omega) rfl)

/-- A time of day is read with the fraction that follows. -/
theorem readTime_shown {t : Instant} (regular : ¬ t.OffMinute) {n : Nat}
    {fraction rest : List Char} (h : readFraction fraction = .ok (n, rest)) :
    readTime (padded 2 (t.secondOfDay / 3600) ++ ':' ::
        (padded 2 (t.secondOfDay / 60 % 60) ++ ':' :: (padded 2 (shownSecond t) ++ fraction))) =
      .ok ((t.secondOfDay, n + leapNanos t), rest) := by
  have hs := secondOfDay_lt t
  have hh : t.secondOfDay / 3600 < Nat.pow 10 2 := by change _ < 100; omega
  have hm : t.secondOfDay / 60 % 60 < Nat.pow 10 2 := by change _ < 100; omega
  have hsec : shownSecond t < Nat.pow 10 2 := by
    have := shownSecond_le t
    change _ < 100
    omega
  unfold readTime
  rw [readNumber_padded hh, ok_bind]
  dsimp only
  rw [readOneOf_cons (by simp), ok_bind, readNumber_padded hm, ok_bind]
  dsimp only
  rw [readOneOf_cons (by simp), ok_bind, readNumber_padded hsec, ok_bind]
  dsimp only
  rw [h, ok_bind]
  dsimp only
  rw [timeOfDay?_shown regular]

/-- Day and time of day give the instant back. -/
theorem instantOf_eq {t : Instant} (regular : ¬ t.OffMinute) :
    instantOf t.date (t.secondOfDay, t.nanos) 0 = .ok t := by
  have hsec : t.date.toDays * 86400 + (t.secondOfDay : Nat) - 0 = t.seconds := by
    unfold Instant.date Instant.secondOfDay Instant.days
    rw [Date.toDays_ofDays]
    omega
  have hof : Instant.ofParts? t.seconds t.nanos = some t :=
    Instant.ofParts?_eq_some_iff.mpr ⟨regular, rfl, rfl⟩
  unfold instantOf
  rw [if_neg (by decide)]
  dsimp only
  rw [hsec, hof]

/-- Whatever fraction is shown, day, time and fraction are read from it, and the offset that
follows. -/
theorem decode_shown {t : Instant} (h : t.Storable) (regular : ¬ t.OffMinute) {n : Nat}
    {fraction zone : List Char} (read : readFraction (fraction ++ zone) = .ok (n, zone))
    (utc : readOffset zone = .ok (0, [])) :
    decode (String.ofList (dateText t.date ++ 'T' :: timeText t ++ fraction ++ zone)) =
      instantOf t.date (t.secondOfDay, n + leapNanos t) 0 := by
  have shown : dateText t.date ++ 'T' :: timeText t ++ fraction ++ zone =
      padded 4 t.date.year.toNat ++ '-' :: (padded 2 t.date.month ++ '-' ::
        (padded 2 t.date.day ++ 'T' :: (padded 2 (t.secondOfDay / 3600) ++ ':' ::
          (padded 2 (t.secondOfDay / 60 % 60) ++ ':' ::
            (padded 2 (shownSecond t) ++ (fraction ++ zone)))))) := by
    have hy : yearText t.date.year = padded 4 t.date.year.toNat := if_pos h
    simp only [dateText, timeText, hy, List.append_assoc, List.cons_append]
    rfl
  have long : ¬ byteLength (dateText t.date ++ 'T' :: timeText t ++ fraction ++ zone) <
      minBytes := by
    have := length_le_byteLength (dateText t.date ++ 'T' :: timeText t ++ fraction ++ zone)
    rw [shown] at this ⊢
    simp only [List.length_append, List.length_cons, length_padded] at this
    unfold minBytes
    omega
  unfold decode
  rw [String.toList_ofList, if_neg long, shown, readDate_rowText h, ok_bind]
  dsimp only
  rw [readOneOf_cons (by simp), ok_bind, readTime_shown regular read, ok_bind]
  dsimp only
  rw [utc, ok_bind]
  dsimp only
  rw [if_pos rfl]

theorem decode_text_of_not_offMinute {t : Instant} (h : t.Storable) (regular : ¬ t.OffMinute) :
    decode (text t) = .ok t.truncate := by
  have read : readFraction (microsText t ++ ['Z']) = .ok (shownMicros t * 1000, ['Z']) :=
    readFraction_padded (shownMicros_lt t) (by decide) (by simp)
  have nanos : shownMicros t * 1000 + leapNanos t = t.truncate.nanos := by
    have := t.nanos_lt
    unfold shownMicros leapNanos Instant.truncate
    split_ifs <;> dsimp only <;> omega
  have parts : instantOf t.date (t.secondOfDay, t.truncate.nanos) 0 = .ok t.truncate :=
    instantOf_eq (Instant.offMinute_truncate.not.mpr regular)
  rw [← parts, ← nanos]
  exact decode_shown h regular read rfl

/-- Reading the text of an instant gives what is kept of it. -/
theorem decode_text {t : Instant} (h : t.Storable) : decode (text t) = .ok t.kept := by
  rw [← text_shown]
  exact decode_text_of_not_offMinute (storable_shown.mpr h) t.not_offMinute_shown

theorem readFraction_fractionText (t : Instant) :
    readFraction (fractionText t ++ ['+', '0', '0', ':', '0', '0']) =
      .ok (t.nanos % 1000000000, ['+', '0', '0', ':', '0', '0']) := by
  have lt : t.nanos % 1000000000 < 1000000000 := Nat.mod_lt _ (by decide)
  have sign : ∀ c ∈ ['+', '0', '0', ':', '0', '0'].head?, c.isDigit = false := by
    rintro _ ⟨⟩
    rfl
  unfold fractionText
  generalize t.nanos % 1000000000 = n at lt ⊢
  dsimp only
  split_ifs with whole millis micros
  · rw [whole]
    rfl
  · have small : n / 1000000 < Nat.pow 10 3 := by change _ < 1000; omega
    have eq : n / 1000000 * Nat.pow 10 (9 - 3) = n := by change n / 1000000 * 1000000 = n; omega
    rw [List.cons_append, readFraction_padded small (by decide) sign, eq]
  · have small : n / 1000 < Nat.pow 10 6 := by change _ < 1000000; omega
    have eq : n / 1000 * Nat.pow 10 (9 - 6) = n := by change n / 1000 * 1000 = n; omega
    rw [List.cons_append, readFraction_padded small (by decide) sign, eq]
  · have eq : n * Nat.pow 10 (9 - 9) = n := Nat.mul_one n
    rw [List.cons_append, readFraction_padded lt (by decide) sign, eq]

theorem decode_document_of_not_offMinute {t : Instant} (h : t.Storable)
    (regular : ¬ t.OffMinute) : decode (document t) = .ok t := by
  have nanos : t.nanos % 1000000000 + leapNanos t = t.nanos := by
    have := t.nanos_lt
    unfold leapNanos
    split_ifs <;> omega
  have read := decode_shown h regular (readFraction_fractionText t) rfl
  rw [nanos, instantOf_eq regular] at read
  exact read

/-- Documents give back the instant that they show, to the nanosecond. -/
theorem decode_document {t : Instant} (h : t.Storable) : decode (document t) = .ok t.shown := by
  rw [← document_shown]
  exact decode_document_of_not_offMinute (storable_shown.mpr h) t.not_offMinute_shown

/-! ## Order -/

/-- Texts compare as day, minute, second and microsecond do. -/
theorem rowText_lt_iff {a b : Instant} (ha : a.Storable) (hb : b.Storable) :
    rowText a < rowText b ↔
      a.date.Before b.date ∨ a.date = b.date ∧
        (a.secondOfDay / 60 < b.secondOfDay / 60 ∨ a.secondOfDay / 60 = b.secondOfDay / 60 ∧
          (shownSecond a < shownSecond b ∨ shownSecond a = shownSecond b ∧
            shownMicros a < shownMicros b)) := by
  obtain ⟨ham, had⟩ := date_bounds a
  obtain ⟨hbm, hbd⟩ := date_bounds b
  have hsa := secondOfDay_lt a
  have hsb := secondOfDay_lt b
  have hsha := shownSecond_le a
  have hshb := shownSecond_le b
  have p4 : Nat.pow 10 4 = 10000 := rfl
  have p2 : Nat.pow 10 2 = 100 := rfl
  rw [rowText_eq ha, rowText_eq hb, Date.eq_iff]
  unfold Date.Before
  unfold Instant.Storable at ha hb
  rw [padded_append_lt_iff (by omega) (by omega), List.cons_lt_cons_self,
    padded_append_lt_iff (by omega) (by omega), List.cons_lt_cons_self,
    padded_append_lt_iff (by omega) (by omega), List.cons_lt_cons_self,
    padded_append_lt_iff (by omega) (by omega), List.cons_lt_cons_self,
    padded_append_lt_iff (by omega) (by omega), List.cons_lt_cons_self,
    padded_append_lt_iff (by omega) (by omega), List.cons_lt_cons_self,
    padded_append_lt_iff (shownMicros_lt a) (shownMicros_lt b)]
  have irr : ¬ ['Z'] < ['Z'] := List.lt_irrefl _
  simp only [irr, and_false, or_false]
  omega

theorem rowText_lt_of_lt {a b : Instant} (ha : a.Storable) (hb : b.Storable)
    (regular : ¬ a.OffMinute) (regular' : ¬ b.OffMinute) (h : a.truncate < b.truncate) :
    rowText a < rowText b := by
  rw [Instant.lt_def] at h
  unfold Instant.truncate at h
  dsimp only at h
  rw [rowText_lt_iff ha hb]
  by_cases days : a.days = b.days
  · have date : a.date = b.date := congrArg Date.ofDays days
    have hna := a.nanos_lt
    have hnb := b.nanos_lt
    refine .inr ⟨date, ?_⟩
    unfold Instant.OffMinute at regular regular'
    unfold shownSecond shownMicros Instant.secondOfDay
    unfold Instant.days at days
    split_ifs <;> omega
  · refine .inl (Date.before_ofDays ?_)
    unfold Instant.days at *
    omega

theorem text_le_iff_of_not_offMinute {a b : Instant} (ha : a.Storable) (hb : b.Storable)
    (regular : ¬ a.OffMinute) (regular' : ¬ b.OffMinute) :
    text a ≤ text b ↔ a.truncate ≤ b.truncate := by
  change ¬ (String.ofList (rowText b)).toList < (String.ofList (rowText a)).toList ↔ _
  rw [String.toList_ofList, String.toList_ofList]
  constructor
  · intro h
    by_contra hlt
    exact h (rowText_lt_of_lt hb ha regular' regular (Instant.not_le.mp hlt))
  · intro h hlt
    by_cases e : a.truncate = b.truncate
    · rw [rowText_congr e] at hlt
      exact List.lt_irrefl _ hlt
    · have := rowText_lt_of_lt ha hb regular regular' (Instant.lt_of_le_of_ne h e)
      exact List.lt_asymm this hlt

/-- The order of two texts is the order of what is kept of their instants. -/
theorem text_le_iff {a b : Instant} (ha : a.Storable) (hb : b.Storable) :
    text a ≤ text b ↔ a.kept ≤ b.kept := by
  rw [← text_shown a, ← text_shown b]
  exact text_le_iff_of_not_offMinute (storable_shown.mpr ha) (storable_shown.mpr hb)
    a.not_offMinute_shown b.not_offMinute_shown

theorem text_kept (t : Instant) : text t.kept = text t :=
  (congrArg String.ofList (rowText_congr t.shown.truncate_truncate)).trans (text_shown t)

/-- Two texts are the same only if what is kept of their instants is. -/
theorem text_inj {a b : Instant} (ha : a.Storable) (hb : b.Storable) :
    text a = text b ↔ a.kept = b.kept := by
  constructor
  · intro h
    have := decode_text ha
    rw [h, decode_text hb] at this
    exact (Except.ok.inj this).symm
  · intro h
    rw [← text_kept a, ← text_kept b, h]

end Timestamp

end LeaseCatalog
