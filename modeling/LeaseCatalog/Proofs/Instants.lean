import LeaseCatalog.Time.Clock
import Mathlib.Tactic

/-!
# Instants and their whole microseconds

Instants are linearly ordered, and an instant that is a whole number of microseconds compares with
another one as with the whole microseconds of that (`truncate_le_truncate_iff`).

Written forms cannot show a leap second within a minute: they show the second that comes next
(`shown`). What a row keeps of an instant is the whole microseconds of what is shown (`kept`), and
this is all of it that a row gives back. Clocks show whole microseconds and no leap seconds, so rows
keep what they show (`ManualClock.kept_now`), and they keep what comes a number of seconds later
(`kept_of_addSeconds?`).
-/

namespace LeaseCatalog

namespace Instant

/-! ## Order -/

theorem le_trans {a b c : Instant} (h : a ≤ b) (h' : b ≤ c) : a ≤ c := by
  rw [le_def] at *
  omega

theorem lt_of_le_of_ne {a b : Instant} (h : a ≤ b) (h' : a ≠ b) : a < b := by
  rw [← not_le]
  exact fun hba => h' (le_antisymm h hba)

/-! ## Whole microseconds -/

@[simp] theorem truncate_truncate (t : Instant) : t.truncate.truncate = t.truncate := by
  refine Instant.ext rfl ?_
  unfold truncate
  dsimp only
  omega

theorem truncate_eq_iff {t : Instant} : t.truncate = t ↔ t.nanos % 1000 = 0 := by
  rw [Instant.ext_iff]
  unfold truncate
  dsimp only
  omega

/-- What an instant has beyond whole microseconds does not count against whole microseconds. -/
theorem truncate_le_truncate_iff (a b : Instant) : a.truncate ≤ b.truncate ↔ a.truncate ≤ b := by
  rw [le_def, le_def]
  unfold truncate
  dsimp only
  omega

/-! ## Instants as they are shown -/

/-- A leap second within a minute. -/
def OffMinute (t : Instant) : Prop := 1000000000 ≤ t.nanos ∧ t.seconds % 60 ≠ 59

instance (t : Instant) : Decidable t.OffMinute :=
  inferInstanceAs (Decidable (1000000000 ≤ t.nanos ∧ t.seconds % 60 ≠ 59))

/-- The instant that written forms show. They have a place for a leap second at the end of a minute
only, and show any other one as the second that comes next. -/
def shown (t : Instant) : Instant :=
  if h : t.OffMinute then
    { seconds := t.seconds + 1
      nanos := t.nanos - 1000000000
      seconds_ge := by have := t.seconds_ge; omega
      seconds_le := by have := t.seconds_le; have := h.2; omega
      nanos_lt := by have := t.nanos_lt; omega }
  else t

/-- What a row keeps of an instant: the whole microseconds of what is shown. -/
def kept (t : Instant) : Instant := t.shown.truncate

/-- Half a second of a leap second that prolongs the first second of 1970, and with it no minute. -/
def strayLeap : Instant := ⟨0, 1500000000, epoch.seconds_ge, epoch.seconds_le, by decide⟩

theorem not_offMinute_of_lt {t : Instant} (h : t.nanos < 1000000000) : ¬ t.OffMinute :=
  fun off => Nat.not_lt.mpr off.1 h

theorem shown_of_not_offMinute {t : Instant} (h : ¬ t.OffMinute) : t.shown = t := dif_neg h

theorem not_offMinute_shown (t : Instant) : ¬ t.shown.OffMinute := by
  unfold shown
  split_ifs with h
  · refine not_offMinute_of_lt ?_
    have := t.nanos_lt
    dsimp only
    omega
  · exact h

theorem offMinute_truncate {t : Instant} : t.truncate.OffMinute ↔ t.OffMinute := by
  unfold OffMinute truncate
  dsimp only
  omega

/-- What is kept of an instant is kept in full. -/
theorem kept_eq_iff {t : Instant} : t.kept = t ↔ ¬ t.OffMinute ∧ t.truncate = t := by
  unfold kept
  constructor
  · intro h
    have regular : ¬ t.OffMinute := by
      rw [← h, offMinute_truncate]
      exact t.not_offMinute_shown
    rw [shown_of_not_offMinute regular] at h
    exact ⟨regular, h⟩
  · rintro ⟨regular, whole⟩
    rw [shown_of_not_offMinute regular, whole]

@[simp] theorem kept_kept (t : Instant) : t.kept.kept = t.kept :=
  kept_eq_iff.mpr ⟨offMinute_truncate.not.mpr t.not_offMinute_shown, t.shown.truncate_truncate⟩

theorem shown_of_kept {t : Instant} (h : t.kept = t) : t.shown = t :=
  shown_of_not_offMinute (kept_eq_iff.mp h).1

/-- An instant is never shown as an earlier one. -/
theorem le_shown (t : Instant) : t ≤ t.shown := by
  unfold shown
  split_ifs with h
  · exact .inl (Int.lt_succ t.seconds)
  · exact .inr ⟨rfl, Nat.le_refl _⟩

/-- What an instant has beyond what is kept of it does not count against what is kept. -/
theorem kept_le_kept_iff (a b : Instant) : a.kept ≤ b.kept ↔ a.kept ≤ b.shown :=
  truncate_le_truncate_iff a.shown b.shown

/-! ## Later instants -/

theorem ofParts?_eq_some_iff {seconds : Int} {nanos : Nat} {t : Instant} :
    ofParts? seconds nanos = some t ↔
      ¬ t.OffMinute ∧ t.seconds = seconds ∧ t.nanos = nanos := by
  unfold ofParts? OffMinute
  constructor
  · intro h
    split at h
    · next parts =>
      cases h
      exact ⟨by tauto, rfl, rfl⟩
    · cases h
  · rintro ⟨regular, rfl, rfl⟩
    exact dif_pos ⟨t.seconds_ge, t.seconds_le, t.nanos_lt, by tauto⟩

theorem kept_of_addSeconds? {t u : Instant} {n : Nat} (ht : t.kept = t)
    (h : t.addSeconds? n = some u) : u.kept = u := by
  rw [kept_eq_iff, truncate_eq_iff] at ht ⊢
  unfold addSeconds? at h
  split_ifs at h with h0
  · cases h
    exact ht
  · obtain ⟨regular, -, nanos⟩ := ofParts?_eq_some_iff.mp h
    exact ⟨regular, by omega⟩

theorem lt_of_addSeconds? {t u : Instant} {n : Nat} (pos : 0 < n)
    (h : t.addSeconds? n = some u) : t < u := by
  unfold addSeconds? at h
  rw [if_neg (by omega)] at h
  rw [lt_def, (ofParts?_eq_some_iff.mp h).2.1]
  omega

/-- Outside leap seconds a number of seconds later keeps the order of instants. -/
theorem addSeconds?_le_addSeconds? {t u t' u' : Instant} {n : Nat} (ht : t.nanos < 1000000000)
    (hu : u.nanos < 1000000000) (h : t ≤ u) (ht' : t.addSeconds? n = some t')
    (hu' : u.addSeconds? n = some u') : t' ≤ u' := by
  unfold addSeconds? at ht' hu'
  split_ifs at ht' hu' with h0
  · cases ht'
    cases hu'
    exact h
  · obtain ⟨-, hts, htn⟩ := ofParts?_eq_some_iff.mp ht'
    obtain ⟨-, hus, hun⟩ := ofParts?_eq_some_iff.mp hu'
    rw [le_def] at h ⊢
    omega

end Instant

/-- Clocks show whole microseconds. -/
theorem ManualClock.truncate_now (c : ManualClock) : c.now.truncate = c.now := by
  unfold ManualClock.now Instant.ofMicros?
  rw [Instant.truncate_eq_iff]
  cases h : Instant.ofParts? (c.micros / 1000000) ((c.micros % 1000000).toNat * 1000) with
  | none => rfl
  | some t =>
    rw [Option.getD_some, (Instant.ofParts?_eq_some_iff.mp h).2.2]
    omega

/-- Clocks show no leap seconds. -/
theorem ManualClock.nanos_now_lt (c : ManualClock) : c.now.nanos < 1000000000 := by
  unfold ManualClock.now Instant.ofMicros?
  cases h : Instant.ofParts? (c.micros / 1000000) ((c.micros % 1000000).toNat * 1000) with
  | none => exact Nat.zero_lt_succ _
  | some t =>
    rw [Option.getD_some, (Instant.ofParts?_eq_some_iff.mp h).2.2]
    omega

theorem ManualClock.shown_now (c : ManualClock) : c.now.shown = c.now :=
  Instant.shown_of_not_offMinute (Instant.not_offMinute_of_lt c.nanos_now_lt)

/-- Rows keep what clocks show. -/
theorem ManualClock.kept_now (c : ManualClock) : c.now.kept = c.now :=
  Instant.kept_eq_iff.mpr ⟨Instant.not_offMinute_of_lt c.nanos_now_lt, c.truncate_now⟩

end LeaseCatalog
