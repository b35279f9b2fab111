import LeaseCatalog.Time.Calendar
import Mathlib.Tactic

/-!
# Dates and day counts

The two directions of the calendar agree: every day count has a date that exists (`exists?_ofDays`),
and that date counts back to it (`toDays_ofDays`). A later day has a later date (`before_ofDays`).

Both facts go through years that begin in March. A day of a cycle is split into whole centuries,
whole spans of four years, whole years and days; only the last of each may be longer than the
others, by the leap day.
-/

namespace LeaseCatalog.Date

/-! ## Days of a cycle -/

/-- The parts of a day of the cycle: `c` centuries, `q` spans of four years, `k` years and `t` days
lie before it. -/
structure CycleDay (c q k t : Nat) : Prop where
  /-- A cycle has four centuries. -/
  century : c ≤ 3
  /-- A century has at most 25 spans of four years. -/
  quad : q ≤ 24
  /-- A span has four years. -/
  year : k ≤ 3
  /-- A year has at most 366 days. -/
  day : t ≤ 365
  /-- Only the last year of a span has a 366th day, and the last year of a century only in the last
  century. -/
  leap : t = 365 → k = 3 ∧ (q = 24 → c = 3)

/-- Every day of the cycle has parts. -/
theorem exists_cycleDay {day : Nat} (h : day < daysPerCycle) :
    ∃ c q k t, CycleDay c q k t ∧ day = 36524 * c + 1461 * q + 365 * k + t := by
  unfold daysPerCycle at h
  obtain ⟨c, r, hc, hr, hrl, rfl⟩ :
      ∃ c r, c ≤ 3 ∧ r ≤ 36524 ∧ (r = 36524 → c = 3) ∧ day = 36524 * c + r :=
    ⟨min 3 (day / 36524), day - 36524 * min 3 (day / 36524), by omega⟩
  obtain ⟨q, s, hq, hs, hsl, rfl⟩ :
      ∃ q s, q ≤ 24 ∧ s ≤ 1460 ∧ (s = 1460 → q = 24 → c = 3) ∧ r = 1461 * q + s :=
    ⟨r / 1461, r % 1461, by omega⟩
  obtain ⟨k, t, hk, ht, htl, rfl⟩ :
      ∃ k t, k ≤ 3 ∧ t ≤ 365 ∧ (t = 365 → k = 3) ∧ s = 365 * k + t :=
    ⟨min 3 (s / 365), s - 365 * min 3 (s / 365), by omega⟩
  exact ⟨c, q, k, t, ⟨hc, hq, hk, ht, fun e => ⟨htl e, hsl (by omega)⟩⟩, by omega⟩

theorem CycleDay.yearOfCycle {c q k t : Nat} (h : CycleDay c q k t) :
    yearOfCycle (36524 * c + 1461 * q + 365 * k + t) = 100 * c + 4 * q + k := by
  obtain ⟨hc, hq, hk, ht, hl⟩ := h
  unfold Date.yearOfCycle
  generalize hd : 36524 * c + 1461 * q + 365 * k + t = day
  have h1 : day / 36524 = c ∨ day / 36524 = c + 1 ∧ c = 3 ∧ day = 146096 := by omega
  have h2 : day / 146096 = 0 ∨ day / 146096 = 1 ∧ c = 3 ∧ day = 146096 := by omega
  have h3 : day / 1460 = 25 * c + q + (24 * c + q + 365 * k + t) / 1460 := by omega
  generalize (24 * c + q + 365 * k + t) / 1460 = m at h3
  have h4 : m = 0 ∨ m = 1 := by omega
  rcases h4 with rfl | rfl <;> omega

theorem CycleDay.firstDayOfYear {c q k t : Nat} (h : CycleDay c q k t) :
    firstDayOfYear (100 * c + 4 * q + k) = 36524 * c + 1461 * q + 365 * k := by
  obtain ⟨hc, hq, hk, ht, hl⟩ := h
  unfold Date.firstDayOfYear
  omega

/-! ## Years that begin in March -/

/-- The date of a day, counted from 0, of the year that begins in March of `year`. -/
def ofMarchYear (year : Int) (day : Nat) : Date :=
  let month := monthOfYear day
  if month < 10 then ⟨year, month + 3, day - firstDayOfMonth month + 1⟩
  else ⟨year + 1, month - 9, day - firstDayOfMonth month + 1⟩

/-- The days from the first of March of year 0 to that of another year. -/
def startOfMarchYear (year : Int) : Int := 365 * year + year / 4 - year / 100 + year / 400

theorem isLeap_iff (year : Int) :
    isLeap year = true ↔ year % 4 = 0 ∧ (year % 100 = 0 → year % 400 = 0) := by
  simp only [isLeap, Bool.and_eq_true, Bool.or_eq_true, beq_iff_eq, bne_iff_ne, ne_eq]
  tauto

/-- Every day count is a day of a year that begins in March; its 366th day comes before March of a
leap year. -/
theorem exists_marchYear (days : Int) :
    ∃ (year : Int) (t : Nat), t ≤ 365 ∧ (t = 365 → isLeap (year + 1) = true) ∧
      days = startOfMarchYear year + t - daysToMarchZero ∧ ofDays days = ofMarchYear year t := by
  obtain ⟨day, hlt, hday⟩ : ∃ day : Nat, day < daysPerCycle ∧
      ((days + daysToMarchZero) % daysPerCycle).toNat = day :=
    ⟨_, by unfold daysPerCycle; omega, rfl⟩
  obtain ⟨c, q, k, t, h, hp⟩ := exists_cycleDay hlt
  refine ⟨(days + daysToMarchZero) / daysPerCycle * 400 + (100 * c + 4 * q + k : Nat), t, h.day,
    ?_, ?_, ?_⟩
  · intro e
    obtain ⟨hk, hq⟩ := h.leap e
    have := h.quad
    have := h.century
    rw [isLeap_iff]
    refine ⟨by omega, fun e' => ?_⟩
    have := hq (by omega)
    omega
  · obtain ⟨hc, hq, hk, ht, hl⟩ := h
    generalize hcy : (days + daysToMarchZero) / daysPerCycle = cycle
    have : days = cycle * 146097 + day - daysToMarchZero := by
      unfold daysPerCycle at hcy hday
      omega
    have h4 : (cycle * 400 + (100 * c + 4 * q + k : Nat)) / 4 = cycle * 100 + 25 * c + q := by omega
    have h100 : (cycle * 400 + (100 * c + 4 * q + k : Nat)) / 100 = cycle * 4 + c := by omega
    have h400 : (cycle * 400 + (100 * c + 4 * q + k : Nat)) / 400 = cycle := by omega
    unfold startOfMarchYear
    rw [h4, h100, h400]
    omega
  · unfold ofDays ofMarchYear
    simp only [hday]
    rw [hp, h.yearOfCycle, h.firstDayOfYear, Nat.add_sub_cancel_left]

/-- The year in whose March the year of a date begins. -/
def marchYear (d : Date) : Int := if d.month ≤ 2 then d.year - 1 else d.year

/-- The month of a date, counted from 0 for March. -/
def marchMonth (d : Date) : Nat := if d.month ≤ 2 then d.month + 9 else d.month - 3

theorem toDays_eq (d : Date) :
    d.toDays = startOfMarchYear d.marchYear + firstDayOfMonth d.marchMonth + (d.day - 1 : Nat) -
      daysToMarchZero := by
  unfold toDays
  change _ = startOfMarchYear (if d.month ≤ 2 then d.year - 1 else d.year) +
    firstDayOfMonth (if d.month ≤ 2 then d.month + 9 else d.month - 3) + _ - _
  generalize (if d.month ≤ 2 then d.year - 1 else d.year) = y
  generalize (if d.month ≤ 2 then d.month + 9 else d.month - 3) = m
  have h4 : y / 4 = y / 400 * 100 + y % 400 / 4 := by omega
  have h100 : y / 100 = y / 400 * 4 + y % 400 / 100 := by omega
  unfold startOfMarchYear firstDayOfYear daysPerCycle
  dsimp only
  omega

/-! ## Months -/

/-- A day of the year lies in its month. -/
theorem monthOfYear_spec {t : Nat} (h : t ≤ 365) :
    monthOfYear t ≤ 11 ∧ firstDayOfMonth (monthOfYear t) ≤ t ∧
      t < firstDayOfMonth (monthOfYear t + 1) := by
  unfold monthOfYear firstDayOfMonth
  omega

/-- A month begins when the one before it is over. February is left out: it is the last. -/
theorem firstDayOfMonth_succ (year : Int) {month : Nat} (h : month ≤ 10) :
    firstDayOfMonth (month + 1) = firstDayOfMonth month +
      daysInMonth year (if month < 10 then month + 3 else month - 9) := by
  interval_cases month <;> simp [firstDayOfMonth, daysInMonth]

theorem firstDayOfMonth_mono {a b : Nat} (h : a ≤ b) : firstDayOfMonth a ≤ firstDayOfMonth b := by
  unfold firstDayOfMonth
  omega

theorem daysInMonth_february (year : Int) :
    daysInMonth year 2 = if isLeap year then 29 else 28 := rfl

theorem daysInMonth_le (year : Int) (month : Nat) : daysInMonth year month ≤ 31 := by
  unfold daysInMonth
  split_ifs <;> omega

theorem exists?_iff (d : Date) :
    d.exists? = true ↔
      1 ≤ d.month ∧ d.month ≤ 12 ∧ 1 ≤ d.day ∧ d.day ≤ daysInMonth d.year d.month := by
  simp only [exists?, Bool.and_eq_true, decide_eq_true_eq, and_assoc]

/-! ## From a count to a date and back -/

theorem exists?_ofMarchYear {year : Int} {t : Nat} (h : t ≤ 365)
    (leap : t = 365 → isLeap (year + 1) = true) : (ofMarchYear year t).exists? = true := by
  obtain ⟨hm, hle, hlt⟩ := monthOfYear_spec h
  rw [exists?_iff]
  unfold ofMarchYear
  generalize monthOfYear t = m at *
  dsimp only
  by_cases h10 : m < 10
  · have := firstDayOfMonth_succ year (show m ≤ 10 by omega)
    rw [if_pos h10] at this ⊢
    dsimp only
    omega
  · rw [if_neg h10]
    dsimp only
    obtain rfl | rfl : m = 10 ∨ m = 11 := by omega
    · have := firstDayOfMonth_succ (year + 1) (show 10 ≤ 10 by omega)
      simp only [lt_irrefl, if_false] at this
      omega
    · have : firstDayOfMonth 11 = 337 := rfl
      simp only [Nat.reduceSub, daysInMonth_february]
      split_ifs with hl
      · omega
      · have : t ≠ 365 := fun e => hl (leap e)
        omega

theorem toDays_ofMarchYear {year : Int} {t : Nat} (h : t ≤ 365) :
    (ofMarchYear year t).toDays = startOfMarchYear year + t - daysToMarchZero := by
  obtain ⟨hm, hle, hlt⟩ := monthOfYear_spec h
  rw [toDays_eq]
  unfold ofMarchYear marchYear marchMonth
  generalize monthOfYear t = m at *
  by_cases h10 : m < 10
  · simp only [if_pos h10]
    rw [if_neg (by omega), if_neg (by omega), Nat.add_sub_cancel]
    omega
  · simp only [if_neg h10]
    rw [if_pos (by omega), if_pos (by omega), Int.add_sub_cancel, show m - 9 + 9 = m by omega]
    omega

theorem exists?_ofDays (days : Int) : (ofDays days).exists? = true := by
  obtain ⟨year, t, ht, leap, -, e⟩ := exists_marchYear days
  rw [e]
  exact exists?_ofMarchYear ht leap

theorem toDays_ofDays (days : Int) : (ofDays days).toDays = days := by
  obtain ⟨year, t, ht, -, hd, e⟩ := exists_marchYear days
  rw [e, toDays_ofMarchYear ht, hd]

/-! ## Order -/

/-- Whether a date comes before another: the year decides, then the month, then the day. -/
def Before (a b : Date) : Prop :=
  a.year < b.year ∨ a.year = b.year ∧ (a.month < b.month ∨ a.month = b.month ∧ a.day < b.day)

theorem eq_iff {a b : Date} : a = b ↔ a.year = b.year ∧ a.month = b.month ∧ a.day = b.day := by
  cases a
  cases b
  simp

/-- A year is over before any later one begins. -/
theorem startOfMarchYear_lt {a b : Int} (h : a < b) :
    startOfMarchYear a + 365 + (if isLeap (a + 1) then 1 else 0) ≤ startOfMarchYear b := by
  have step : startOfMarchYear (a + 1) =
      startOfMarchYear a + 365 + (if isLeap (a + 1) then 1 else 0) := by
    unfold startOfMarchYear
    split_ifs with hl <;> rw [isLeap_iff] at hl <;> omega
  have mono : startOfMarchYear (a + 1) ≤ startOfMarchYear b := by
    unfold startOfMarchYear
    omega
  omega

theorem marchMonth_le {d : Date} (h : d.exists? = true) : d.marchMonth ≤ 11 := by
  obtain ⟨h1, h12, -, -⟩ := (exists?_iff d).mp h
  unfold marchMonth
  split_ifs <;> omega

/-- A day comes before the next month. February is left out: it is the last. -/
theorem day_le_of_marchMonth {d : Date} (h : d.exists? = true) (hm : d.marchMonth ≤ 10) :
    firstDayOfMonth d.marchMonth + d.day ≤ firstDayOfMonth (d.marchMonth + 1) := by
  obtain ⟨h1, h12, -, hd⟩ := (exists?_iff d).mp h
  have back : (if d.marchMonth < 10 then d.marchMonth + 3 else d.marchMonth - 9) = d.month := by
    unfold marchMonth at hm ⊢
    split_ifs <;> omega
  rw [firstDayOfMonth_succ d.year hm, back]
  omega

/-- A day comes before the next year. -/
theorem dayOfMarchYear_lt {d : Date} (h : d.exists? = true) :
    firstDayOfMonth d.marchMonth + (d.day - 1) <
      365 + if isLeap (d.marchYear + 1) then 1 else 0 := by
  obtain ⟨h1, h12, hd1, hd⟩ := (exists?_iff d).mp h
  by_cases hm : d.marchMonth ≤ 10
  · have hday := day_le_of_marchMonth h hm
    have hmono := firstDayOfMonth_mono (show d.marchMonth + 1 ≤ 11 by omega)
    have : firstDayOfMonth 11 = 337 := rfl
    omega
  · have h2 : d.month = 2 := by
      unfold marchMonth at hm
      split_ifs at hm <;> omega
    have hy : d.marchYear + 1 = d.year := by simp [marchYear, h2]
    have hmm : firstDayOfMonth d.marchMonth = 337 := by simp [marchMonth, h2, firstDayOfMonth]
    rw [h2, daysInMonth_february] at hd
    rw [hy, hmm]
    split_ifs at hd ⊢ <;> omega

theorem toDays_lt_of_before {a b : Date} (ha : a.exists? = true) (hb : b.exists? = true)
    (h : a.Before b) : a.toDays < b.toDays := by
  obtain ⟨ha1, ha12, had, -⟩ := (exists?_iff a).mp ha
  obtain ⟨hb1, hb12, hbd, -⟩ := (exists?_iff b).mp hb
  -- dates keep their order when the year begins in March
  have order : a.marchYear < b.marchYear ∨ a.marchYear = b.marchYear ∧
      (a.marchMonth < b.marchMonth ∨ a.marchMonth = b.marchMonth ∧ a.day < b.day) := by
    unfold Before at h
    unfold marchYear marchMonth
    split_ifs <;> omega
  rw [toDays_eq, toDays_eq]
  rcases order with hy | ⟨hy, hm | ⟨hm, hd⟩⟩
  · have h1 := startOfMarchYear_lt hy
    have h2 := dayOfMarchYear_lt ha
    split_ifs at h1 h2 <;> omega
  · have h1 := day_le_of_marchMonth ha (by have := marchMonth_le hb; omega)
    have h2 := firstDayOfMonth_mono (show a.marchMonth + 1 ≤ b.marchMonth from hm)
    rw [hy]
    omega
  · rw [hy, hm]
    omega

theorem before_trichotomy (a b : Date) : a.Before b ∨ a = b ∨ b.Before a := by
  rw [eq_iff]
  unfold Before
  omega

theorem before_ofDays {a b : Int} (h : a < b) : (ofDays a).Before (ofDays b) := by
  rcases before_trichotomy (ofDays a) (ofDays b) with lt | eq | gt
  · exact lt
  · have := congrArg toDays eq
    rw [toDays_ofDays, toDays_ofDays] at this
    omega
  · have := toDays_lt_of_before (exists?_ofDays b) (exists?_ofDays a) gt
    rw [toDays_ofDays, toDays_ofDays] at this
    omega

/-- A later day lies in no earlier year. -/
theorem year_le_year {a b : Int} (h : a ≤ b) : (ofDays a).year ≤ (ofDays b).year := by
  rcases Int.lt_or_eq_of_le h with later | rfl
  · have before := before_ofDays later
    unfold Before at before
    omega
  · exact le_rfl

/-- The first of January 10000, and what comes after it. -/
theorem year_ge_of_late {days : Int} (h : 2932897 ≤ days) : 10000 ≤ (ofDays days).year := by
  have newYear : ofDays 2932897 = ⟨10000, 1, 1⟩ := by decide
  have later := year_le_year h
  rw [newYear] at later
  exact later

end LeaseCatalog.Date
