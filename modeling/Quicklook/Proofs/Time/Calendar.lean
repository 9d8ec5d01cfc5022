import Mathlib.Data.Int.Init
import Mathlib.Logic.Function.Iterate
import Mathlib.Tactic.IntervalCases
import Quicklook.Time.Civil

/-!
# The calendar

The proleptic Gregorian calendar as a walk from one date to the next, and instants as what a
clock shows on a date of the walk. Day numbers and timestamps are computed by closed formulas;
here these are shown to count the steps of the walk, in both directions from the beginning of
1970, and to keep the order of dates and times.

* `Date.number_next`: the day number counts steps
* `Date.numbered_iff`: the day number is the only number of a date
* `Civil.names_iff`: the timestamp is the only instant of a date and time
* `Civil.before_iff_earlier`: instants are ordered as the dates and times that they belong to
-/

namespace Quicklook.Time

/-! ## §1 Months and years -/

/-- The Gregorian rule: every fourth year, but of the hundredth years only every fourth. -/
def IsLeap (y : ℤ) : Prop :=
  4 ∣ y ∧ (100 ∣ y → 400 ∣ y)

instance (y : ℤ) : Decidable (IsLeap y) :=
  inferInstanceAs (Decidable (_ ∧ _))

/-- The days of a month from 1 to 12. -/
def monthDays (y : ℤ) (m : ℕ) : ℕ :=
  if m = 2 then if IsLeap y then 29 else 28
  else if m = 4 ∨ m = 6 ∨ m = 9 ∨ m = 11 then 30 else 31

/-- The days of a year. -/
def yearDays (y : ℤ) : ℕ :=
  if IsLeap y then 366 else 365

/-- The test for leap years is the Gregorian rule. -/
theorem isLeapYear_eq (y : ℤ) : isLeapYear y = decide (IsLeap y) := by
  rw [Bool.eq_iff_iff, decide_eq_true_iff, IsLeap, isLeapYear]
  simp only [Bool.and_eq_true, Bool.or_eq_true, beq_iff_eq, bne_iff_ne]
  omega

theorem daysInMonth_eq (y : ℤ) {m : ℕ} (h : 1 ≤ m) (hm : m ≤ 12) :
    daysInMonth y m = monthDays y m := by
  -- Twelve months, each in leap years and in others.
  by_cases hl : IsLeap y <;> interval_cases m <;>
    simp [daysInMonth, monthLengths, monthDays, isLeapYear_eq, hl]

/-- The days before a month grow by the month before it. -/
theorem daysBeforeMonth_succ (y : ℤ) {m : ℕ} (h : 1 ≤ m) (hm : m ≤ 12) :
    daysBeforeMonth y (m + 1) = daysBeforeMonth y m + monthDays y m := by
  by_cases hl : IsLeap y <;> interval_cases m <;>
    simp [daysBeforeMonth, monthLengths, monthDays, isLeapYear_eq, hl]

theorem daysBeforeMonth_one (y : ℤ) : daysBeforeMonth y 1 = 0 := rfl

/-- The months of a year make up the year. -/
theorem daysBeforeMonth_thirteen (y : ℤ) : daysBeforeMonth y 13 = yearDays y := by
  by_cases hl : IsLeap y <;> simp [daysBeforeMonth, monthLengths, yearDays, isLeapYear_eq, hl]

/-- A month ends before a later month begins. -/
theorem daysBeforeMonth_add_le (y : ℤ) {m n : ℕ} (h : 1 ≤ m) (hmn : m + 1 ≤ n) (hn : n ≤ 13) :
    daysBeforeMonth y m + monthDays y m ≤ daysBeforeMonth y n := by
  induction n, hmn using Nat.le_induction with
  | base => rw [daysBeforeMonth_succ y h (by omega)]
  | succ n hmn ih =>
    rw [daysBeforeMonth_succ y (by omega) (by omega)]
    exact Nat.le_add_right_of_le (ih (by omega))

/-- The days before a year grow by the year before it, although they are counted by divisions. -/
theorem daysBeforeYear_succ (y : ℤ) : daysBeforeYear (y + 1) = daysBeforeYear y + yearDays y := by
  -- The three quotients step at the fourth, hundredth and four-hundredth years, which is what the
  -- rule says.
  by_cases hl : IsLeap y
  · rw [yearDays, if_pos hl]
    simp only [daysBeforeYear, IsLeap] at hl ⊢
    omega
  · rw [yearDays, if_neg hl]
    simp only [daysBeforeYear, IsLeap] at hl ⊢
    omega

/-- A year ends before a later year begins. -/
theorem daysBeforeYear_add_le {y z : ℤ} (h : y + 1 ≤ z) :
    daysBeforeYear y + yearDays y ≤ daysBeforeYear z := by
  induction z, h using Int.leInduction with
  | base => rw [daysBeforeYear_succ]
  | succ z _ ih =>
    rw [daysBeforeYear_succ]
    omega

/-! ## §2 Walking through the calendar -/

/-- A year, a month and a day of the month. -/
structure Date where
  year : ℤ
  month : ℕ
  day : ℕ
deriving DecidableEq

namespace Date

/-- Whether a date stands on the calendar. -/
structure OnCalendar (d : Date) : Prop where
  one_le_month : 1 ≤ d.month
  month_le : d.month ≤ 12
  one_le_day : 1 ≤ d.day
  day_le : d.day ≤ monthDays d.year d.month

instance (d : Date) : Decidable d.OnCalendar :=
  decidable_of_iff
    (1 ≤ d.month ∧ d.month ≤ 12 ∧ 1 ≤ d.day ∧ d.day ≤ monthDays d.year d.month)
    ⟨fun ⟨hm, hm', hd, hd'⟩ => ⟨hm, hm', hd, hd'⟩, fun ⟨hm, hm', hd, hd'⟩ => ⟨hm, hm', hd, hd'⟩⟩

/-- The date after a date. -/
def next (d : Date) : Date :=
  if d.day < monthDays d.year d.month then { d with day := d.day + 1 }
  else if d.month < 12 then ⟨d.year, d.month + 1, 1⟩
  else ⟨d.year + 1, 1, 1⟩

/-- The first day of 1970. -/
def epoch : Date :=
  ⟨1970, 1, 1⟩

/-- The number of a date: how many steps lead to it from the first day of 1970, or with a minus
    sign from it to that day. -/
inductive Numbered : Date → ℤ → Prop
  | after (k : ℕ) : Numbered (next^[k] epoch) k
  | before {d : Date} (k : ℕ) (h : next^[k] d = epoch) : Numbered d (-k)

/-- The number of a date by the formula. -/
def number (d : Date) : ℤ :=
  dayNumber d.year d.month d.day

variable {d e : Date}

theorem number_epoch : epoch.number = 0 := by decide

theorem onCalendar_epoch : epoch.OnCalendar := by decide

/-- The walk never leaves the calendar. -/
theorem OnCalendar.next (h : d.OnCalendar) : d.next.OnCalendar := by
  obtain ⟨hm, hm', hd, -⟩ := h
  unfold Date.next
  split
  · rename_i hlt
    exact ⟨hm, hm', Nat.le_add_left 1 _, hlt⟩
  · split
    -- Every month has a first day.
    · rename_i hlt
      refine ⟨Nat.le_add_left 1 _, hlt, le_rfl, ?_⟩
      simp only [monthDays]
      split_ifs <;> decide
    · exact ⟨le_rfl, Nat.le_add_left 1 11, le_rfl, by simp [monthDays]⟩

/-- The day number counts steps. -/
theorem number_next (h : d.OnCalendar) : d.next.number = d.number + 1 := by
  obtain ⟨hm, hm', hd, hd'⟩ := h
  unfold Date.next
  split
  -- Within a month only the day changes.
  · simp only [number, dayNumber]
    omega
  -- Otherwise it is the last day of its month.
  · have hlast : d.day = monthDays d.year d.month := by omega
    have hmonth := daysBeforeMonth_succ d.year hm hm'
    split
    · simp only [number, dayNumber, hmonth]
      omega
    -- And then perhaps the last month of its year.
    · have hdec : d.month = 12 := by omega
      rw [hdec, daysBeforeMonth_thirteen] at hmonth
      simp only [number, dayNumber, daysBeforeYear_succ, daysBeforeMonth_one, hmonth, hlast, hdec]
      omega

theorem OnCalendar.iterate_next (h : d.OnCalendar) (k : ℕ) : (Date.next^[k] d).OnCalendar := by
  induction k with
  | zero => exact h
  | succ k ih =>
    -- The last step is taken from a date that was reached before.
    rw [Function.iterate_succ_apply']
    exact ih.next

/-- As many steps as are made are added to the day number. -/
theorem number_iterate_next (h : d.OnCalendar) (k : ℕ) :
    (Date.next^[k] d).number = d.number + k := by
  induction k with
  | zero => simp
  | succ k ih =>
    rw [Function.iterate_succ_apply', number_next (h.iterate_next k), ih]
    omega

/-! ## §3 The order of dates -/

/-- A date comes before another: in an earlier year, or in an earlier month of the year, or on
    an earlier day of the month. -/
def Earlier (d e : Date) : Prop :=
  d.year < e.year ∨ (d.year = e.year ∧
    (d.month < e.month ∨ (d.month = e.month ∧ d.day < e.day)))

theorem earlier_or_eq_or_earlier (d e : Date) : d.Earlier e ∨ d = e ∨ e.Earlier d := by
  obtain ⟨y, m, d⟩ := d
  obtain ⟨z, n, e⟩ := e
  simp only [Earlier, mk.injEq]
  omega

/-- A date lies in its year. -/
theorem number_bounds (h : d.OnCalendar) :
    daysBeforeYear d.year - daysBeforeYear 1970 ≤ d.number ∧
      d.number < daysBeforeYear d.year - daysBeforeYear 1970 + yearDays d.year := by
  obtain ⟨hm, hm', hd, hd'⟩ := h
  have hend := daysBeforeMonth_add_le d.year hm (n := 13) (by omega) le_rfl
  rw [daysBeforeMonth_thirteen] at hend
  simp only [number, dayNumber]
  omega

/-- The day number keeps the order of dates. -/
theorem number_lt_number (hd : d.OnCalendar) (he : e.OnCalendar) (h : d.Earlier e) :
    d.number < e.number := by
  rcases h with hy | ⟨hy, hm | ⟨hm, hday⟩⟩
  -- Another year: both dates lie in theirs.
  · have hyear := daysBeforeYear_add_le hy
    have hd := number_bounds hd
    have he := number_bounds he
    omega
  -- Another month of one year: the months do not overlap.
  · have hmonth := daysBeforeMonth_add_le d.year hd.one_le_month hm (Nat.le_succ_of_le he.month_le)
    have hd := hd.day_le
    have he := he.one_le_day
    simp only [number, dayNumber, ← hy]
    omega
  · simp only [number, dayNumber, hy, hm]
    omega

theorem eq_of_number_eq (hd : d.OnCalendar) (he : e.OnCalendar) (h : d.number = e.number) :
    d = e := by
  rcases earlier_or_eq_or_earlier d e with hlt | heq | hgt
  · exact absurd h (number_lt_number hd he hlt).ne
  · exact heq
  · exact absurd h (number_lt_number he hd hgt).ne'

/-- The day number is the number of a date, and its only one. -/
theorem numbered_iff (h : d.OnCalendar) {n : ℤ} : d.Numbered n ↔ n = d.number := by
  constructor
  -- ⟨k, hk⟩) | Counted forward from the beginning of 1970, or back to it.
  · rintro (k | ⟨k, hk⟩)
    · rw [number_iterate_next onCalendar_epoch, number_epoch, zero_add]
    · have hcount := number_iterate_next h k
      rw [hk, number_epoch] at hcount
      omega
  · rintro rfl
    -- As many steps as the formula says lead to a date with the same number.
    rcases Int.eq_nat_or_neg d.number with ⟨k, hk | hk⟩
    · have hsame : Date.next^[k] epoch = d := by
        refine eq_of_number_eq (onCalendar_epoch.iterate_next k) h ?_
        rw [number_iterate_next onCalendar_epoch, number_epoch, hk, zero_add]
      rw [hk, ← hsame]
      exact .after k
    · rw [hk]
      refine .before k (eq_of_number_eq (h.iterate_next k) onCalendar_epoch ?_)
      rw [number_iterate_next h, number_epoch, hk]
      omega

end Date

/-! ## §4 Dates with a time of day -/

namespace Civil

/-- The date alone. -/
def date (c : Civil) : Date :=
  ⟨c.year, c.month, c.day⟩

/-- Whether there is such a date and time. -/
structure Occurs (c : Civil) : Prop where
  onCalendar : c.date.OnCalendar
  hour_le : c.hour ≤ 23
  minute_le : c.minute ≤ 59
  second_le : c.second ≤ 60

instance (c : Civil) : Decidable c.Occurs :=
  decidable_of_iff
    (c.date.OnCalendar ∧ c.hour ≤ 23 ∧ c.minute ≤ 59 ∧ c.second ≤ 60)
    ⟨fun ⟨hd, hh, hi, hs⟩ => ⟨hd, hh, hi, hs⟩, fun ⟨hd, hh, hi, hs⟩ => ⟨hd, hh, hi, hs⟩⟩

/-- The instant of a date and time: the seconds of the days up to it and of its time of day. A
    sixtieth second is the fifty-ninth with a thousand million nanoseconds more. -/
inductive Names (c : Civil) : Timestamp → Prop
  | ordinary {n : ℤ} (hn : c.date.Numbered n) (hs : c.second < 60) :
      Names c ⟨n * 86400 + c.hour * 3600 + c.minute * 60 + c.second, 0⟩
  | leap {n : ℤ} (hn : c.date.Numbered n) (hs : c.second = 60) :
      Names c ⟨n * 86400 + c.hour * 3600 + c.minute * 60 + 59, 10 ^ 9⟩

/-- A date and time comes before another. -/
def Earlier (c d : Civil) : Prop :=
  c.date.Earlier d.date ∨ (c.date = d.date ∧
    (c.hour < d.hour ∨ (c.hour = d.hour ∧
      (c.minute < d.minute ∨ (c.minute = d.minute ∧ c.second < d.second)))))

variable {c d : Civil}

/-- Dates are valid when they occur in the years that a timestamp covers. -/
theorem valid_iff : c.Valid ↔ c.Occurs ∧ -262143 ≤ c.year ∧ c.year ≤ 262142 := by
  constructor
  · rintro ⟨hy, hy', hm, hm', hd, hd', hh, hi, hs⟩
    rw [daysInMonth_eq c.year hm hm'] at hd'
    exact ⟨⟨⟨hm, hm', hd, hd'⟩, hh, hi, hs⟩, hy, hy'⟩
  · rintro ⟨⟨⟨hm, hm', hd, hd'⟩, hh, hi, hs⟩, hy, hy'⟩
    have hlen := daysInMonth_eq c.year hm hm'
    exact ⟨hy, hy', hm, hm', hd, hlen ▸ hd', hh, hi, hs⟩

/-- The timestamp is the instant of a date and time, and its only one. -/
theorem names_iff (h : c.Occurs) {t : Timestamp} : c.Names t ↔ t = c.timestamp := by
  have hsecond := h.second_le
  constructor
  -- ⟨hn, hs⟩) | A leap second is told by the nanoseconds, and counts as the second before.
  · rintro (⟨hn, hs⟩ | ⟨hn, hs⟩)
    · rw [Date.numbered_iff h.onCalendar] at hn
      have hmin : min c.second 59 = c.second := by omega
      rw [timestamp, hn, hmin, if_neg hs.ne]
      rfl
    · rw [Date.numbered_iff h.onCalendar] at hn
      rw [timestamp, hn, hs]
      rfl
  · rintro rfl
    have hn := (Date.numbered_iff h.onCalendar).2 rfl
    rcases Nat.lt_or_eq_of_le hsecond with hs | hs
    · have hmin : min c.second 59 = c.second := by omega
      rw [timestamp, hmin, if_neg hs.ne]
      exact .ordinary hn hs
    · rw [timestamp, hs]
      exact .leap hn hs

/-- On one date there is nothing to compare but the time of day. -/
theorem eq_iff_of_date_eq (h : c.date = d.date) :
    c = d ↔ c.hour = d.hour ∧ c.minute = d.minute ∧ c.second = d.second := by
  obtain ⟨y, m, day, h, i, s⟩ := c
  obtain ⟨y', m', day', h', i', s'⟩ := d
  simp_all only [date, Date.mk.injEq, mk.injEq, true_and]

theorem earlier_or_eq_or_earlier (c d : Civil) : c.Earlier d ∨ c = d ∨ d.Earlier c := by
  rcases Date.earlier_or_eq_or_earlier c.date d.date with hdate | hdate | hdate
  · exact .inl (.inl hdate)
  · -- On one date the time of day decides.
    simp only [Earlier, eq_iff_of_date_eq hdate, hdate, true_and]
    omega
  · exact .inr (.inr (.inl hdate))

/-- Instants are ordered as the dates and times that they belong to. -/
theorem before_of_earlier (hc : c.Occurs) (hd : d.Occurs) (h : c.Earlier d) :
    c.timestamp.Before d.timestamp := by
  obtain ⟨hcal, hh, hi, hs⟩ := hc
  obtain ⟨hcal', hh', hi', hs'⟩ := hd
  have hnumber : dayNumber c.year c.month c.day = c.date.number := rfl
  have hnumber' : dayNumber d.year d.month d.day = d.date.number := rfl
  simp only [Timestamp.Before, timestamp, hnumber, hnumber']
  rcases h with hdate | ⟨hdate, htime⟩
  · have hlt := Date.number_lt_number hcal hcal' hdate
    omega
  · rw [hdate]
    split_ifs <;> omega

/-- Instants decide which date and time came first. -/
theorem before_iff_earlier (hc : c.Occurs) (hd : d.Occurs) :
    c.timestamp.Before d.timestamp ↔ c.Earlier d := by
  refine ⟨fun hbefore => ?_, before_of_earlier hc hd⟩
  -- In any other order the instants would be in that order.
  rcases earlier_or_eq_or_earlier c d with h | rfl | h
  · exact h
  · simp [Timestamp.Before] at hbefore
  · have hafter := before_of_earlier hd hc h
    simp only [Timestamp.Before] at hbefore hafter
    omega

/-- No two dates and times share an instant, leap seconds included. -/
theorem timestamp_eq_iff (hc : c.Occurs) (hd : d.Occurs) :
    c.timestamp = d.timestamp ↔ c = d := by
  refine ⟨fun heq => ?_, congrArg timestamp⟩
  rcases earlier_or_eq_or_earlier c d with h | rfl | h
  · have hbefore := before_of_earlier hc hd h
    simp [heq, Timestamp.Before] at hbefore
  · rfl
  · have hbefore := before_of_earlier hd hc h
    simp [heq, Timestamp.Before] at hbefore

end Civil

end Quicklook.Time
