import Mathlib.Algebra.Order.Group.Unbundled.Int
import Mathlib.Logic.Function.Iterate

/-!
# Dates of the Gregorian calendar

A date has a number, the days from the first of January 1970 to it. The next date has the
next number, so every number belongs to exactly one date, and later dates have larger
numbers. The calendar is also used for the years before its introduction. Months count
from 0, days of the month from 1.
-/

namespace Calendar

def IsLeap (year : ℤ) : Prop := year % 4 = 0 ∧ (year % 100 ≠ 0 ∨ year % 400 = 0)

instance : DecidablePred IsLeap := fun year =>
  inferInstanceAs (Decidable (year % 4 = 0 ∧ (year % 100 ≠ 0 ∨ year % 400 = 0)))

def daysInMonth (year : ℤ) (month : ℕ) : ℕ :=
  if month = 1 then if IsLeap year then 29 else 28
  else if month = 3 ∨ month = 5 ∨ month = 8 ∨ month = 10 then 30
  else 31

/-- The days of the year before the first of a month. -/
def daysBeforeMonth (year : ℤ) : ℕ → ℕ
  | 0 => 0
  | month + 1 => daysBeforeMonth year month + daysInMonth year month

/-- The days from the first of January 1970 to the first of January of a year. -/
def daysBeforeYear (year : ℤ) : ℤ :=
  365 * (year - 1970) + ((year - 1) / 4 - 492) - ((year - 1) / 100 - 19) + ((year - 1) / 400 - 4)

def daysInYear (year : ℤ) : ℕ := if IsLeap year then 366 else 365

theorem daysBeforeYear_succ (year : ℤ) :
    daysBeforeYear (year + 1) = daysBeforeYear year + daysInYear year := by
  by_cases leap : IsLeap year
  · rw [daysInYear, if_pos leap]
    simp only [IsLeap, daysBeforeYear] at leap ⊢
    omega
  · rw [daysInYear, if_neg leap]
    simp only [IsLeap, daysBeforeYear] at leap ⊢
    omega

@[simp] theorem daysBeforeMonth_twelve (year : ℤ) : daysBeforeMonth year 12 = daysInYear year := by
  by_cases leap : IsLeap year <;> simp [daysBeforeMonth, daysInMonth, daysInYear, leap]

theorem daysInMonth_pos (year : ℤ) (month : ℕ) : 0 < daysInMonth year month := by
  unfold daysInMonth
  split_ifs <;> decide

theorem daysInMonth_le (year : ℤ) (month : ℕ) : daysInMonth year month ≤ 31 := by
  unfold daysInMonth
  split_ifs <;> decide

theorem daysBeforeMonth_mono (year : ℤ) : Monotone (daysBeforeMonth year) :=
  monotone_nat_of_le_succ fun _ => Nat.le_add_right _ _

theorem daysBeforeYear_mono {year later : ℤ} (h : year ≤ later) :
    daysBeforeYear year ≤ daysBeforeYear later := by
  induction later, h using Int.leInduction with
  | base => exact le_rfl
  | succ later _ ih =>
      rw [daysBeforeYear_succ]
      omega

/-- A month of a year and a day of this month. -/
structure Date where
  year : ℤ
  month : ℕ
  day : ℕ
  month_lt : month < 12
  day_pos : 0 < day
  day_le : day ≤ daysInMonth year month
  deriving DecidableEq

/-- The number of a day, which may lie outside of its month. -/
def dayNumber (year : ℤ) (month : ℕ) (day : ℤ) : ℤ :=
  daysBeforeYear year + daysBeforeMonth year month + (day - 1)

namespace Date

def number (date : Date) : ℤ := dayNumber date.year date.month date.day

/-- The first of January 1970. -/
def epoch : Date := ⟨1970, 0, 1, by decide, by decide, by decide⟩

@[simp] theorem number_epoch : epoch.number = 0 := by decide

def firstOf (year : ℤ) (month : ℕ) (lt : month < 12) : Date :=
  ⟨year, month, 1, lt, one_pos, daysInMonth_pos year month⟩

def lastOf (year : ℤ) (month : ℕ) (lt : month < 12) : Date :=
  ⟨year, month, daysInMonth year month, lt, daysInMonth_pos year month, le_rfl⟩

def next (date : Date) : Date :=
  if inMonth : date.day < daysInMonth date.year date.month then
    { date with day := date.day + 1, day_pos := Nat.succ_pos _, day_le := inMonth }
  else if inYear : date.month + 1 < 12 then firstOf date.year (date.month + 1) inYear
  else firstOf (date.year + 1) 0 (by decide)

def previous (date : Date) : Date :=
  if inMonth : 1 < date.day then
    { date with
      day := date.day - 1
      day_pos := Nat.sub_pos_of_lt inMonth
      day_le := (Nat.sub_le _ _).trans date.day_le }
  else if 0 < date.month then
    lastOf date.year (date.month - 1) ((Nat.sub_le _ _).trans_lt date.month_lt)
  else lastOf (date.year - 1) 11 (by decide)

@[simp] theorem number_next (date : Date) : date.next.number = date.number + 1 := by
  obtain ⟨year, month, day, monthLt, dayPos, dayLe⟩ := date
  unfold next
  split
  · simp only [number, dayNumber]
    omega
  · rename_i lastDay
    have last : day = daysInMonth year month := le_antisymm dayLe (not_lt.mp lastDay)
    split
    · simp only [number, dayNumber, firstOf, daysBeforeMonth, last]
      omega
    · rename_i lastMonth
      have december : month = 11 := by simp only at lastMonth; omega
      have whole := daysBeforeMonth_twelve year
      simp only [daysBeforeMonth] at whole
      simp only [number, dayNumber, firstOf, daysBeforeYear_succ, last, december, daysBeforeMonth]
      omega

@[simp] theorem number_previous (date : Date) : date.previous.number = date.number - 1 := by
  obtain ⟨year, month, day, monthLt, dayPos, dayLe⟩ := date
  unfold previous
  split
  · rename_i inMonth
    simp only [number, dayNumber] at inMonth ⊢
    omega
  · rename_i firstDay
    have first : day = 1 := by simp only at firstDay; omega
    split
    · rename_i inYear
      obtain ⟨before, rfl⟩ : ∃ before, month = before + 1 := ⟨month - 1, by
        simp only at inYear
        omega⟩
      simp only [number, dayNumber, lastOf, Nat.add_sub_cancel, daysBeforeMonth, first]
      omega
    · rename_i firstMonth
      have january : month = 0 := by simp only at firstMonth; omega
      have whole := daysBeforeMonth_twelve (year - 1)
      have turn := daysBeforeYear_succ (year - 1)
      rw [Int.sub_add_cancel] at turn
      simp only [daysBeforeMonth] at whole
      simp only [number, dayNumber, lastOf, turn, first, january, daysBeforeMonth]
      omega

/-- The date with a number, reached day by day. -/
def ofNumber : ℤ → Date
  | (n : ℕ) => next^[n] epoch
  | .negSucc n => previous^[n + 1] epoch

@[simp] theorem number_iterate_next (n : ℕ) : (next^[n] epoch).number = n := by
  induction n with
  | zero => exact number_epoch
  | succ n ih =>
    rw [Function.iterate_succ_apply', number_next, ih]
    rfl

@[simp] theorem number_iterate_previous (n : ℕ) : (previous^[n] epoch).number = -n := by
  induction n with
  | zero => exact number_epoch
  | succ n ih =>
    rw [Function.iterate_succ_apply', number_previous, ih]
    omega

@[simp] theorem number_ofNumber (n : ℤ) : (ofNumber n).number = n := by
  cases n with
  | ofNat n => exact number_iterate_next n
  | negSucc n => exact number_iterate_previous (n + 1)

/-- Later dates: in a later year, or in the same year in a later month, or there on a later
day. -/
def Before (first second : Date) : Prop :=
  first.year < second.year ∨ first.year = second.year ∧
    (first.month < second.month ∨ first.month = second.month ∧ first.day < second.day)

theorem day_le_before {date : Date} {month : ℕ} (later : date.month < month) :
    daysBeforeMonth date.year date.month + date.day ≤ daysBeforeMonth date.year month :=
  (Nat.add_le_add_left date.day_le _).trans (daysBeforeMonth_mono date.year later)

theorem number_lt_of_before {first second : Date} (before : first.Before second) :
    first.number < second.number := by
  have pos := second.day_pos
  simp only [number, dayNumber]
  rcases before with earlier | ⟨year, earlier | ⟨month, earlier⟩⟩
  · have year := daysBeforeYear_mono (Int.add_one_le_of_lt earlier)
    have inYear := first.day_le_before first.month_lt
    rw [daysBeforeMonth_twelve] at inYear
    rw [daysBeforeYear_succ] at year
    omega
  · have inMonth := first.day_le_before earlier
    rw [← year]
    omega
  · rw [year, month]
    omega

theorem before_or_eq_or_before (first second : Date) :
    first.Before second ∨ first = second ∨ second.Before first := by
  rcases lt_trichotomy first.year second.year with earlier | year | later
  · exact .inl (.inl earlier)
  · rcases lt_trichotomy first.month second.month with earlier | month | later
    · exact .inl (.inr ⟨year, .inl earlier⟩)
    · rcases lt_trichotomy first.day second.day with earlier | day | later
      · exact .inl (.inr ⟨year, .inr ⟨month, earlier⟩⟩)
      · refine .inr (.inl ?_)
        cases first
        cases second
        simp_all
      · exact .inr (.inr (.inr ⟨year.symm, .inr ⟨month.symm, later⟩⟩))
    · exact .inr (.inr (.inr ⟨year.symm, .inl later⟩))
  · exact .inr (.inr (.inl later))

theorem number_injective : Function.Injective number := by
  intro first second same
  rcases before_or_eq_or_before first second with before | equal | before
  · exact absurd same (number_lt_of_before before).ne
  · exact equal
  · exact absurd same (number_lt_of_before before).ne'

end Date

/-- A second of a day. -/
structure DateTime where
  date : Date
  hour : ℕ
  min : ℕ
  sec : ℕ
  hour_lt : hour < 24
  min_lt : min < 60
  sec_lt : sec < 60
  deriving DecidableEq

namespace DateTime

/-- The seconds from the beginning of 1970, without leap seconds. -/
def instant (time : DateTime) : ℤ :=
  ((time.date.number * 24 + time.hour) * 60 + time.min) * 60 + time.sec

def ofInstant (t : ℤ) : DateTime where
  date := Date.ofNumber (t / 86400)
  hour := (t % 86400 / 3600).toNat
  min := (t % 3600 / 60).toNat
  sec := (t % 60).toNat
  hour_lt := by omega
  min_lt := by omega
  sec_lt := by omega

@[simp] theorem instant_ofInstant (t : ℤ) : (ofInstant t).instant = t := by
  simp only [instant, ofInstant, Date.number_ofNumber]
  omega

theorem instant_injective : Function.Injective instant := by
  intro first second same
  obtain ⟨date, hour, min, sec, hourLt, minLt, secLt⟩ := first
  obtain ⟨date', hour', min', sec', hourLt', minLt', secLt'⟩ := second
  simp only [instant] at same
  obtain rfl : date = date' := Date.number_injective (by omega)
  obtain rfl : hour = hour' := by omega
  obtain rfl : min = min' := by omega
  obtain rfl : sec = sec' := by omega
  rfl

@[simp] theorem ofInstant_instant (time : DateTime) : ofInstant time.instant = time :=
  instant_injective (instant_ofInstant time.instant)

theorem instant_lt_of_before {first second : DateTime} (before : first.date.Before second.date) :
    first.instant < second.instant := by
  have earlier := Date.number_lt_of_before before
  obtain ⟨date, hour, min, sec, hourLt, minLt, secLt⟩ := first
  simp only [instant] at earlier ⊢
  omega

end DateTime

end Calendar
