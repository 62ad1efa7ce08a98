import Mathlib.Tactic.Linarith

/-!
# The Gregorian calendar

Days are counted from the first of March of the year 0, so that a leap day is the last of its year.
The calendar is proleptic: every integer is a day, and a later day has a later date.
-/

namespace SimpleCdn.Calendar

structure Date where
  year : Int
  month : Int
  day : Int
  deriving DecidableEq, Repr

/-- The days before the first of March of the year. -/
def daysToMarch (year : Int) : Int :=
  365 * year + year / 4 - year / 100 + year / 400

/-- The year, beginning in March, that the day is in.  400 years have 146097 days. -/
def marchYear (days : Int) : Int :=
  let estimate := (400 * days + 700) / 146097
  if days < daysToMarch estimate then estimate - 1 else estimate

/-- Months count from March here; five of them have 153 days. -/
def monthOf (dayOfYear : Int) : Int :=
  (5 * dayOfYear + 2) / 153

def date (days : Int) : Date :=
  let year := marchYear days
  let dayOfYear := days - daysToMarch year
  let month := monthOf dayOfYear
  { year := if month < 10 then year else year + 1
    month := if month < 10 then month + 3 else month - 9
    day := dayOfYear - (153 * month + 2) / 5 + 1 }

/-- The day of a date; a day beyond the end of its month runs on into the next ones. -/
def toDays (date : Date) : Int :=
  let year := if 3 ≤ date.month then date.year else date.year - 1
  let month := if 3 ≤ date.month then date.month - 3 else date.month + 9
  daysToMarch year + (153 * month + 2) / 5 + date.day - 1

/-- The date three months before, which the calendar may not have. -/
def Date.minusThreeMonths (date : Date) : Date :=
  if date.month ≤ 3 then { date with year := date.year - 1, month := date.month + 9 }
  else { date with month := date.month - 3 }

/-- The order of dates: by year, then by month, then by day. -/
def Date.Before (a b : Date) : Prop :=
  a.year < b.year ∨ a.year = b.year ∧
    (a.month < b.month ∨ a.month = b.month ∧ a.day < b.day)

section

variable {days : Int}

theorem daysToMarch_succ (year : Int) : daysToMarch year + 365 ≤ daysToMarch (year + 1) ∧
    daysToMarch (year + 1) ≤ daysToMarch year + 366 := by
  unfold daysToMarch
  omega

theorem marchYear_spec (days : Int) :
    daysToMarch (marchYear days) ≤ days ∧ days < daysToMarch (marchYear days + 1) := by
  unfold marchYear daysToMarch
  dsimp only
  split
  · rw [Int.sub_add_cancel]
    omega
  · omega

theorem daysToMarch_mono {y z : Int} (h : y ≤ z) : daysToMarch y ≤ daysToMarch z := by
  unfold daysToMarch
  omega

theorem marchYear_mono {d e : Int} (h : d ≤ e) : marchYear d ≤ marchYear e := by
  by_contra hlater
  have hstart := (marchYear_spec d).1
  have hend := (marchYear_spec e).2
  have hyears := daysToMarch_mono (show marchYear e + 1 ≤ marchYear d by omega)
  omega

/-- The parts of a date are in their ranges. -/
theorem date_ranges (days : Int) : 1 ≤ (date days).month ∧ (date days).month ≤ 12 ∧
    1 ≤ (date days).day ∧ (date days).day ≤ 31 := by
  have hstart := (marchYear_spec days).1
  have hend := (marchYear_spec days).2
  have hlength := (daysToMarch_succ (marchYear days)).2
  unfold date monthOf
  dsimp only
  split <;> omega

/-- `toDays` gives back the day a date was made from. -/
theorem toDays_date (d : Int) : toDays (date d) = d := by
  have hstart := (marchYear_spec d).1
  have hend := (marchYear_spec d).2
  have hlength := (daysToMarch_succ (marchYear d)).2
  unfold toDays date monthOf
  dsimp only
  split
  · rw [if_pos (by omega), if_pos (by omega)]
    omega
  · rw [if_neg (by omega), if_neg (by omega), Int.add_sub_cancel]
    omega

theorem date_before {d e : Int} (h : d < e) : (date d).Before (date e) := by
  have hyears := marchYear_mono h.le
  have hd := (marchYear_spec d).1
  have hd' := (marchYear_spec d).2
  have he' := (marchYear_spec e).2
  have hlength := (daysToMarch_succ (marchYear d)).2
  have hlength' := (daysToMarch_succ (marchYear e)).2
  have he := (marchYear_spec e).1
  unfold Date.Before date monthOf
  dsimp only
  rcases hyears.lt_or_eq with hyear | hyear
  · split <;> split <;> omega
  · rw [← hyear] at he he' hlength' ⊢
    split <;> split <;> omega

end

end SimpleCdn.Calendar
