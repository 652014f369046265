import Mathlib.Tactic.Lemma

/-!
# The civil calendar

`year_month_day` and `sys_days` of `std::chrono`, by the usual arithmetic on years that begin in March, so that
the leap day is the last one of its year. Time points are whole seconds since 1970, and years are not bounded.
-/

namespace OsterLib.Types

/-- `std::chrono::year_month_day`. The day may be behind the end of the month. -/
structure YearMonthDay where
  year : Int
  month : Int
  day : Int
  deriving DecidableEq, Repr

/-- A point in time, or a difference of two, in seconds. -/
abbrev Seconds := Int

/-- `floor<days>`, as a number of days. -/
def floorDays (time : Seconds) : Int := time / 86400

/-- What `floor<days>` cuts off. -/
def timeOfDay (time : Seconds) : Seconds := time % 86400

/-- The days of the year, which begins in March, before the month that is `month` months behind it. -/
def daysBefore (month : Int) : Int := (153 * month + 2) / 5

/-- The day of a date by years that begin in March, and the months behind it. -/
def daysOfMarchYear (year month day : Int) : Int :=
  365 * year + year / 4 - year / 100 + year / 400 + daysBefore month + day - 1 - 719468

/-- `sys_days` of a date -/
def sysDays (ymd : YearMonthDay) : Int :=
  if ymd.month ≤ 2 then daysOfMarchYear (ymd.year - 1) (ymd.month + 9) ymd.day
  else daysOfMarchYear ymd.year (ymd.month - 3) ymd.day

/-- The year of a day among four centuries, and the day of that year: a century has 36524 days, and four years
    have 1461. -/
def yearOfEra (ofEra : Int) : Int × Int :=
  let century := min (ofEra / 36524) 3
  let ofCentury := ofEra - 36524 * century
  let four := ofCentury / 1461
  let ofFour := ofCentury - 1461 * four
  let single := min (ofFour / 365) 3
  (100 * century + 4 * four + single, ofFour - 365 * single)

/-- The date by a year that begins in March. -/
def ofMarchYear (year month day : Int) : YearMonthDay :=
  if month < 10 then { year, month := month + 3, day } else { year := year + 1, month := month - 9, day }

/-- The date of a day, of which four centuries have 146097. -/
def yearMonthDay (days : Int) : YearMonthDay :=
  let (year, ofYear) := yearOfEra ((days + 719468) % 146097)
  let month := (5 * ofYear + 2) / 153
  ofMarchYear (400 * ((days + 719468) / 146097) + year) month (ofYear - daysBefore month + 1)

/-- `year::is_leap` -/
def isLeap (year : Int) : Bool := year % 4 = 0 && (year % 100 ≠ 0 || year % 400 = 0)

/-- Adding years keeps the month and the day. -/
def YearMonthDay.addYears (ymd : YearMonthDay) (years : Int) : YearMonthDay :=
  { ymd with year := ymd.year + years }

/-- Adding months carries into the years, and keeps the day. -/
def YearMonthDay.addMonths (ymd : YearMonthDay) (months : Int) : YearMonthDay :=
  let total := 12 * ymd.year + (ymd.month - 1) + months
  { ymd with year := total / 12, month := total % 12 + 1 }

lemma yearOfEra_spec {ofEra : Int} (pos : 0 ≤ ofEra) (lt : ofEra < 146097) :
    ∃ year ofYear, yearOfEra ofEra = (year, ofYear) ∧ 0 ≤ year ∧ year < 400 ∧ 0 ≤ ofYear ∧ ofYear < 366 ∧
      ofEra = 365 * year + year / 4 - year / 100 + ofYear := by
  refine ⟨_, _, rfl, ?_⟩
  have centuries : 0 ≤ min (ofEra / 36524) 3 ∧ min (ofEra / 36524) 3 ≤ 3 ∧
      0 ≤ ofEra - 36524 * min (ofEra / 36524) 3 ∧ ofEra - 36524 * min (ofEra / 36524) 3 ≤ 36524 := by omega
  generalize min (ofEra / 36524) 3 = century at *
  generalize same : ofEra - 36524 * century = ofCentury at *
  have fours : 0 ≤ ofCentury / 1461 ∧ ofCentury / 1461 ≤ 24 ∧ 0 ≤ ofCentury - 1461 * (ofCentury / 1461) ∧
      ofCentury - 1461 * (ofCentury / 1461) < 1461 := by omega
  generalize ofCentury / 1461 = four at *
  generalize rest : ofCentury - 1461 * four = ofFour at *
  have singles : 0 ≤ min (ofFour / 365) 3 ∧ min (ofFour / 365) 3 ≤ 3 ∧
      0 ≤ ofFour - 365 * min (ofFour / 365) 3 ∧ ofFour - 365 * min (ofFour / 365) 3 < 366 := by omega
  generalize min (ofFour / 365) 3 = single at *
  have quarter : (100 * century + 4 * four + single) / 4 = 25 * century + four := by omega
  have hundredth : (100 * century + 4 * four + single) / 100 = century := by omega
  omega

lemma sysDays_ofMarchYear {month : Int} (low : 0 ≤ month) (high : month ≤ 11) (year day : Int) :
    sysDays (ofMarchYear year month day) = daysOfMarchYear year month day := by
  unfold ofMarchYear sysDays
  split
  · rw [if_neg (by dsimp only; omega), Int.add_sub_cancel]
  · rw [if_pos (by dsimp only; omega), Int.add_sub_cancel, Int.sub_add_cancel]

lemma yearMonthDay_month (days : Int) :
    1 ≤ (yearMonthDay days).month ∧ (yearMonthDay days).month ≤ 12 := by
  obtain ⟨year, ofYear, split, low, high, first, last, total⟩ :=
    yearOfEra_spec (Int.emod_nonneg (days + 719468) (by decide)) (Int.emod_lt_of_pos _ (by decide))
  unfold yearMonthDay ofMarchYear
  rw [split]
  dsimp only
  split <;> dsimp only <;> omega

/-- The date of a day is one of that day. -/
lemma sysDays_yearMonthDay (days : Int) : sysDays (yearMonthDay days) = days := by
  obtain ⟨year, ofYear, split, low, high, first, last, total⟩ :=
    yearOfEra_spec (Int.emod_nonneg (days + 719468) (by decide)) (Int.emod_lt_of_pos _ (by decide))
  have divided := Int.mul_ediv_add_emod (days + 719468) 146097
  unfold yearMonthDay
  rw [split]
  dsimp only
  rw [sysDays_ofMarchYear (by omega) (by omega)]
  unfold daysOfMarchYear
  generalize (days + 719468) / 146097 = era at *
  have quarter : (400 * era + year) / 4 = 100 * era + year / 4 := by omega
  have hundredth : (400 * era + year) / 100 = 4 * era + year / 100 := by omega
  have whole : (400 * era + year) / 400 = era := by omega
  omega

/-- Moving a date by nothing. -/
lemma YearMonthDay.addMonths_zero {ymd : YearMonthDay} (low : 1 ≤ ymd.month) (high : ymd.month ≤ 12) :
    ymd.addMonths 0 = ymd := by
  obtain ⟨year, month, day⟩ := ymd
  dsimp only at low high
  have whole : (12 * year + (month - 1) + 0) / 12 = year := by omega
  have rest : (12 * year + (month - 1) + 0) % 12 = month - 1 := by omega
  unfold addMonths
  dsimp only
  rw [whole, rest, Int.sub_add_cancel]

end OsterLib.Types
