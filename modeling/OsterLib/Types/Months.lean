import Mathlib.Tactic.IntervalCases
import OsterLib.Types.DateTimeDiff

/-!
# Months

Months are numbered from the one that begins the year zero, so that moving a date by months is an addition. A date is
the first day of its month and the days behind it, of which there may be more than the month has.

A month has between 28 and 31 days, and any number of months has, to a few days, as many days wherever they are
(`firstDay_near`).
-/

namespace OsterLib.Types
open DateTimeDiff

/-- The number of the month of a date -/
def YearMonthDay.monthNumber (ymd : YearMonthDay) : Int := 12 * ymd.year + (ymd.month - 1)

/-- The first day of a month -/
def firstDay (number : Int) : Int := sysDays { year := number / 12, month := number % 12 + 1, day := 1 }

/-- The number of days of a month -/
def monthLength (number : Int) : Int := getDaysInMonth (number / 12) (number % 12 + 1)

/-- The number of the month of a time -/
def monthOf (time : Int) : Int := (yearMonthDay (floorDays time)).monthNumber

/-- The day of the month of a time -/
def dayOf (time : Int) : Int := (yearMonthDay (floorDays time)).day

/-- The beginning of a month -/
def monthStart (number : Int) : Int := 86400 * firstDay number

/-- The time since the beginning of the month -/
def timeOfMonth (time : Int) : Int := 86400 * (dayOf time - 1) + time % 86400

/-- The leap days of the years until one -/
def leapDays (year : Int) : Int := year / 4 - year / 100 + year / 400

/-- The days of the years that begin in March, and of their months -/
lemma firstDay_eq (number : Int) :
    firstDay number = 365 * ((number - 2) / 12) + leapDays ((number - 2) / 12) + daysBefore ((number - 2) % 12) -
      719468 := by
  unfold firstDay sysDays daysOfMarchYear leapDays
  dsimp only
  split
  case isTrue early =>
    have year : (number - 2) / 12 = number / 12 - 1 := by omega
    have month : (number - 2) % 12 = number % 12 + 1 + 9 := by omega
    rw [year, month]
    omega
  case isFalse late =>
    have year : (number - 2) / 12 = number / 12 := by omega
    have month : (number - 2) % 12 = number % 12 + 1 - 3 := by omega
    rw [year, month]
    omega

/-- The days of a date, by its month -/
lemma sysDays_eq {ymd : YearMonthDay} (low : 1 ≤ ymd.month) (high : ymd.month ≤ 12) :
    sysDays ymd = firstDay ymd.monthNumber + (ymd.day - 1) := by
  have year : ymd.monthNumber / 12 = ymd.year := by
    unfold YearMonthDay.monthNumber
    omega
  have month : ymd.monthNumber % 12 + 1 = ymd.month := by
    unfold YearMonthDay.monthNumber
    omega
  unfold firstDay
  rw [year, month]
  unfold sysDays daysOfMarchYear
  dsimp only
  split <;> omega

/-- The leap years, by their divisors -/
lemma isLeap_iff (year : Int) : isLeap year = true ↔ year % 4 = 0 ∧ (year % 100 ≠ 0 ∨ year % 400 = 0) := by
  unfold isLeap
  simp only [Bool.and_eq_true, Bool.or_eq_true, decide_eq_true_eq]

/-- A leap year adds a day. -/
lemma leapDays_succ (year : Int) : leapDays (year + 1) = leapDays year + if isLeap (year + 1) then 1 else 0 := by
  have four : (year + 1) / 4 = year / 4 + if (year + 1) % 4 = 0 then 1 else 0 := by split <;> omega
  have hundred : (year + 1) / 100 = year / 100 + if (year + 1) % 100 = 0 then 1 else 0 := by split <;> omega
  have fourHundred : (year + 1) / 400 = year / 400 + if (year + 1) % 400 = 0 then 1 else 0 := by split <;> omega
  have century : (year + 1) % 100 = 0 → (year + 1) % 4 = 0 := by omega
  have fourCenturies : (year + 1) % 400 = 0 → (year + 1) % 100 = 0 := by omega
  unfold leapDays
  rw [four, hundred, fourHundred]
  simp only [isLeap_iff]
  generalize (year + 1) % 4 = ofFour at *
  generalize (year + 1) % 100 = ofCentury at *
  generalize (year + 1) % 400 = ofEra at *
  split_ifs <;> omega

/-- The days of a month by its place in the year that begins in March -/
lemma monthLength_eq (number : Int) :
    monthLength number =
      if (number - 2) % 12 = 11 then if isLeap ((number - 2) / 12 + 1) then 29 else 28
      else daysBefore ((number - 2) % 12 + 1) - daysBefore ((number - 2) % 12) := by
  have low := Int.emod_nonneg number (by decide : (12 : Int) ≠ 0)
  have high := Int.emod_lt_of_pos number (by decide : (0 : Int) < 12)
  have shifted : (number - 2) % 12 = if number % 12 < 2 then number % 12 + 10 else number % 12 - 2 := by omega
  have year : (number - 2) / 12 = if number % 12 < 2 then number / 12 - 1 else number / 12 := by omega
  rw [shifted, year]
  unfold monthLength getDaysInMonth daysBefore
  generalize number % 12 = month at low high
  interval_cases month <;> simp

/-- A month ends where the next one begins. -/
lemma firstDay_succ (number : Int) : firstDay (number + 1) = firstDay number + monthLength number := by
  rw [firstDay_eq, firstDay_eq, monthLength_eq]
  split
  case isTrue last =>
    have year : (number + 1 - 2) / 12 = (number - 2) / 12 + 1 := by omega
    have month : (number + 1 - 2) % 12 = 0 := by omega
    rw [year, month, last, leapDays_succ]
    unfold daysBefore
    split <;> omega
  case isFalse before =>
    have year : (number + 1 - 2) / 12 = (number - 2) / 12 := by omega
    have month : (number + 1 - 2) % 12 = (number - 2) % 12 + 1 := by omega
    rw [year, month]
    omega

/-- A month has 28 days or more. -/
lemma monthLength_low (number : Int) : 28 ≤ monthLength number := by
  rw [monthLength_eq]
  unfold daysBefore
  split_ifs <;> omega

/-- A month has 31 days or fewer. -/
lemma monthLength_high (number : Int) : monthLength number ≤ 31 := by
  rw [monthLength_eq]
  unfold daysBefore
  split_ifs <;> omega

/-- A year that has a 29th of February ends with it. -/
lemma yearOfEra_last {ofEra year : Int} (pos : 0 ≤ ofEra) (lt : ofEra < 146097)
    (split : yearOfEra ofEra = (year, 365)) : isLeap (year + 1) = true := by
  unfold yearOfEra at split
  injection split with single last
  rw [isLeap_iff]
  have centuries : 0 ≤ min (ofEra / 36524) 3 ∧ min (ofEra / 36524) 3 ≤ 3 ∧
      (ofEra - 36524 * min (ofEra / 36524) 3 < 36524 ∨ min (ofEra / 36524) 3 = 3) ∧
      0 ≤ ofEra - 36524 * min (ofEra / 36524) 3 := by omega
  generalize min (ofEra / 36524) 3 = century at *
  generalize same : ofEra - 36524 * century = ofCentury at *
  have fours : 0 ≤ ofCentury / 1461 ∧ ofCentury / 1461 ≤ 24 := by omega
  have ofFours : ofCentury - 1461 * (ofCentury / 1461) < 1461 := by omega
  generalize ofCentury / 1461 = four at *
  generalize rest : ofCentury - 1461 * four = ofFour at *
  have third : min (ofFour / 365) 3 = 3 := by omega
  rw [third] at single last
  omega

/-- The date of a day is in its month. -/
lemma yearMonthDay_day (days : Int) :
    1 ≤ (yearMonthDay days).day ∧ (yearMonthDay days).day ≤ monthLength (yearMonthDay days).monthNumber := by
  have pos := Int.emod_nonneg (days + 719468) (by decide : (146097 : Int) ≠ 0)
  have lt := Int.emod_lt_of_pos (days + 719468) (by decide : (0 : Int) < 146097)
  obtain ⟨year, ofYear, split, low, high, first, last, total⟩ := yearOfEra_spec pos lt
  have leap : ofYear = 365 → isLeap (year + 1) = true := fun same => yearOfEra_last pos lt (same ▸ split)
  rw [isLeap_iff] at leap
  unfold yearMonthDay
  rw [split]
  dsimp only
  generalize (days + 719468) / 146097 = era
  have number : (ofMarchYear (400 * era + year) ((5 * ofYear + 2) / 153)
      (ofYear - daysBefore ((5 * ofYear + 2) / 153) + 1)).monthNumber - 2 =
        12 * (400 * era + year) + (5 * ofYear + 2) / 153 := by
    unfold ofMarchYear YearMonthDay.monthNumber
    split <;> dsimp only <;> omega
  have day : (ofMarchYear (400 * era + year) ((5 * ofYear + 2) / 153)
      (ofYear - daysBefore ((5 * ofYear + 2) / 153) + 1)).day = ofYear - daysBefore ((5 * ofYear + 2) / 153) + 1 := by
    unfold ofMarchYear
    split <;> rfl
  have place : (12 * (400 * era + year) + (5 * ofYear + 2) / 153) / 12 = 400 * era + year := by omega
  have month : (12 * (400 * era + year) + (5 * ofYear + 2) / 153) % 12 = (5 * ofYear + 2) / 153 := by omega
  rw [monthLength_eq, number, day, place, month]
  have leap' : ofYear = 365 → isLeap (400 * era + year + 1) = true := by
    rw [isLeap_iff]
    omega
  unfold daysBefore
  split_ifs with later leaps
  · omega
  · have before := mt leap' leaps
    omega
  · omega

/-- Every month has at least 28 days. -/
lemma firstDay_add_le (number : Int) (months : Nat) : firstDay number + 28 * months ≤ firstDay (number + months) := by
  induction months with
  | zero => simp
  | succ months ih =>
    have next := firstDay_succ (number + months)
    have long := monthLength_low (number + months)
    rw [Nat.cast_succ, ← Int.add_assoc]
    omega

/-- Months begin 28 days apart or more. -/
lemma firstDay_le {number number' : Int} (le : number ≤ number') :
    firstDay number + 28 * (number' - number) ≤ firstDay number' := by
  obtain ⟨months, rfl⟩ := Int.le.dest le
  rw [add_sub_cancel_left]
  exact firstDay_add_le number months

/-- 4800 months have 146097 days, and the beginnings of the months are never far from where they would be if all were
    equally long. -/
lemma firstDay_near (number : Int) :
    -3453770000 ≤ 4800 * firstDay number - 146097 * number ∧
      4800 * firstDay number - 146097 * number ≤ -3453700000 := by
  rw [firstDay_eq]
  unfold leapDays daysBefore
  omega

/-- Some months have fewer days than any one more. -/
lemma span_lt (number number' : Int) {months months' : Int} (lt : months < months') :
    firstDay (number + months) - firstDay number < firstDay (number' + months') - firstDay number' := by
  have first := firstDay_near number
  have second := firstDay_near (number + months)
  have third := firstDay_near number'
  have fourth := firstDay_near (number' + months')
  omega

/-! ## Times -/

/-- A day is one of its month. -/
lemma floorDays_eq (time : Int) : floorDays time = firstDay (monthOf time) + (dayOf time - 1) := by
  obtain ⟨low, high⟩ := yearMonthDay_month (floorDays time)
  have date := sysDays_eq low high
  rw [sysDays_yearMonthDay] at date
  exact date

/-- A time is so far in its month. -/
lemma time_eq (time : Int) : monthStart (monthOf time) + timeOfMonth time = time := by
  have date := floorDays_eq time
  unfold monthStart timeOfMonth
  unfold floorDays at date
  omega

/-- A time is inside of its month. -/
lemma timeOfMonth_range (time : Int) :
    0 ≤ timeOfMonth time ∧ timeOfMonth time < 86400 * monthLength (monthOf time) := by
  have day : 1 ≤ dayOf time ∧ dayOf time ≤ monthLength (monthOf time) := yearMonthDay_day (floorDays time)
  unfold timeOfMonth
  omega

/-- A month ends where the next one begins. -/
lemma monthStart_succ (number : Int) : monthStart (number + 1) = monthStart number + 86400 * monthLength number := by
  unfold monthStart
  rw [firstDay_succ, Int.mul_add]

/-- A later month does not begin earlier. -/
lemma monthStart_le {number number' : Int} (le : number ≤ number') : monthStart number ≤ monthStart number' := by
  have days := firstDay_le le
  unfold monthStart
  omega

/-- A later time is not in an earlier month. -/
lemma monthOf_mono {time time' : Int} (le : time ≤ time') : monthOf time ≤ monthOf time' := by
  by_contra lt
  have split := time_eq time
  have split' := time_eq time'
  have low := (timeOfMonth_range time).1
  have high := (timeOfMonth_range time').2
  have next := monthStart_succ (monthOf time')
  have := monthStart_le (show monthOf time' + 1 ≤ monthOf time by omega)
  omega

end OsterLib.Types
