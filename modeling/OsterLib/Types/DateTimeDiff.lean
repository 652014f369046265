import Mathlib.Algebra.Order.Field.Rat
import Mathlib.Algebra.Order.Ring.Abs
import Mathlib.Algebra.Order.Ring.Cast
import Mathlib.Tactic.NormNum
import OsterLib.Types.Calendar

/-!
# Differences of dates

`DateTimeDiff` of `types/time_interval.h`, which counts years in 16 bits and every other unit in 8. There are two
decompositions of a difference: `between` compares the dates and the times of day field by field, and `divided`
divides by a number of intervals, in `double`s, which are read as rational numbers. The conversion of a number that
does not fit is undefined.
-/

namespace OsterLib.Types

/-- `DateTimeDiff` -/
structure DateTimeDiff where
  years : Int16 := 0
  months : Int8 := 0
  days : Int8 := 0
  hours : Int8 := 0
  minutes : Int8 := 0
  seconds : Int8 := 0
  deriving DecidableEq, Repr

namespace DateTimeDiff

/-- The fields, from the years to the seconds -/
def fields (d : DateTimeDiff) : List Int :=
  [d.years.toInt, d.months.toInt, d.days.toInt, d.hours.toInt, d.minutes.toInt, d.seconds.toInt]

/-- A count that fits `int16_t` -/
def fits16 (count : Int) : Option Int16 :=
  if -2 ^ 15 ≤ count ∧ count < 2 ^ 15 then some (Int16.ofInt count) else none

/-- A count that fits `int8_t` -/
def fits8 (count : Int) : Option Int8 :=
  if -2 ^ 7 ≤ count ∧ count < 2 ^ 7 then some (Int8.ofInt count) else none

/-- The constructor of a count of each unit. One that does not fit is left zero, and sets the error code to
    `invalid_argument`, which is `true` here. -/
def ofCounts (years months days hours minutes seconds : Int) : DateTimeDiff × Bool :=
  ({ years := (fits16 years).getD 0
     months := (fits8 months).getD 0
     days := (fits8 days).getD 0
     hours := (fits8 hours).getD 0
     minutes := (fits8 minutes).getD 0
     seconds := (fits8 seconds).getD 0 },
    (fits16 years).isNone || (fits8 months).isNone || (fits8 days).isNone || (fits8 hours).isNone ||
      (fits8 minutes).isNone || (fits8 seconds).isNone)

/-- What ends a call without a value: an exception, an undefined conversion, or a number that `int` does not hold. -/
inductive Fault where
  | invalidArgument
  | undefinedConversion
  | overflow
  deriving DecidableEq, Repr

/-- `getDaysInMonth` -/
def getDaysInMonth (year month : Int) : Int :=
  if month = 2 && isLeap year then 29
  else [31, 28, 31, 30, 31, 30, 31, 31, 30, 31, 30, 31].getD (month - 1).toNat 0

/-- A comparison of two dates and times. Where the day of the month is behind, a month is taken back, but the
    difference of the months replaces this unless it is negative. -/
def between (start stop : Seconds) : Except Fault DateTimeDiff :=
  let ymdFrom := yearMonthDay (floorDays start)
  let ymdTo := yearMonthDay (floorDays stop)
  let days := ymdTo.day - ymdFrom.day
  let months := ymdTo.month - ymdFrom.month
  let years := ymdTo.year - ymdFrom.year
  if 2 ^ 15 ≤ years ∨ years < -2 ^ 15 then .error .invalidArgument
  else
    .ok {
      years := (if months < 0 then -1 else 0) + Int16.ofInt years
      months := if months < 0 then (if days < 0 then -1 else 0) + Int8.ofInt (months + 12) else Int8.ofInt months
      days := if days < 0 then Int8.ofInt (days + getDaysInMonth ymdFrom.year ymdFrom.month) else Int8.ofInt days
      hours := Int8.ofInt ((stop % 86400 - start % 86400).tdiv 3600)
      minutes := Int8.ofInt ((stop % 3600 - start % 3600).tdiv 60)
      seconds := Int8.ofInt (stop % 60 - start % 60) }

/-! ## Division -/

/-- The conversion of a `double` cuts off its fraction. -/
def truncate (x : ℚ) : Int := x.num.tdiv x.den

def castInt8 (x : ℚ) : Except Fault Int8 :=
  if -2 ^ 7 ≤ truncate x ∧ truncate x < 2 ^ 7 then .ok (Int8.ofInt (truncate x)) else .error .undefinedConversion

def castInt16 (x : ℚ) : Except Fault Int16 :=
  if -2 ^ 15 ≤ truncate x ∧ truncate x < 2 ^ 15 then .ok (Int16.ofInt (truncate x))
  else .error .undefinedConversion

/-- What is left of a number when its conversion to `uint64_t` is taken off. -/
def fraction (x : ℚ) : Except Fault ℚ :=
  if 0 ≤ truncate x ∧ truncate x < 2 ^ 64 then .ok (x - truncate x) else .error .undefinedConversion

/-- `numeric_limits<double>::epsilon` -/
def epsilon : ℚ := 1 / 2 ^ 52

/-- `fmod(fabs(number), 1)` is zero. -/
def isInteger (x : ℚ) : Bool := |x| - truncate |x| < epsilon

def daysBetweenDates (ymdFrom ymdTo : YearMonthDay) : Int := |sysDays ymdTo - sysDays ymdFrom|

/-- `number_leap_days`, where the divisions cut off and the result is converted to `uint32_t`. -/
def numberLeapDays (ymdFrom ymdTo : YearMonthDay) : Int :=
  let leapCount (year : Int) := year.tdiv 4 - year.tdiv 100 + year.tdiv 400
  let total := leapCount (ymdTo.year - 1) - leapCount (ymdFrom.year - 1)
  let leap (year : Int) := year % 4 = 0 ∧ (year % 100 ≠ 0 ∨ year % 16 = 0)
  let total := if leap ymdFrom.year ∧ ymdFrom.month < 3 then total + 1 else total
  let total :=
    if leap ymdTo.year ∧ (2 < ymdTo.month ∨ (ymdTo.month = 2 ∧ ymdTo.day = 29)) then total + 1 else total
  total % 2 ^ 32

/-- `isLeapYear`, of a year that is converted to `uint16_t` -/
def isLeapYear (year : Int) : Bool :=
  let year := year % 2 ^ 16
  (year % 4 = 0 && year % 100 ≠ 0) || year % 400 = 0

/-- `date` less than a month ahead: days, hours, minutes and seconds of the difference. The hours and minutes are
    taken off as seconds, after the division that makes hours and minutes of the rest. -/
def dividedDays (difference totalDays intervals : Int) : Except Fault DateTimeDiff := do
  let diff : ℚ := difference.tdiv intervals
  let days := Int8.ofInt (totalDays / intervals)
  let diff := (diff - days.toInt * 86400) / 3600
  let hours ← castInt8 diff
  let diff := (diff - hours.toInt * 3600) / 60
  let minutes ← castInt8 diff
  let diff := diff - minutes.toInt * 60
  let seconds ← castInt8 diff
  return { days, hours, minutes, seconds }

/-- The time of day, and the day that is taken back where it is behind. -/
def dividedTime (fromTime toTime : Seconds) (intervals : Int) : Except Fault DateTimeDiff := do
  let diff : ℚ := (if fromTime > toTime then toTime - fromTime + 86400 else toTime - fromTime : Int) / intervals
  let hours ← castInt8 (diff / 3600)
  let minutes ← castInt8 ((diff - hours.toInt * 3600) / 60)
  let seconds ← castInt8 (diff - hours.toInt * 3600 - minutes.toInt * 60)
  return { days := if fromTime > toTime then -1 else 0, hours, minutes, seconds }

/-- A rest of days in seconds is added to the time of day. -/
def carryTime (result : DateTimeDiff) (diff : ℚ) : Except Fault DateTimeDiff := do
  let hours ← castInt8 (diff / 3600)
  let diff := diff - hours.toInt * 3600
  let minutes ← castInt8 (diff / 60)
  let diff := diff - minutes.toInt * 60
  let seconds ← castInt8 diff
  return { result with
    hours := result.hours + hours, minutes := result.minutes + minutes, seconds := result.seconds + seconds }

/-- The days of the month, and the month that is taken back where they are behind. -/
def addDays (ymdFrom ymdTo : YearMonthDay) (intervals : Int) (result : DateTimeDiff) :
    Except Fault DateTimeDiff := do
  let behind : Bool := ymdTo.day < ymdFrom.day
  let length := if behind then getDaysInMonth ymdFrom.year ymdFrom.month else 0
  let diff : ℚ := (ymdTo.day - ymdFrom.day + length + result.days.toInt : Int) / intervals
  let days ← castInt8 diff
  let result := { result with days, months := if behind then -1 else 0 }
  let diff ← fraction diff
  if diff > epsilon then carryTime result (diff * 86400) else return result

/-- The months, of which the difference is one of `std::chrono::month`s, and the year that is taken back. -/
def addMonths (ymdFrom ymdTo : YearMonthDay) (intervals : Int) (result : DateTimeDiff) :
    Except Fault DateTimeDiff := do
  let diff : ℚ := ((ymdTo.month - ymdFrom.month) % 12 + result.months.toInt : Int) / intervals
  let months ← castInt8 diff
  let result := { result with months, years := if ymdTo.month < ymdFrom.month then -1 else 0 }
  let diff ← fraction diff
  if diff > epsilon then
    let daysInMonth := getDaysInMonth ymdFrom.year ymdFrom.month
    let diff := diff * (86400 * daysInMonth)
    let days ← castInt8 (diff / (daysInMonth * 86400))
    carryTime { result with days := result.days + days } (diff - daysInMonth * 86400)
  else return result

/-- The rest of a year, which is added to all other fields. -/
def carryYear (ymdFrom : YearMonthDay) (result : DateTimeDiff) (diff : ℚ) : Except Fault DateTimeDiff := do
  let months ← castInt16 (diff * 12)
  let length : Int := if isLeapYear ymdFrom.year && (ymdFrom.month < 3 : Bool) then 366 else 365
  let result := { result with months := Int8.ofInt (result.months.toInt + months.toInt) }
  let diff := (diff - months.toInt / 12) * length
  let days ← castInt8 diff
  let result := { result with days := result.days + days }
  let diff := diff - days.toInt
  let hours ← castInt8 (diff * 24)
  let result := { result with hours := result.hours + hours }
  let diff := diff - hours.toInt / 24
  let minutes ← castInt8 (diff * 1440)
  let result := { result with minutes := result.minutes + minutes }
  let diff := diff - minutes.toInt / (1440 * length)
  let seconds ← castInt8 (diff * 86400)
  return { result with seconds := result.seconds + seconds }

def addYears (ymdFrom ymdTo : YearMonthDay) (intervals : Int) (result : DateTimeDiff) :
    Except Fault DateTimeDiff := do
  let diff : ℚ := (ymdTo.year - ymdFrom.year + result.years.toInt : Int) / intervals
  let years ← castInt16 diff
  let result := { result with years }
  let diff ← fraction diff
  if diff > epsilon then carryYear ymdFrom result diff else return result

/-- The division of two different times by a number that is not zero. -/
def divide (start stop : Seconds) (intervals : Int) : Except Fault DateTimeDiff :=
  let ymdFrom := yearMonthDay (floorDays start)
  let ymdTo := yearMonthDay (floorDays stop)
  let totalDays := daysBetweenDates ymdFrom ymdTo
  if totalDays < getDaysInMonth ymdFrom.year ymdFrom.month then
    dividedDays (stop - start) totalDays intervals
  else do
    let result ← dividedTime (timeOfDay start) (timeOfDay stop) intervals
    let result ← addDays ymdFrom ymdTo intervals result
    let result ← addMonths ymdFrom ymdTo intervals result
    addYears ymdFrom ymdTo intervals result

/-- A difference divided by a number of intervals, with the error code, which is `true` where it is set. -/
def divided (start stop : Seconds) (intervals : UInt32) (err : Bool) : Except Fault (DateTimeDiff × Bool) :=
  let n : Int := intervals.toNat
  if start = stop then .ok ({}, err || (0 < n : Bool))
  else if n = 0 then .ok ({}, true)
  else
    let leapDays := numberLeapDays (yearMonthDay (floorDays start)) (yearMonthDay (floorDays stop))
    if isInteger ((stop - start - 86400 * leapDays : Int) / n) then
      (divide start stop n).map fun result => (result, err)
    else .ok ({}, true)

/-! ## Division by one -/

lemma truncate_intCast (n : Int) : truncate n = n := by
  unfold truncate
  rw [Rat.num_intCast, Rat.den_intCast]
  exact Int.tdiv_one n

lemma isInteger_intCast (n : Int) : isInteger n = true := by
  unfold isInteger
  rw [← Int.cast_abs, truncate_intCast, sub_self]
  exact decide_eq_true (by norm_num [epsilon])

/-- Every difference of two times is divided by one. -/
lemma divided_one {start stop : Seconds} (apart : start ≠ stop) (err : Bool) :
    divided start stop 1 err = (divide start stop 1).map fun result => (result, err) := by
  have one : ((1 : UInt32).toNat : Int) = 1 := rfl
  unfold divided
  rw [if_neg apart, one, if_neg (by decide)]
  dsimp only
  rw [Int.cast_one, div_one, isInteger_intCast, if_pos rfl]

end DateTimeDiff
end OsterLib.Types
