import OsterLib.Types.Months
import OsterLib.Types.TimePeriod

/-!
# The next point of a period

`TimePeriod::get_next_tp` in `types/time_period.cpp`. A point in time is a count of nanoseconds in an `int64_t`, and a
date outside the years that `std::chrono::year` holds, or a count that overflows, leaves the result undefined.

The function begins with the date of the point, which has no time of day, and adds neither minutes nor seconds.
`getNextTp_advances_iff` says when it advances by the period all the same.
-/

namespace OsterLib.Types.TimePeriod
open OsterLib.Json (TimePeriod)

/-! ## Points in time -/

/-- The nanoseconds of a day -/
def nanosPerDay : Int := 86400000000000

/-- The nanoseconds of an hour -/
def nanosPerHour : Int := 3600000000000

/-- A count that an `int64_t` holds; there is none where it overflows. -/
def held (n : Int) : Option Int64 := if -2 ^ 63 ≤ n ∧ n < 2 ^ 63 then some (Int64.ofInt n) else none

/-- The date of a point in time -/
def dateOf (t : Int64) : YearMonthDay := yearMonthDay (t.toInt / nanosPerDay)

/-- A date with a year that `std::chrono::year` holds -/
def heldDate (ymd : YearMonthDay) : Option YearMonthDay :=
  if -32767 ≤ ymd.year ∧ ymd.year ≤ 32767 then some ymd else none

/-- `sys_days` of a date as a point in time -/
def startOf (ymd : YearMonthDay) : Option Int64 := held (nanosPerDay * sysDays ymd)

/-- `get_next_tp` -/
def getNextTp (p : TimePeriod) (t : Int64) : Option Int64 := do
  let ymd := dateOf t
  let ymd ← heldDate (ymd.addYears p.years.toInt)
  let ymd ← heldDate (ymd.addMonths p.months.toInt)
  let sd ← startOf ymd
  let days ← held (24 * p.days.toInt)
  let hours ← held (days.toInt + p.hours.toInt)
  let offset ← held (nanosPerHour * hours.toInt)
  held (sd.toInt + offset.toInt)

/-! ## What the function is for -/

/-- No count is negative. -/
structure Nonneg (p : TimePeriod) : Prop where
  years : 0 ≤ p.years.toInt
  months : 0 ≤ p.months.toInt
  days : 0 ≤ p.days.toInt
  hours : 0 ≤ p.hours.toInt
  minutes : 0 ≤ p.minutes.toInt
  seconds : 0 ≤ p.seconds.toInt

/-- `is_set` -/
def isSet (p : TimePeriod) : Bool :=
  p.years ≠ 0 || p.months ≠ 0 || p.days ≠ 0 || p.hours ≠ 0 || p.minutes ≠ 0 || p.seconds ≠ 0

/-- The date of a point moved by years and months -/
def datePlus (t : Int64) (years months : Int) : YearMonthDay := ((dateOf t).addYears years).addMonths months

/-- The date of a point moved by the years and months of a period -/
def movedDate (p : TimePeriod) (t : Int64) : YearMonthDay := datePlus t p.years.toInt p.months.toInt

/-- The point that is a period later: the moved date, the time of day, and the other counts of the period -/
def nextPoint (p : TimePeriod) (t : Int64) : Int :=
  nanosPerDay * sysDays (movedDate p t) + t.toInt % nanosPerDay + 1000000000 * total p

/-- `get_next_tp` advances by the period. -/
def Advances (p : TimePeriod) (t : Int64) : Prop :=
  ∃ tp, getNextTp p t = some tp ∧ t < tp ∧ tp.toInt = nextPoint p t

/-! ## Where the function leads -/

section leads
variable {p : TimePeriod} {t tp : Int64}

/-- A number is held exactly if it fits. -/
lemma held_eq_some_iff {n : Int} {x : Int64} : held n = some x ↔ x.toInt = n := by
  unfold held
  split
  case isTrue range =>
    have same := Int64.toInt_ofInt_of_le range.1 range.2
    constructor
    · intro eq
      rw [← Option.some.inj eq, same]
    · intro eq
      rw [← eq, Int64.ofInt_toInt]
  case isFalse beyond =>
    constructor
    · intro impossible
      cases impossible
    · intro eq
      rw [← eq] at beyond
      exact absurd ⟨Int64.le_toInt x, Int64.toInt_lt x⟩ beyond

/-- A count is held exactly within the bounds of `int64_t`. -/
lemma exists_held_iff {n : Int} : (∃ x : Int64, x.toInt = n) ↔ -2 ^ 63 ≤ n ∧ n < 2 ^ 63 := by
  constructor
  · rintro ⟨x, rfl⟩
    exact ⟨Int64.le_toInt x, Int64.toInt_lt x⟩
  · rintro ⟨low, high⟩
    exact ⟨Int64.ofInt n, Int64.toInt_ofInt_of_le low high⟩

/-- A date is held exactly if its year fits. -/
lemma heldDate_eq_some_iff {ymd ymd' : YearMonthDay} :
    heldDate ymd = some ymd' ↔ (-32767 ≤ ymd.year ∧ ymd.year ≤ 32767) ∧ ymd = ymd' := by
  unfold heldDate
  split
  case isTrue range => simp [range]
  case isFalse beyond => simp [beyond]

/-- The month of a date is from 1 to 12. -/
lemma dateOf_month (t : Int64) : 1 ≤ (dateOf t).month ∧ (dateOf t).month ≤ 12 := yearMonthDay_month _

/-- The day of a date is from 1 to 31. -/
lemma dateOf_day (t : Int64) : 1 ≤ (dateOf t).day ∧ (dateOf t).day ≤ 31 :=
  have day := yearMonthDay_day (t.toInt / nanosPerDay)
  ⟨day.1, day.2.trans (monthLength_high _)⟩

/-- The date of a time is its day. -/
lemma sysDays_dateOf (t : Int64) : sysDays (dateOf t) = t.toInt / nanosPerDay := sysDays_yearMonthDay _

/-- Adding months leaves the month from 1 to 12. -/
lemma addMonths_month (ymd : YearMonthDay) (months : Int) :
    1 ≤ (ymd.addMonths months).month ∧ (ymd.addMonths months).month ≤ 12 := by
  unfold YearMonthDay.addMonths
  dsimp only
  omega

/-- Years and months are added to the number of the month. -/
lemma datePlus_number (t : Int64) (years months : Int) :
    (datePlus t years months).monthNumber = (dateOf t).monthNumber + (12 * years + months) := by
  unfold datePlus YearMonthDay.addMonths YearMonthDay.addYears YearMonthDay.monthNumber
  dsimp only
  omega

/-- The moved date, from the day of the point -/
lemma sysDays_datePlus (t : Int64) (years months : Int) :
    sysDays (datePlus t years months) =
      firstDay ((dateOf t).monthNumber + (12 * years + months)) + ((dateOf t).day - 1) := by
  obtain ⟨low, high⟩ := addMonths_month ((dateOf t).addYears years) months
  rw [← datePlus_number]
  exact sysDays_eq low high

/-- The day of a time, by its month -/
lemma day_eq (t : Int64) : t.toInt / nanosPerDay = firstDay (dateOf t).monthNumber + ((dateOf t).day - 1) := by
  obtain ⟨low, high⟩ := dateOf_month t
  rw [← sysDays_dateOf, sysDays_eq low high]

/-- Years and months lead to a later date, by 28 days for each month at least. -/
lemma movedDate_later (nonneg : Nonneg p) (t : Int64) :
    t.toInt / nanosPerDay + 28 * (12 * p.years.toInt + p.months.toInt) ≤
      sysDays (movedDate p t) := by
  have years := nonneg.years
  have months := nonneg.months
  have later := firstDay_le (show (dateOf t).monthNumber ≤
    (dateOf t).monthNumber + (12 * p.years.toInt + p.months.toInt) by omega)
  rw [day_eq, movedDate, sysDays_datePlus]
  omega

/-- A date from which an `int64_t` counts nanoseconds is in a year that `std::chrono::year` holds. -/
lemma year_range {ymd : YearMonthDay} (month : 1 ≤ ymd.month ∧ ymd.month ≤ 12) (day : 1 ≤ ymd.day ∧ ymd.day ≤ 31) :
    (-2 ^ 63 - nanosPerDay ≤ nanosPerDay * sysDays ymd → -32767 ≤ ymd.year) ∧
      (nanosPerDay * sysDays ymd < 2 ^ 63 → ymd.year ≤ 32767) := by
  obtain ⟨low, high⟩ := month
  have days := sysDays_eq low high
  have near := firstDay_near ymd.monthNumber
  unfold YearMonthDay.monthNumber at days near
  unfold nanosPerDay
  omega

/-- The years on the way to a moved date are held, where the point that it begins is. -/
lemma moved_years (nonneg : Nonneg p) (high : nanosPerDay * sysDays (movedDate p t) < 2 ^ 63) :
    (-32767 ≤ ((dateOf t).addYears p.years.toInt).year ∧ ((dateOf t).addYears p.years.toInt).year ≤ 32767) ∧
      -32767 ≤ (movedDate p t).year ∧ (movedDate p t).year ≤ 32767 := by
  have years := nonneg.years
  have months := nonneg.months
  have bottom := Int64.le_toInt t
  obtain ⟨month, -⟩ := dateOf_month t
  have first := (year_range (dateOf_month t) (dateOf_day t)).1
  have last := (year_range (addMonths_month ((dateOf t).addYears p.years.toInt) p.months.toInt) (dateOf_day t)).2 high
  rw [sysDays_dateOf] at first
  have low : -32767 ≤ (dateOf t).year := by
    apply first
    unfold nanosPerDay
    omega
  change (movedDate p t).year ≤ 32767 at last
  have carried : (movedDate p t).year = (dateOf t).year + p.years.toInt +
      ((dateOf t).month - 1 + p.months.toInt) / 12 := by
    unfold movedDate datePlus YearMonthDay.addMonths YearMonthDay.addYears
    dsimp only
    omega
  change (-32767 ≤ (dateOf t).year + p.years.toInt ∧ (dateOf t).year + p.years.toInt ≤ 32767) ∧ _
  omega

/-- What the function returns, where it returns something -/
lemma getNextTp_eq_some_iff (nonneg : Nonneg p) :
    getNextTp p t = some tp ↔
      -2 ^ 63 ≤ nanosPerDay * sysDays (movedDate p t) ∧
        nanosPerHour * (24 * p.days.toInt + p.hours.toInt) < 2 ^ 63 ∧
        tp.toInt = nanosPerDay * sysDays (movedDate p t) +
          nanosPerHour * (24 * p.days.toInt + p.hours.toInt) := by
  unfold getNextTp startOf
  simp only [Option.bind_eq_bind, Option.bind_eq_some_iff, heldDate_eq_some_iff, held_eq_some_iff]
  constructor
  · rintro ⟨_, ⟨-, rfl⟩, _, ⟨-, rfl⟩, sd, start, ofDays, day, ofHours, hour, offset, nanos, result⟩
    change sd.toInt = nanosPerDay * sysDays (movedDate p t) at start
    rw [day] at hour
    rw [hour] at nanos
    rw [start, nanos] at result
    refine ⟨?_, ?_, result⟩
    · rw [← start]
      exact Int64.le_toInt sd
    · rw [← nanos]
      exact Int64.toInt_lt offset
  · rintro ⟨low, short, result⟩
    have high := Int64.toInt_lt tp
    have days := nonneg.days
    have hours := nonneg.hours
    have hoursOf : 0 ≤ nanosPerHour * (24 * p.days.toInt + p.hours.toInt) := by
      unfold nanosPerHour
      omega
    -- what is counted on the way is held because the result is
    have small : 24 * p.days.toInt + p.hours.toInt < 2 ^ 63 := by
      unfold nanosPerHour at short
      omega
    obtain ⟨years, moved⟩ := moved_years nonneg (show nanosPerDay * sysDays (movedDate p t) < 2 ^ 63 by omega)
    obtain ⟨sd, start⟩ := exists_held_iff.mpr ⟨low, (show nanosPerDay * sysDays (movedDate p t) < 2 ^ 63 by omega)⟩
    obtain ⟨ofDays, day⟩ := exists_held_iff.mpr (show -2 ^ 63 ≤ 24 * p.days.toInt ∧ 24 * p.days.toInt < 2 ^ 63 by omega)
    obtain ⟨ofHours, hour⟩ := exists_held_iff.mpr
      (show -2 ^ 63 ≤ 24 * p.days.toInt + p.hours.toInt ∧ 24 * p.days.toInt + p.hours.toInt < 2 ^ 63 by omega)
    obtain ⟨offset, nanos⟩ := exists_held_iff.mpr ⟨(show -2 ^ 63 ≤ _ by omega), short⟩
    refine ⟨_, ⟨years, rfl⟩, _, ⟨moved, rfl⟩, sd, start, ofDays, day, ofHours, ?_, offset, ?_, ?_⟩
    · rw [day, hour]
    · rw [hour, nanos]
    · rw [start, nanos, result]

end leads

/-- `get_next_tp` advances by the period exactly where the point has no time of day, the period neither minutes nor
    seconds, and no count overflows. -/
theorem getNextTp_advances_iff {p : TimePeriod} (t : Int64) (nonneg : Nonneg p) (set : isSet p = true) :
    Advances p t ↔
      t.toInt % nanosPerDay = 0 ∧ p.minutes = 0 ∧ p.seconds = 0 ∧
        nanosPerHour * (24 * p.days.toInt + p.hours.toInt) < 2 ^ 63 ∧ nextPoint p t < 2 ^ 63 := by
  unfold Advances
  simp only [getNextTp_eq_some_iff nonneg, eq_zero_iff, Int64.lt_iff_toInt_lt]
  have later := movedDate_later nonneg t
  have split := Int.mul_ediv_add_emod t.toInt nanosPerDay
  have rest := Int.emod_nonneg t.toInt (show nanosPerDay ≠ 0 by decide)
  have bottom := Int64.le_toInt t
  obtain ⟨years, months, days, hours, minutes, seconds⟩ := nonneg
  simp only [isSet, Bool.or_eq_true, decide_eq_true_eq, ne_eq, eq_zero_iff] at set
  unfold nextPoint total
  generalize sysDays (movedDate p t) = moved at *
  generalize t.toInt % nanosPerDay = timeOfDay at *
  generalize t.toInt / nanosPerDay = day at *
  unfold nanosPerDay nanosPerHour at *
  constructor
  · rintro ⟨tp, ⟨low, short, result⟩, strict, same⟩
    have high := Int64.toInt_lt tp
    omega
  · rintro ⟨midnight, minute, second, short, high⟩
    obtain ⟨tp, result⟩ := exists_held_iff.mpr
      (show -2 ^ 63 ≤ 86400000000000 * moved + 3600000000000 * (24 * p.days.toInt + p.hours.toInt) ∧
        86400000000000 * moved + 3600000000000 * (24 * p.days.toInt + p.hours.toInt) < 2 ^ 63 by omega)
    refine ⟨tp, ⟨by omega, short, result⟩, ?_, ?_⟩
    · omega
    · omega

/-- Half a day behind the beginning, an hour later is an hour behind the beginning. -/
theorem getNextTp_goes_back :
    getNextTp { hours := 1 } 43200000000000 = some 3600000000000 ∧ ¬Advances { hours := 1 } 43200000000000 := by
  have earlier : getNextTp { hours := 1 } 43200000000000 = some 3600000000000 := by decide +kernel
  refine ⟨earlier, ?_⟩
  rintro ⟨tp, result, later, -⟩
  rw [earlier] at result
  cases result
  exact absurd later (by decide)

/-- A month behind the beginning, and a day and an hour. -/
theorem getNextTp_advances_month :
    Advances { months := 1, days := 1, hours := 1 } 0 ↔
      (0 : Int64).toInt % nanosPerDay = 0 ∧ (0 : Int64) = 0 ∧ (0 : Int64) = 0 ∧
        nanosPerHour * (24 * (1 : Int64).toInt + (1 : Int64).toInt) < 2 ^ 63 ∧
        nextPoint { months := 1, days := 1, hours := 1 } 0 < 2 ^ 63 :=
  getNextTp_advances_iff 0 ⟨by decide, by decide, by decide, by decide, by decide, by decide⟩ (by decide)

end OsterLib.Types.TimePeriod
