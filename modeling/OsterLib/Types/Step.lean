import OsterLib.Types.Months
import OsterLib.Types.TimeSequence

/-!
# Steps

A step moves a time by its years and months, which keep the day, and by its days and its time of day, which are
seconds. `operator[]` takes any number of steps at once, and `operator+` and `operator-` of `types/time_interval.h`
take one, each on its own: they drop the time of day, a month that is behind the last one of the year begins again in
the same year, and a day counts in 8 bits.

`operator+` leads where `operator[]` does, and `operator-` back, exactly for the times and steps of `step_right_iff`.
-/

namespace OsterLib.Types

/-- The years and months of a step, in months -/
def DateTimeDiff.wholeMonths (d : DateTimeDiff) : Int := d.years.toInt * 12 + d.months.toInt

/-- The days and the time of day of a step, in seconds -/
def DateTimeDiff.restSeconds (d : DateTimeDiff) : Int :=
  d.days.toInt * 86400 + d.hours.toInt * 3600 + d.minutes.toInt * 60 + d.seconds.toInt

/-- No field is negative. -/
structure DateTimeDiff.Nonneg (d : DateTimeDiff) : Prop where
  years : 0 ≤ d.years.toInt
  months : 0 ≤ d.months.toInt
  days : 0 ≤ d.days.toInt
  hours : 0 ≤ d.hours.toInt
  minutes : 0 ≤ d.minutes.toInt
  seconds : 0 ≤ d.seconds.toInt

/-! ## Progressions -/

/-- Where a number of steps of months and seconds leads. -/
def progression (first months seconds number : Int) : Int :=
  monthStart (monthOf first + months * number) + timeOfMonth first + seconds * number

section progression
variable {first months seconds number number' : Int}

/-- A progression that moves is increasing. -/
lemma progression_lt (pos : 0 ≤ months) (pos' : 0 ≤ seconds) (moves : months ≠ 0 ∨ seconds ≠ 0)
    (lt : number < number') : progression first months seconds number < progression first months seconds number' := by
  have far : months * number ≤ months * number' := Int.mul_le_mul_of_nonneg_left (Int.le_of_lt lt) pos
  have later : seconds * number ≤ seconds * number' := Int.mul_le_mul_of_nonneg_left (Int.le_of_lt lt) pos'
  have days := firstDay_le (show monthOf first + months * number ≤ monthOf first + months * number' by omega)
  unfold progression monthStart
  rcases moves with moves | moves
  · have : months * number < months * number' := Int.mul_lt_mul_of_pos_left lt (by omega)
    omega
  · have : seconds * number < seconds * number' := Int.mul_lt_mul_of_pos_left lt (by omega)
    omega

/-- A progression begins at its first time. -/
lemma progression_zero (first months seconds : Int) : progression first months seconds 0 = first := by
  unfold progression
  rw [Int.mul_zero, Int.mul_zero, Int.add_zero, Int.add_zero, time_eq]

end progression

/-- `operator[]` follows a progression. -/
lemma pointOf_eq (first : Int) (step : DateTimeDiff) (number : Int) :
    TimeSequence.pointOf first step number = progression first step.wholeMonths step.restSeconds number := by
  obtain ⟨low, high⟩ := yearMonthDay_month (floorDays first)
  have number_eq : (((yearMonthDay (floorDays first)).addYears (step.years.toInt * number)).addMonths
      (step.months.toInt * number)).monthNumber = monthOf first + step.wholeMonths * number := by
    unfold YearMonthDay.addMonths YearMonthDay.addYears YearMonthDay.monthNumber monthOf YearMonthDay.monthNumber
      DateTimeDiff.wholeMonths
    dsimp only
    rw [Int.add_mul, Int.mul_right_comm]
    omega
  unfold TimeSequence.pointOf
  dsimp only
  rw [sysDays_eq, number_eq]
  · unfold progression monthStart timeOfMonth dayOf DateTimeDiff.restSeconds timeOfDay YearMonthDay.addMonths
      YearMonthDay.addYears
    dsimp only
    rw [Int.add_mul, Int.add_mul, Int.add_mul, Int.mul_right_comm, Int.mul_right_comm _ 3600, Int.mul_right_comm _ 60]
    change @Eq Int _ _
    omega
  · unfold YearMonthDay.addMonths
    dsimp only
    omega
  · unfold YearMonthDay.addMonths
    dsimp only
    omega

/-! ## One step -/

/-- `std::chrono::month`, which does not carry into the year -/
def monthPlus (month months : Int) : Int := (month - 1 + months) % 12 + 1

/-- `std::chrono::day`, which counts in 8 bits -/
def dayPlus (day days : Int) : Int := (day + days) % 256

namespace DateTimeDiff

/-- The time of day of a step, of which there may be more than a day -/
def clock (d : DateTimeDiff) : Int := d.hours.toInt * 3600 + d.minutes.toInt * 60 + d.seconds.toInt

/-- `operator+` -/
def plus (time : Int) (diff : DateTimeDiff) : Int :=
  let ymd := yearMonthDay (floorDays time)
  diff.seconds.toInt + 60 * diff.minutes.toInt + 3600 * diff.hours.toInt +
    86400 * sysDays {
      year := ymd.year + diff.years.toInt
      month := monthPlus ymd.month diff.months.toInt
      day := dayPlus ymd.day diff.days.toInt }

/-- `operator-` -/
def minus (time : Int) (diff : DateTimeDiff) : Int :=
  let ymd := yearMonthDay (floorDays time)
  86400 * sysDays {
      year := ymd.year - diff.years.toInt
      month := monthPlus ymd.month (-diff.months.toInt)
      day := dayPlus ymd.day (-diff.days.toInt) } -
    3600 * diff.hours.toInt - 60 * diff.minutes.toInt - diff.seconds.toInt

/-- The ways to take a step agree: `operator+` leads to the first point behind the beginning, and without years and
    months, `operator-` leads back. -/
def StepRight (s : TimeSequence) : Prop :=
  plus s.start s.duration = s.point 1 ∧
    (s.duration.years = 0 ∧ s.duration.months = 0 → minus (plus s.start s.duration) s.duration = s.start)

variable {d : DateTimeDiff} {time : Int}

/-- The seconds are those of the days and of the clock. -/
lemma restSeconds_eq (d : DateTimeDiff) : d.restSeconds = d.days.toInt * 86400 + d.clock := by
  unfold restSeconds clock
  omega

/-- There are no whole months exactly if there are neither years nor months. -/
lemma wholeMonths_eq_zero (nonneg : d.Nonneg) : d.wholeMonths = 0 ↔ d.years = 0 ∧ d.months = 0 := by
  rw [← Int16.toInt_inj, ← Int8.toInt_inj, Int16.toInt_zero, Int8.toInt_zero]
  have years := nonneg.years
  have months := nonneg.months
  unfold wholeMonths
  omega

/-- A day is the first of its month or later, and at most the 31st. -/
lemma dayOf_range (time : Int) : 1 ≤ dayOf time ∧ dayOf time ≤ 31 :=
  have day := yearMonthDay_day (floorDays time)
  ⟨day.1, day.2.trans (monthLength_high _)⟩

/-- Where `operator+` leads: the month begins again behind the end of the year. -/
lemma plus_eq (nonneg : d.Nonneg) (time : Int) :
    plus time d =
      monthStart (12 * ((yearMonthDay (floorDays time)).year + d.years.toInt) +
        ((yearMonthDay (floorDays time)).month - 1 + d.months.toInt) % 12) +
      86400 * (dayOf time - 1) + d.restSeconds := by
  have days := nonneg.days
  have short := Int8.toInt_lt d.days
  have day := dayOf_range time
  unfold plus monthPlus dayPlus
  dsimp only
  rw [sysDays_eq (by dsimp only; omega) (by dsimp only; omega)]
  unfold YearMonthDay.monthNumber monthStart restSeconds
  dsimp only
  rw [Int.add_sub_cancel]
  unfold dayOf at day ⊢
  omega

/-- Where `operator-` leads from a time: a day that is not behind another one wraps around. -/
lemma minus_eq (still : d.wholeMonths = 0) (nonneg : d.Nonneg) (time : Int) :
    minus time d = 86400 * (floorDays time - d.days.toInt + if d.days.toInt ≤ dayOf time then 0 else 256) -
      d.clock := by
  obtain ⟨years, months⟩ := (wholeMonths_eq_zero nonneg).mp still
  obtain ⟨low, high⟩ := yearMonthDay_month (floorDays time)
  have date := sysDays_eq low high
  rw [sysDays_yearMonthDay] at date
  have same : monthPlus (yearMonthDay (floorDays time)).month 0 = (yearMonthDay (floorDays time)).month := by
    unfold monthPlus
    omega
  have days := nonneg.days
  have short := Int8.toInt_lt d.days
  have day := dayOf_range time
  unfold minus dayPlus
  dsimp only
  rw [years, months, Int16.toInt_zero, Int8.toInt_zero, Int.sub_zero, Int.neg_zero, same]
  rw [sysDays_eq (by exact low) (by exact high)]
  unfold YearMonthDay.monthNumber clock at *
  dsimp only
  unfold dayOf at day ⊢
  split <;> omega

/-- `operator+` leads where `operator[]` does. -/
lemma plus_eq_pointOf_iff (nonneg : d.Nonneg) (time : Int) :
    plus time d = TimeSequence.pointOf time d 1 ↔
      time % 86400 = 0 ∧ (yearMonthDay (floorDays time)).month + d.months.toInt ≤ 12 := by
  have months := nonneg.months
  obtain ⟨low, high⟩ := yearMonthDay_month (floorDays time)
  have number : monthOf time + d.wholeMonths * 1 = 12 * ((yearMonthDay (floorDays time)).year + d.years.toInt) +
      ((yearMonthDay (floorDays time)).month - 1 + d.months.toInt) := by
    unfold monthOf YearMonthDay.monthNumber wholeMonths
    omega
  rw [plus_eq nonneg, pointOf_eq]
  unfold progression
  rw [number]
  generalize 12 * ((yearMonthDay (floorDays time)).year + d.years.toInt) = year
  generalize within : (yearMonthDay (floorDays time)).month - 1 + d.months.toInt = month
  unfold timeOfMonth
  rcases Int.lt_or_le month 12 with lt | le
  · rw [Int.emod_eq_of_lt (by omega) lt]
    omega
  · -- the month begins in the year before
    have before := firstDay_le (show year + month % 12 ≤ year + month by omega)
    unfold monthStart
    omega

/-- `operator-` leads back from where `operator+` leads. -/
lemma minus_plus_iff (nonneg : d.Nonneg) (still : d.wholeMonths = 0) (midnight : time % 86400 = 0) :
    minus (plus time d) d = time ↔ d.clock % 86400 = 0 ∧ d.days.toInt ≤ dayOf (time + d.restSeconds) := by
  obtain ⟨years, months⟩ := (wholeMonths_eq_zero nonneg).mp still
  obtain ⟨low, high⟩ := yearMonthDay_month (floorDays time)
  have leads : plus time d = time + d.restSeconds := by
    rw [(plus_eq_pointOf_iff nonneg time).mpr ⟨midnight, by rw [months, Int8.toInt_zero]; omega⟩, pointOf_eq]
    unfold progression
    rw [still, Int.zero_mul, Int.add_zero, time_eq, Int.mul_one]
  rw [leads, minus_eq still nonneg, restSeconds_eq]
  unfold floorDays
  split <;> omega

/-- One step means one thing exactly at midnight and within a year. Without years and months, the time of day of the
    step has also to be a number of days, and its days may not reach further back than to the beginning of the month
    that it leads to. -/
theorem step_right_iff (s : TimeSequence) (nonneg : s.duration.Nonneg) :
    StepRight s ↔
      s.start % 86400 = 0 ∧ (yearMonthDay (floorDays s.start)).month + s.duration.months.toInt ≤ 12 ∧
        (s.duration.years = 0 ∧ s.duration.months = 0 →
          s.duration.clock % 86400 = 0 ∧ s.duration.days.toInt ≤ dayOf (s.start + s.duration.restSeconds)) := by
  unfold StepRight TimeSequence.point
  rw [plus_eq_pointOf_iff nonneg, and_assoc]
  refine and_congr_right fun midnight => and_congr_right fun _ => ?_
  refine forall_congr' fun zero => ?_
  exact minus_plus_iff nonneg ((wholeMonths_eq_zero nonneg).mpr zero) midnight

/-- Two days and 24 hours -/
theorem step_right_days : StepRight { start := 0, stop := 0, duration := { days := 2, hours := 24 } } := by
  refine (step_right_iff _ ⟨?_, ?_, ?_, ?_, ?_, ?_⟩).mpr ?_
  all_goals decide +kernel

/-- The time of day is dropped. -/
theorem step_drops_time : ¬ ∀ s : TimeSequence, s.duration.Nonneg → StepRight s := by
  intro right
  have nonneg : Nonneg { days := 1 } := ⟨by decide, by decide, by decide, by decide, by decide, by decide⟩
  have one := (right { start := 3600, stop := 3600, duration := { days := 1 } } nonneg).1
  revert one
  decide +kernel

end DateTimeDiff
end OsterLib.Types
