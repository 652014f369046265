import Mathlib.Data.Rat.Floor
import Mathlib.Tactic.LinearCombination
import OsterLib.Types.Difference

/-!
# Division

`divided` cuts a difference into fields of which each is divided by the number of intervals, and carries what is left
of the days and of the years into the fields below.
-/

namespace OsterLib.Types
namespace DateTimeDiff

/-- Less than a month apart, by the length of the first one -/
def Near (start stop : Int) : Prop := floorDays stop - floorDays start < monthLength (monthOf start)

instance (start stop : Int) : Decidable (Near start stop) := inferInstanceAs (Decidable (_ < _))

/-- The time that the second difference has for hours, minutes and seconds: a day is taken back where it is behind. -/
def timeLeft (start stop : Int) : Int :=
  stop % 86400 - start % 86400 + if stop % 86400 < start % 86400 then 86400 else 0

/-- The days it has, where a month may be taken back. -/
def daysLeft (start stop : Int) : Int :=
  daysApart start stop + (if daysApart start stop < 0 then monthLength (monthOf start) else 0) +
    if stop % 86400 < start % 86400 then -1 else 0

/-- The months it has, where a year may be taken back. -/
def monthsLeft (start stop : Int) : Int := monthsApart start stop % 12 + if daysApart start stop < 0 then -1 else 0

/-! ## Conversions -/

section truncate
variable {x : ℚ} {n k : Int} {result : DateTimeDiff}

/-- Truncating a quotient is dividing towards zero. -/
lemma truncate_div (x : Int) {k : Int} (pos : 0 < k) : truncate ((x : ℚ) / (k : ℚ)) = x.tdiv k := by
  have cross : ((x : ℚ) / k).num * k = x * ((x : ℚ) / k).den := by
    have apart : (k : ℚ) ≠ 0 := Int.cast_ne_zero.mpr (Int.ne_of_gt pos)
    have self := Rat.num_div_den ((x : ℚ) / k)
    rw [div_eq_div_iff (Nat.cast_ne_zero.mpr (Rat.den_nz _)) apart] at self
    exact_mod_cast self
  have den : (0 : Int) < ((x : ℚ) / k).den := Int.natCast_pos.mpr (Rat.den_pos _)
  unfold truncate
  rw [← Int.mul_tdiv_mul_of_pos_left _ _ pos, cross, Int.mul_comm _ k, Int.mul_tdiv_mul_of_pos_left _ _ den]

/-- A share is not larger than the whole. -/
lemma share_range {x : Int} (pos : 0 < n) (nonneg : 0 ≤ x) : 0 ≤ x / n ∧ x / n ≤ x :=
  ⟨Int.ediv_nonneg nonneg (Int.le_of_lt pos), Int.ediv_le_self n nonneg⟩

/-- What is left over is less than the divisor. -/
lemma over_range (x : Int) (pos : 0 < n) : 0 ≤ x % n ∧ x % n < n :=
  ⟨Int.emod_nonneg x (Int.ne_of_gt pos), Int.emod_lt_of_pos x pos⟩

/-- What is left over is not larger than the whole. -/
lemma over_le {x : Int} (pos : 0 < n) (nonneg : 0 ≤ x) : x % n ≤ x := by
  have split := Int.mul_ediv_add_emod x n
  have share := Int.mul_nonneg (Int.le_of_lt pos) (share_range pos nonneg).1
  omega

/-- A number that fits `int8_t` is converted. -/
lemma castInt8_of_fits {x : ℚ} {n : Int} (same : truncate x = n) (low : -128 ≤ n) (high : n < 128) :
    castInt8 x = .ok (.ofInt n) := by
  unfold castInt8
  rw [same]
  exact if_pos ⟨low, high⟩

/-- The conversion of a number that does not fit `int8_t` is undefined. -/
lemma castInt8_of_not_fits {x : ℚ} {n : Int} (same : truncate x = n) (far : ¬ (-128 ≤ n ∧ n < 128)) :
    castInt8 x = .error .undefinedConversion := by
  unfold castInt8
  rw [same]
  exact if_neg far

/-- A whole number has no fraction, where its conversion to `uint64_t` is defined. -/
lemma fraction_intCast (n : Int) :
    fraction n = if 0 ≤ n ∧ n < 2 ^ 64 then .ok 0 else .error .undefinedConversion := by
  unfold fraction
  rw [truncate_intCast, sub_self]

/-- Zero is within the tolerance. -/
lemma zero_le_epsilon : ¬ (0 : ℚ) > epsilon := by
  norm_num [epsilon]

/-- Dividing towards zero rounds the absolute value down. -/
lemma tdiv_cases {x k : Int} :
    (0 ≤ x ∧ x.tdiv k = x / k) ∨ (x < 0 ∧ x.tdiv k = -(-x / k)) := by
  rcases Int.lt_or_le x 0 with neg | nonneg
  · refine .inr ⟨neg, ?_⟩
    rw [← Int.tdiv_eq_ediv_of_nonneg (by omega), Int.neg_tdiv, Int.neg_neg]
  · exact .inl ⟨nonneg, Int.tdiv_eq_ediv_of_nonneg nonneg⟩

/-- Truncating a number that is not negative rounds it down. -/
lemma truncate_of_nonneg (nonneg : 0 ≤ x) : truncate x = ⌊x⌋ := by
  unfold truncate
  rw [Rat.floor_def', Int.tdiv_eq_ediv_of_nonneg (Rat.num_nonneg.mpr nonneg)]

/-- The floor of a quotient is the whole quotient. -/
lemma floor_div (n : Int) (pos : 0 < k) : ⌊(n : ℚ) / k⌋ = n / k := by
  rw [Int.floor_div_cast_of_nonneg (Int.le_of_lt pos), Int.floor_intCast]

/-- The hours, minutes and seconds that are cut off one after another are those of the whole seconds. -/
lemma truncate_clock (nonneg : 0 ≤ x) :
    truncate (x / 3600) = ⌊x⌋ / 3600 ∧ truncate ((x - (⌊x⌋ / 3600 : Int) * 3600) / 60) = ⌊x⌋ % 3600 / 60 ∧
      truncate (x - (⌊x⌋ / 3600 : Int) * 3600 - (⌊x⌋ % 3600 / 60 : Int) * 60) = ⌊x⌋ % 60 := by
  have low := Int.floor_nonneg.mpr nonneg
  have below := Int.floor_le x
  have ofHour : (0 : ℚ) ≤ x - (⌊x⌋ / 3600 : Int) * 3600 := by
    have : ((⌊x⌋ / 3600 * 3600 : Int) : ℚ) ≤ ⌊x⌋ := Int.cast_le.mpr (by omega)
    push_cast at this
    linarith
  have ofMinute : (0 : ℚ) ≤ x - (⌊x⌋ / 3600 : Int) * 3600 - (⌊x⌋ % 3600 / 60 : Int) * 60 := by
    have : ((⌊x⌋ / 3600 * 3600 + ⌊x⌋ % 3600 / 60 * 60 : Int) : ℚ) ≤ ⌊x⌋ := Int.cast_le.mpr (by omega)
    push_cast at this
    linarith
  refine ⟨?_, ?_, ?_⟩
  · rw [truncate_of_nonneg (by positivity)]
    exact_mod_cast Int.floor_div_natCast x 3600
  · rw [truncate_of_nonneg (by positivity)]
    have hours : ⌊x - (⌊x⌋ / 3600 : Int) * 3600⌋ = ⌊x⌋ - ⌊x⌋ / 3600 * 3600 := by
      exact_mod_cast Int.floor_sub_intCast x (⌊x⌋ / 3600 * 3600)
    have minutes := Int.floor_div_natCast (x - (⌊x⌋ / 3600 : Int) * 3600) 60
    rw [hours] at minutes
    rw [show ⌊x⌋ % 3600 = ⌊x⌋ - ⌊x⌋ / 3600 * 3600 by omega]
    exact_mod_cast minutes
  · rw [truncate_of_nonneg ofMinute]
    have seconds : ⌊x - (⌊x⌋ / 3600 : Int) * 3600 - (⌊x⌋ % 3600 / 60 : Int) * 60⌋ =
        ⌊x⌋ - (⌊x⌋ / 3600 * 3600 + ⌊x⌋ % 3600 / 60 * 60) := by
      rw [← Int.floor_sub_intCast]
      push_cast
      ring_nf
    rw [seconds]
    omega

/-- The fields of a time of day are kept by `Int8`. -/
lemma clock_toInt {seconds : Int} (low : 0 ≤ seconds) (high : seconds < 86400) :
    (Int8.ofInt (seconds / 3600)).toInt = seconds / 3600 ∧
      (Int8.ofInt (seconds % 3600 / 60)).toInt = seconds % 3600 / 60 ∧
      (Int8.ofInt (seconds % 60)).toInt = seconds % 60 :=
  ⟨toInt_ofInt8 (by omega) (by omega), toInt_ofInt8 (by omega) (by omega), toInt_ofInt8 (by omega) (by omega)⟩

/-- The time of day that is left is shared into hours, minutes and seconds. -/
lemma dividedTime_eq {fromTime toTime time : Int} (pos : 0 < n)
    (total : (if fromTime > toTime then toTime - fromTime + 86400 else toTime - fromTime) = time) (low : 0 ≤ time)
    (high : time < 86400) :
    dividedTime fromTime toTime n = .ok {
      days := if fromTime > toTime then -1 else 0
      hours := .ofInt (time / n / 3600)
      minutes := .ofInt (time / n % 3600 / 60)
      seconds := .ofInt (time / n % 60) } := by
  have pos' : (0 : ℚ) < n := Int.cast_pos.mpr pos
  have nonneg : (0 : ℚ) ≤ (time : ℚ) / n := div_nonneg (Int.cast_nonneg low) (le_of_lt pos')
  obtain ⟨hour, minute, second⟩ := truncate_clock nonneg
  rw [floor_div time pos] at hour minute second
  have low' : 0 ≤ time / n := (share_range pos low).1
  have high' : time / n < 86400 := Int.lt_of_le_of_lt (share_range pos low).2 high
  generalize time / n = seconds at *
  obtain ⟨ofHours, ofMinutes, -⟩ := clock_toInt low' high'
  unfold dividedTime
  rw [total]
  dsimp only
  rw [castInt8_of_fits hour (by omega) (by omega)]
  simp only [bind, Except.bind]
  rw [ofHours, castInt8_of_fits minute (by omega) (by omega)]
  dsimp only
  rw [ofMinutes, castInt8_of_fits second (by omega) (by omega)]
  rfl

end truncate

/-! ## Fields -/

/-- The length of a year, from a day on, as a rest of years is carried -/
def yearLength (ymd : YearMonthDay) : Int := if isLeapYear ymd.year && (ymd.month < 3 : Bool) then 366 else 365

section fields
variable {ymdFrom ymdTo : YearMonthDay} {result : DateTimeDiff} {n : Int}

/-- A share of the years that does not fit 16 bits is undefined. -/
lemma addYears_error {years : Int} (total : ymdTo.year - ymdFrom.year + result.years.toInt = years) (pos : 0 < n)
    (low : 0 ≤ years) (far : ¬ years / n < 2 ^ 15) : addYears ymdFrom ymdTo n result = .error .undefinedConversion := by
  have cast : castInt16 ((years : ℚ) / n) = .error .undefinedConversion := by
    unfold castInt16
    rw [truncate_div years pos, Int.tdiv_eq_ediv_of_nonneg low]
    exact if_neg fun both => far both.2
  unfold addYears
  simp only [total]
  rw [cast]
  rfl

end fields

/-! ## All fields -/

/-- The years the second difference has, where one may be taken back. -/
def yearsLeft (start stop : Int) : Int := yearsApart start stop + if monthsApart start stop < 0 then -1 else 0

/-- The fields that it has, a month or more apart -/
def fieldsLeft (start stop : Int) : DateTimeDiff where
  years := .ofInt (yearsLeft start stop)
  months := .ofInt (monthsLeft start stop)
  days := .ofInt (daysLeft start stop)
  hours := .ofInt (timeLeft start stop / 3600)
  minutes := .ofInt (timeLeft start stop % 3600 / 60)
  seconds := .ofInt (timeLeft start stop % 60)

/-- The months of the rest of the years which the number does not divide. -/
def monthsOver (start stop n : Int) : Int := 12 * (yearsLeft start stop % n) % n

/-- The seconds these months are carried as -/
def secondsOver (start stop n : Int) : Int :=
  7200 * monthsOver start stop n * yearLength (yearMonthDay (floorDays start))

/-- The division leaves nothing that it does not carry right. Within a month, there are whole days, which the number
    divides. Otherwise, nothing negative is left, the number divides the months, and the rest of the years comes to
    whole months and hours, which are as long as the months they are taken for, where they differ by what is cut off,
    and by the length of the month that is taken back. -/
def DivideExact (start stop n : Int) : Prop :=
  if Near start stop then stop % 86400 = start % 86400 ∧ n ∣ floorDays stop - floorDays start
  else 0 ≤ daysLeft start stop ∧ 0 ≤ monthsLeft start stop ∧ n ∣ monthsLeft start stop ∧
    n ∣ 2 * monthsOver start stop n * yearLength (yearMonthDay (floorDays start)) ∧
    secondsOver start stop n + (if daysApart start stop < 0 then
        86400 * (monthLength (monthOf start) - monthLength (monthOf stop - 1)) else 0) =
      86400 * (firstDay (monthOf start + 12 * yearsLeft start stop + monthsLeft start stop) -
          firstDay (monthOf start + 12 * yearsLeft start stop + monthsLeft start stop - monthsOver start stop n)) +
        timeLeft start stop % n + 86400 * (daysLeft start stop % n) % n

section divide
variable {start stop n : Int}

/-- A later time is not on an earlier day. -/
lemma floorDays_le (le : start ≤ stop) : floorDays start ≤ floorDays stop := by
  unfold floorDays
  omega

/-- The days between two dates are those between their numbers. -/
lemma daysBetween_eq (le : start ≤ stop) :
    daysBetweenDates (yearMonthDay (floorDays start)) (yearMonthDay (floorDays stop)) =
      floorDays stop - floorDays start := by
  have later := floorDays_le le
  unfold daysBetweenDates
  rw [sysDays_yearMonthDay, sysDays_yearMonthDay, abs_of_nonneg (by omega)]

/-- The time of day that is left, as the code computes it -/
lemma timeLeft_eq (start stop : Int) :
    (if timeOfDay start > timeOfDay stop then timeOfDay stop - timeOfDay start + 86400
      else timeOfDay stop - timeOfDay start) = timeLeft start stop := by
  unfold timeOfDay timeLeft
  change @Eq Int _ _
  split
  · rfl
  · rw [Int.add_zero]

/-- The day of the month is smaller exactly if fewer days are apart than none. -/
lemma day_lt_iff (start stop : Int) :
    (yearMonthDay (floorDays stop)).day < (yearMonthDay (floorDays start)).day ↔ daysApart start stop < 0 := by
  unfold daysApart dayOf
  omega

/-- The month is smaller exactly if fewer months are apart than none. -/
lemma month_lt_iff (start stop : Int) :
    (yearMonthDay (floorDays stop)).month < (yearMonthDay (floorDays start)).month ↔ monthsApart start stop < 0 := by
  unfold monthsApart
  omega

/-- The days that are divided, once the day is taken back -/
lemma daysLeft_eq (start stop : Int) :
    (yearMonthDay (floorDays stop)).day - (yearMonthDay (floorDays start)).day +
        (if (yearMonthDay (floorDays stop)).day < (yearMonthDay (floorDays start)).day then
          getDaysInMonth (yearMonthDay (floorDays start)).year (yearMonthDay (floorDays start)).month else 0) +
      (if timeOfDay start > timeOfDay stop then -1 else 0 : Int8).toInt = daysLeft start stop := by
  have taken : (if timeOfDay start > timeOfDay stop then -1 else 0 : Int8).toInt =
      if stop % 86400 < start % 86400 then -1 else 0 := by
    unfold timeOfDay
    split <;> rfl
  rw [taken, length_eq]
  unfold daysLeft
  simp only [day_lt_iff]
  rfl

/-- The months that are divided, once the month is taken back -/
lemma monthsLeft_eq (start stop : Int) :
    ((yearMonthDay (floorDays stop)).month - (yearMonthDay (floorDays start)).month) % 12 +
      (if daysApart start stop < 0 then -1 else 0 : Int8).toInt = monthsLeft start stop := by
  have taken : (if daysApart start stop < 0 then -1 else 0 : Int8).toInt =
      if daysApart start stop < 0 then -1 else 0 := by
    split <;> rfl
  rw [taken]
  rfl

/-- The years that are divided, once the year is taken back -/
lemma yearsLeft_eq (start stop : Int) :
    (yearMonthDay (floorDays stop)).year - (yearMonthDay (floorDays start)).year +
      (if monthsApart start stop < 0 then -1 else 0 : Int16).toInt = yearsLeft start stop := by
  unfold yearsLeft yearsApart
  split <;> rfl

/-- The years that are left are not negative. -/
lemma yearsLeft_nonneg (le : start ≤ stop) : 0 ≤ yearsLeft start stop := by
  have nonneg := yearsApart_nonneg le
  unfold yearsLeft
  split at nonneg <;> omega

/-- The time of day that is left is less than a day. -/
lemma timeLeft_range (start stop : Int) : 0 ≤ timeLeft start stop ∧ timeLeft start stop < 86400 := by
  unfold timeLeft
  split <;> omega

/-- Without a borrow the time of day that is left is the difference. -/
lemma timeLeft_of_le (le : start % 86400 ≤ stop % 86400) : timeLeft start stop = stop % 86400 - start % 86400 := by
  unfold timeLeft
  rw [if_neg (Int.not_lt.mpr le), Int.add_zero]

/-- Between -1 and 30 days are left. -/
lemma daysLeft_range (start stop : Int) : -1 ≤ daysLeft start stop ∧ daysLeft start stop ≤ 30 := by
  have first : dayOf start ≤ monthLength (monthOf start) := (yearMonthDay_day (floorDays start)).2
  have range := dayOf_range start
  have range' := dayOf_range stop
  have long := monthLength_high (monthOf start)
  unfold daysLeft daysApart
  split_ifs <;> omega

/-- Between -1 and 11 months are left. -/
lemma monthsLeft_range (start stop : Int) : -1 ≤ monthsLeft start stop ∧ monthsLeft start stop ≤ 11 := by
  unfold monthsLeft
  split <;> omega

/-- What a division gives, a month or more apart: the seconds of the time of day and of the rest of the days, and the
    hours of the rest of the years, are spread over the fields. -/
structure FarFields (start stop n : Int) (d : DateTimeDiff) : Prop where
  years : d.years.toInt = yearsLeft start stop / n
  months : d.months.toInt = monthsLeft start stop / n + 12 * (yearsLeft start stop % n) / n
  days : d.days.toInt = daysLeft start stop / n +
    2 * monthsOver start stop n * yearLength (yearMonthDay (floorDays start)) / n / 24
  hours : d.hours.toInt = timeLeft start stop / n / 3600 + 86400 * (daysLeft start stop % n) / n / 3600 +
    2 * monthsOver start stop n * yearLength (yearMonthDay (floorDays start)) / n % 24
  minutes : d.minutes.toInt = timeLeft start stop / n % 3600 / 60 + 86400 * (daysLeft start stop % n) / n % 3600 / 60
  seconds : d.seconds.toInt = timeLeft start stop / n % 60 + 86400 * (daysLeft start stop % n) / n % 60

/-- What is not more than three shares of a division comes to no more than what is divided. -/
lemma shares_mul_le {field x y z : Int} (pos : 0 < n) (le : field ≤ x / n + y / n + z / n) : field * n ≤ x + y + z := by
  have shares := Int.mul_le_mul_of_nonneg_right le (Int.le_of_lt pos)
  rw [Int.add_mul, Int.add_mul] at shares
  have first := Int.ediv_mul_le x (Int.ne_of_gt pos)
  have second := Int.ediv_mul_le y (Int.ne_of_gt pos)
  have third := Int.ediv_mul_le z (Int.ne_of_gt pos)
  omega

/-- No field of a division is negative, and so many times as it is divided by, none comes to more than `int` has: the
    years are those of the calendar. -/
lemma FarFields.products {d : DateTimeDiff} (fields : FarFields start stop n d) (lt : start < stop) (pos : 0 < n)
    (days : 0 ≤ daysLeft start stop) (months : 0 ≤ monthsLeft start stop) (years : yearsLeft start stop < 2 ^ 16) :
    ∀ field ∈ d.fields, 0 ≤ field ∧ field * n < 2 ^ 31 := by
  have timed := timeLeft_range start stop
  have day := daysLeft_range start stop
  have month := monthsLeft_range start stop
  have low := yearsLeft_nonneg (Int.le_of_lt lt)
  have yearsRest := over_range (yearsLeft start stop) pos
  have yearsOver := over_le pos low
  have daysRest := over_range (daysLeft start stop) pos
  have daysOver := over_le pos days
  have hours : 0 ≤ 2 * monthsOver start stop n * yearLength (yearMonthDay (floorDays start)) ∧
      2 * monthsOver start stop n * yearLength (yearMonthDay (floorDays start)) < 2 ^ 30 := by
    have months' : 0 ≤ monthsOver start stop n ∧ monthsOver start stop n ≤ 12 * (yearsLeft start stop % n) :=
      ⟨Int.emod_nonneg _ (Int.ne_of_gt pos), over_le pos (by omega)⟩
    unfold yearLength
    split <;> omega
  have yearsShare := share_range pos low
  have monthsShare := share_range pos months
  have monthsShare' := share_range pos (by omega : 0 ≤ 12 * (yearsLeft start stop % n))
  have daysShare := share_range pos days
  have daysShare' := share_range pos (by omega : 0 ≤ 86400 * (daysLeft start stop % n))
  have timeShare := share_range pos timed.1
  have hoursShare := share_range pos hours.1
  unfold DateTimeDiff.fields
  rw [fields.years, fields.months, fields.days, fields.hours, fields.minutes, fields.seconds]
  simp only [List.forall_mem_cons, List.not_mem_nil, false_imp_iff, implies_true, and_true]
  generalize 2 * monthsOver start stop n * yearLength (yearMonthDay (floorDays start)) = hoursOver at *
  refine ⟨⟨by omega, ?_⟩, ⟨by omega, ?_⟩, ⟨by omega, ?_⟩, ⟨by omega, ?_⟩, ⟨by omega, ?_⟩, by omega, ?_⟩
  · refine Int.lt_of_le_of_lt (shares_mul_le (x := yearsLeft start stop) (y := 0) (z := 0) pos ?_) (by omega)
    rw [Int.zero_ediv]
    omega
  · refine Int.lt_of_le_of_lt
      (shares_mul_le (x := monthsLeft start stop) (y := 12 * (yearsLeft start stop % n)) (z := 0) pos ?_) (by omega)
    rw [Int.zero_ediv]
    omega
  · refine Int.lt_of_le_of_lt (shares_mul_le (x := daysLeft start stop) (y := hoursOver) (z := 0) pos ?_) (by omega)
    rw [Int.zero_ediv]
    omega
  · refine Int.lt_of_le_of_lt
      (shares_mul_le (x := timeLeft start stop) (y := 86400 * (daysLeft start stop % n)) (z := hoursOver) pos ?_)
      (by omega)
    omega
  · refine Int.lt_of_le_of_lt
      (shares_mul_le (x := timeLeft start stop) (y := 86400 * (daysLeft start stop % n)) (z := 0) pos ?_) (by omega)
    rw [Int.zero_ediv]
    omega
  · refine Int.lt_of_le_of_lt
      (shares_mul_le (x := timeLeft start stop) (y := 86400 * (daysLeft start stop % n)) (z := 0) pos ?_) (by omega)
    rw [Int.zero_ediv]
    omega

end divide

/-! ## Division by one -/

section divide
variable {start stop : Int} {ymdFrom ymdTo : YearMonthDay} {result : DateTimeDiff}

/-- A sum of days that is negative is not converted. -/
lemma addDays_one {days : Int}
    (total : ymdTo.day - ymdFrom.day +
      (if ymdTo.day < ymdFrom.day then getDaysInMonth ymdFrom.year ymdFrom.month else 0) +
      result.days.toInt = days) (low : -128 ≤ days) (high : days < 128) :
    addDays ymdFrom ymdTo 1 result =
      if 0 ≤ days then
        .ok { result with days := .ofInt days, months := if ymdTo.day < ymdFrom.day then -1 else 0 }
      else .error .undefinedConversion := by
  unfold addDays
  simp only [decide_eq_true_eq, Int.cast_one, div_one, total]
  rw [castInt8_of_fits (truncate_intCast days) low high, fraction_intCast]
  simp only [bind, Except.bind]
  by_cases le : 0 ≤ days
  · rw [if_pos ⟨le, by omega⟩, if_pos le]
    simp only [zero_le_epsilon, if_false]
    rfl
  · rw [if_neg (fun both => le both.1), if_neg le]

/-- One share of the months is all of them, where they are not negative. -/
lemma addMonths_one {months : Int} (total : (ymdTo.month - ymdFrom.month) % 12 + result.months.toInt = months)
    (low : -128 ≤ months) (high : months < 128) :
    addMonths ymdFrom ymdTo 1 result =
      if 0 ≤ months then
        .ok { result with months := .ofInt months, years := if ymdTo.month < ymdFrom.month then -1 else 0 }
      else .error .undefinedConversion := by
  unfold addMonths
  simp only [Int.cast_one, div_one, total]
  rw [castInt8_of_fits (truncate_intCast months) low high, fraction_intCast]
  simp only [bind, Except.bind]
  by_cases le : 0 ≤ months
  · rw [if_pos ⟨le, by omega⟩, if_pos le]
    simp only [zero_le_epsilon, if_false]
    rfl
  · rw [if_neg (fun both => le both.1), if_neg le]

/-- One share of the years is all of them, where they fit 16 bits. -/
lemma addYears_one {years : Int} (total : ymdTo.year - ymdFrom.year + result.years.toInt = years) (low : 0 ≤ years) :
    addYears ymdFrom ymdTo 1 result =
      if years < 2 ^ 15 then .ok { result with years := .ofInt years } else .error .undefinedConversion := by
  by_cases high : years < 2 ^ 15
  case pos =>
    have cast : castInt16 (years : ℚ) = .ok (.ofInt years) := by
      unfold castInt16
      rw [truncate_intCast]
      exact if_pos ⟨by omega, high⟩
    unfold addYears
    simp only [Int.cast_one, div_one, total]
    rw [if_pos high, cast, fraction_intCast, if_pos ⟨low, by omega⟩]
    simp only [bind, Except.bind, zero_le_epsilon, if_false]
    rfl
  case neg =>
    rw [if_neg high]
    exact addYears_error total Int.one_pos low (by rwa [Int.ediv_one])

/-- Within a month, a difference of the times of day is not taken along: what is left of an hour is dropped, and where
    there are whole hours, they are taken off in another unit. -/
lemma dividedDays_one {totalDays time : Int} (low : 0 ≤ totalDays) (high : totalDays < 128) (near : -86400 < time)
    (near' : time < 86400) :
    dividedDays (86400 * totalDays + time) totalDays 1 =
      if -3600 < time ∧ time < 3600 then .ok { days := .ofInt totalDays } else .error .undefinedConversion := by
  have days : ((Int8.ofInt totalDays).toInt : ℚ) = totalDays :=
    congrArg Int.cast (Int8.toInt_ofInt_of_le (by omega) high)
  have rest : (((86400 * totalDays + time : Int) : ℚ) - totalDays * 86400) / 3600 = (time : ℚ) / (3600 : Int) := by
    push_cast
    ring
  have inHours (hours : Int) : ((time : ℚ) / (3600 : Int) - hours * 3600) / 60 =
      (time - 12960000 * hours : Int) / (216000 : Int) := by
    push_cast
    ring
  have inMinutes (hours minutes : Int) : ((time - 12960000 * hours : Int) : ℚ) / (216000 : Int) - minutes * 60 =
      (time - 12960000 * (hours + minutes) : Int) / (216000 : Int) := by
    push_cast
    ring
  have fits := tdiv_range (x := time) (k := 3600) (by decide) (by omega) (by omega)
  unfold dividedDays
  simp only [Int.tdiv_one, Int.ediv_one]
  rw [days, rest, castInt8_of_fits (truncate_div time (by decide)) fits.1 fits.2]
  simp only [bind, Except.bind]
  rw [Int8.toInt_ofInt_of_le fits.1 fits.2, inHours]
  by_cases near : -3600 < time ∧ time < 3600
  case pos =>
    have none : time.tdiv 3600 = 0 := by
      rcases tdiv_cases (x := time) (k := 3600) with ⟨sign, same⟩ | ⟨sign, same⟩
      · omega
      · omega
    have none' : time.tdiv 216000 = 0 := by
      rcases tdiv_cases (x := time) (k := 216000) with ⟨sign, same⟩ | ⟨sign, same⟩
      · omega
      · omega
    rw [if_pos near, none, Int.mul_zero, Int.sub_zero]
    rw [castInt8_of_fits ((truncate_div _ (by decide)).trans none') (by decide) (by decide)]
    dsimp only
    rw [Int8.toInt_ofInt_of_le (by decide) (by decide), Int.cast_zero, zero_mul, sub_zero]
    rw [castInt8_of_fits ((truncate_div _ (by decide)).trans none') (by decide) (by decide)]
    rfl
  case neg =>
    rw [if_neg near]
    -- whole hours are taken off 3600 times, and leave more than the minutes or the seconds hold
    have whole : 1 ≤ time.tdiv 3600 ∧ 0 ≤ time ∨ time.tdiv 3600 ≤ -1 ∧ time ≤ 0 := by
      rcases tdiv_cases (x := time) (k := 3600) with ⟨sign, same⟩ | ⟨sign, same⟩
      · omega
      · omega
    generalize time.tdiv 3600 = hours at *
    by_cases fits' : -128 ≤ (time - 12960000 * hours).tdiv 216000 ∧ (time - 12960000 * hours).tdiv 216000 < 128
    case pos =>
      rw [castInt8_of_fits (truncate_div _ (by decide)) fits'.1 fits'.2]
      dsimp only
      rw [Int8.toInt_ofInt_of_le fits'.1 fits'.2, inMinutes]
      rw [castInt8_of_not_fits (truncate_div _ (by decide))]
      generalize same : time - 12960000 * (hours + (time - 12960000 * hours).tdiv 216000) = left
      rcases tdiv_cases (x := time - 12960000 * hours) (k := 216000) with ⟨sign, minutes⟩ | ⟨sign, minutes⟩ <;>
      rcases tdiv_cases (x := left) (k := 216000) with ⟨sign', seconds⟩ | ⟨sign', seconds⟩ <;>
      omega
    case neg => rw [castInt8_of_not_fits (truncate_div _ (by decide)) fits']

/-- Two times that are near each other are divided by the days between them. -/
lemma divide_near (lt : start < stop) (near : Near start stop) :
    divide start stop 1 =
      if -3600 < stop % 86400 - start % 86400 ∧ stop % 86400 - start % 86400 < 3600 then
        .ok { days := .ofInt (floorDays stop - floorDays start) }
      else .error .undefinedConversion := by
  have later := floorDays_le (Int.le_of_lt lt)
  have long := monthLength_high (monthOf start)
  unfold Near at near
  unfold divide
  dsimp only
  rw [daysBetween_eq (Int.le_of_lt lt), length_eq, if_pos near]
  rw [← dividedDays_one (by omega) (by omega) (by omega) (by omega)]
  congr 1
  unfold floorDays
  omega

/-- A month or more apart, all that is left has to fit. -/
lemma divide_far (lt : start < stop) (far : ¬ Near start stop) :
    divide start stop 1 =
      if (0 ≤ daysLeft start stop ∧ 0 ≤ monthsLeft start stop) ∧ yearsLeft start stop < 2 ^ 15 then
        .ok (fieldsLeft start stop)
      else .error .undefinedConversion := by
  have timed := timeLeft_range start stop
  have day := daysLeft_range start stop
  have month := monthsLeft_range start stop
  have years := yearsLeft_nonneg (Int.le_of_lt lt)
  have one := dividedTime_eq (by decide : (0 : Int) < 1) (timeLeft_eq start stop) timed.1 timed.2
  rw [Int.ediv_one] at one
  unfold Near at far
  unfold divide
  dsimp only
  rw [daysBetween_eq (Int.le_of_lt lt), length_eq, if_neg far, one]
  simp only [bind, Except.bind]
  rw [addDays_one ?_ (by omega : -128 ≤ daysLeft start stop) (by omega)]
  · by_cases le : 0 ≤ daysLeft start stop
    case neg => rw [if_neg le, if_neg fun all => le all.1.1]
    case pos =>
      rw [if_pos le]
      simp only [day_lt_iff]
      rw [addMonths_one ?_ (by omega : -128 ≤ monthsLeft start stop) (by omega)]
      · by_cases le' : 0 ≤ monthsLeft start stop
        case neg => rw [if_neg le', if_neg fun all => le' all.1.2]
        case pos =>
          rw [if_pos le']
          simp only [month_lt_iff]
          rw [addYears_one ?_ years]
          · unfold fieldsLeft
            simp only [le, le', true_and]
          · exact yearsLeft_eq start stop
      · exact monthsLeft_eq start stop
  · exact daysLeft_eq start stop

/-- The second difference is defined: what it takes back leaves nothing negative, and within a month, it comes to no
    whole hours. -/
def Divides (start stop : Int) : Prop :=
  if Near start stop then -3600 < stop % 86400 - start % 86400 ∧ stop % 86400 - start % 86400 < 3600
  else ¬ (daysApart start stop = 0 ∧ stop % 86400 < start % 86400) ∧
    ¬ (monthsApart start stop = 0 ∧ daysApart start stop < 0)

/-- No unit is behind that the two differences take back in another way. -/
def Agrees (start stop : Int) : Prop :=
  if Near start stop then
    stop % 86400 = start % 86400 ∧ (monthsApart start stop = 0 ∨ monthsApart start stop = -11)
  else start % 86400 ≤ stop % 86400 ∧ start % 3600 ≤ stop % 3600 ∧ start % 60 ≤ stop % 60 ∧
    (0 ≤ monthsApart start stop → 0 ≤ daysApart start stop)

/-- Where the second difference has no error, the first one is equal. -/
def Same (start stop : Int) : Prop := ∀ d, divided start stop 1 false = .ok (d, false) → between start stop = .ok d

/-- The difference of two times is the one with the fields stated. -/
lemma between_eq_iff (le : start ≤ stop) (fits : yearsApart start stop < 2 ^ 15) (d : DateTimeDiff) :
    between start stop = .ok d ↔ Fields start stop d := by
  obtain ⟨d', result, fields⟩ := between_spec le fits
  rw [result, Except.ok.injEq]
  constructor
  · rintro rfl
    exact fields
  · intro fields'
    obtain ⟨years, months, days, hours, minutes, seconds⟩ := d
    obtain ⟨years', months', days', hours', minutes', seconds'⟩ := d'
    have year : years' = years := Int16.toInt_inj.mp (fields.years.trans fields'.years.symm)
    have month : months' = months := Int8.toInt_inj.mp (fields.months.trans fields'.months.symm)
    have day : days' = days := Int8.toInt_inj.mp (fields.days.trans fields'.days.symm)
    have hour : hours' = hours := Int8.toInt_inj.mp (fields.hours.trans fields'.hours.symm)
    have minute : minutes' = minutes := Int8.toInt_inj.mp (fields.minutes.trans fields'.minutes.symm)
    have second : seconds' = seconds := Int8.toInt_inj.mp (fields.seconds.trans fields'.seconds.symm)
    rw [year, month, day, hour, minute, second]

/-- Two times that are near each other are at most two months apart. -/
lemma near_months (le : start ≤ stop) (near : Near start stop) :
    monthOf start ≤ monthOf stop ∧ monthOf stop ≤ monthOf start + 2 := by
  have later := monthOf_mono le
  have first := floorDays_eq start
  have last := floorDays_eq stop
  have days := daysApart_range start stop
  have long := monthLength_high (monthOf start)
  have far := firstDay_le later
  unfold Near at near
  unfold daysApart at days
  omega

/-- Within a month, the second difference has only days. -/
lemma near_fields_iff (lt : start < stop) (near : Near start stop) (close : -3600 < stop % 86400 - start % 86400)
    (close' : stop % 86400 - start % 86400 < 3600) :
    Fields start stop { days := .ofInt (floorDays stop - floorDays start) } ↔
      stop % 86400 = start % 86400 ∧ (monthsApart start stop = 0 ∨ monthsApart start stop = -11) := by
  have later := floorDays_le (Int.le_of_lt lt)
  have months := near_months (Int.le_of_lt lt) near
  have apart := monthOf_sub start stop
  have range := monthsApart_range start stop
  have first := floorDays_eq start
  have last := floorDays_eq stop
  have long := monthLength_high (monthOf start)
  have next := firstDay_succ (monthOf start)
  have daysApart_eq : daysApart start stop = dayOf stop - dayOf start := rfl
  unfold Near at near
  have days : (Int8.ofInt (floorDays stop - floorDays start)).toInt = floorDays stop - floorDays start :=
    toInt_ofInt8 (by omega) (by omega)
  constructor
  · rintro ⟨year, month, day, hour, minute, second⟩
    dsimp only at year month hour minute second
    rw [Int8.toInt_zero] at month hour minute second
    rw [Int16.toInt_zero] at year
    have minutes : stop % 3600 = start % 3600 := by
      rcases tdiv_cases (x := stop % 3600 - start % 3600) (k := 60) with ⟨sign, same⟩ | ⟨sign, same⟩
      · omega
      · omega
    refine ⟨by omega, ?_⟩
    split_ifs at month <;> omega
  · rintro ⟨time, month⟩
    refine ⟨?_, ?_, ?_, ?_, ?_, ?_⟩
    · dsimp only
      rw [Int16.toInt_zero]
      split <;> omega
    · dsimp only
      rw [Int8.toInt_zero]
      split_ifs
      · omega
      · rcases month with same | december
        · omega
        · have number : monthOf stop = monthOf start + 1 := by omega
          rw [number] at last
          omega
      · omega
    · dsimp only
      rw [days]
      rcases month with same | december
      · have number : monthOf stop = monthOf start := by omega
        rw [number] at last
        split <;> omega
      · have number : monthOf stop = monthOf start + 1 := by omega
        rw [number] at last
        split <;> omega
    · dsimp only
      rw [Int8.toInt_zero, time, Int.sub_self, Int.zero_tdiv]
    · dsimp only
      rw [Int8.toInt_zero, show stop % 3600 - start % 3600 = 0 by omega, Int.zero_tdiv]
    · dsimp only
      rw [Int8.toInt_zero]
      omega

/-- Where the months have another length, the second difference is what the units that are taken back make of it. -/
lemma far_fields_iff (lt : start < stop) (days : 0 ≤ daysLeft start stop) (months : 0 ≤ monthsLeft start stop)
    (fits : yearsApart start stop < 2 ^ 15) :
    Fields start stop (fieldsLeft start stop) ↔
      start % 86400 ≤ stop % 86400 ∧ start % 3600 ≤ stop % 3600 ∧ start % 60 ≤ stop % 60 ∧
        (0 ≤ monthsApart start stop → 0 ≤ daysApart start stop) := by
  have apart := yearsApart_nonneg (Int.le_of_lt lt)
  have range := monthsApart_range start stop
  have range' := daysApart_range start stop
  have long := monthLength_high (monthOf start)
  have timed := timeLeft_range start stop
  have year : (Int16.ofInt (yearsLeft start stop)).toInt =
      yearsApart start stop + if monthsApart start stop < 0 then -1 else 0 :=
    Int16.toInt_ofInt_of_le (by unfold yearsLeft; split at apart <;> omega) (by unfold yearsLeft; split <;> omega)
  have month := toInt_ofInt8 (by omega) (Int.lt_of_le_of_lt (monthsLeft_range start stop).2 (by decide))
  have day := toInt_ofInt8 (by omega) (Int.lt_of_le_of_lt (daysLeft_range start stop).2 (by decide))
  obtain ⟨hour, minute, second⟩ := clock_toInt timed.1 timed.2
  unfold fieldsLeft
  constructor
  · rintro ⟨-, months', days', hours', minutes', seconds'⟩
    dsimp only at months' days' minutes' seconds'
    rw [month] at months'
    rw [day] at days'
    rw [minute] at minutes'
    rw [second] at seconds'
    unfold monthsLeft at months'
    unfold daysLeft at days'
    have time : start % 86400 ≤ stop % 86400 := by
      split_ifs at days' <;> omega
    have left := timeLeft_of_le time
    rw [left] at minutes' seconds'
    refine ⟨time, ?_, ?_, ?_⟩
    · rcases tdiv_cases (x := stop % 3600 - start % 3600) (k := 60) with ⟨sign, same⟩ | ⟨sign, same⟩
      · omega
      · omega
    · omega
    · intro le
      rw [if_neg (Int.not_lt.mpr le)] at months'
      split_ifs at months' <;> omega
  · rintro ⟨time, ofHour, ofMinute, ordered⟩
    have left := timeLeft_of_le time
    refine ⟨?_, ?_, ?_, ?_, ?_, ?_⟩
    · dsimp only
      rw [year]
      split <;> omega
    · dsimp only
      rw [month]
      unfold monthsLeft
      split_ifs <;> omega
    · dsimp only
      rw [day]
      unfold daysLeft
      rw [if_neg (Int.not_lt.mpr time), Int.add_zero]
    · dsimp only
      rw [hour, left, Int.tdiv_eq_ediv_of_nonneg (by omega)]
    · dsimp only
      rw [minute, left, Int.tdiv_eq_ediv_of_nonneg (by omega)]
      omega
    · dsimp only
      rw [second, left]
      omega

/-- Neither days nor months are left negative exactly if nothing is borrowed from a field that is zero. -/
lemma left_iff (start stop : Int) :
    0 ≤ daysLeft start stop ∧ 0 ≤ monthsLeft start stop ↔
      ¬ (daysApart start stop = 0 ∧ stop % 86400 < start % 86400) ∧
        ¬ (monthsApart start stop = 0 ∧ daysApart start stop < 0) := by
  have range := monthsApart_range start stop
  have first : dayOf start ≤ monthLength (monthOf start) := (yearMonthDay_day (floorDays start)).2
  have last := dayOf_range stop
  have apart : daysApart start stop = dayOf stop - dayOf start := rfl
  unfold daysLeft monthsLeft
  split_ifs <;> omega

/-- The second difference between two times is defined exactly where `Divides` says, and the first one is then equal
    exactly where `Agrees` says. -/
theorem divided_same_iff (lt : start < stop) (fits : yearsApart start stop < 2 ^ 15) :
    ((∃ d, divided start stop 1 false = .ok (d, false)) ↔ Divides start stop) ∧
      (Same start stop ↔ (Divides start stop → Agrees start stop)) := by
  have apart : start ≠ stop := Int.ne_of_lt lt
  unfold Same Divides Agrees
  rw [divided_one apart]
  by_cases near : Near start stop
  case pos =>
    rw [if_pos near, if_pos near, divide_near lt near]
    by_cases close : -3600 < stop % 86400 - start % 86400 ∧ stop % 86400 - start % 86400 < 3600
    case pos =>
      rw [if_pos close]
      simp only [Except.map, Except.ok.injEq, Prod.mk.injEq, and_true, exists_eq', true_iff, forall_eq']
      refine ⟨close, ?_⟩
      rw [between_eq_iff (Int.le_of_lt lt) fits, near_fields_iff lt near close.1 close.2]
      exact (imp_iff_right close).symm
    case neg =>
      rw [if_neg close]
      refine ⟨⟨?_, fun all => absurd all close⟩, fun _ all => absurd all close, fun _ d given => ?_⟩
      · rintro ⟨d, given⟩
        cases given
      · cases given
  case neg =>
    have few : yearsLeft start stop < 2 ^ 15 := by
      unfold yearsLeft
      split <;> omega
    rw [if_neg near, if_neg near, divide_far lt near, ← left_iff]
    by_cases left : 0 ≤ daysLeft start stop ∧ 0 ≤ monthsLeft start stop
    case pos =>
      rw [if_pos ⟨left, few⟩]
      simp only [Except.map, Except.ok.injEq, Prod.mk.injEq, and_true, exists_eq', true_iff, forall_eq']
      refine ⟨left, ?_⟩
      rw [between_eq_iff (Int.le_of_lt lt) fits, far_fields_iff lt left.1 left.2 fits]
      exact (imp_iff_right left).symm
    case neg =>
      rw [if_neg fun all => left all.1]
      refine ⟨⟨?_, fun all => absurd all left⟩, fun _ all => absurd all left, fun _ d given => ?_⟩
      · rintro ⟨d, given⟩
        cases given
      · cases given

/-- A month, a day and an hour -/
theorem divided_same_month : Same 0 2768400 := by
  have later : (0 : Int) < 2768400 := by decide
  refine ((divided_same_iff later ?_).2).mpr fun _ => ?_
  · decide +kernel
  · unfold Agrees
    rw [if_neg (by decide +kernel)]
    decide +kernel

/-- A minute is lost. -/
theorem divided_loses_minute :
    ¬ ∀ start stop, start < stop → yearsApart start stop < 2 ^ 15 → Same start stop := by
  intro same
  have minute := same 0 60 (by decide) (by decide +kernel) {} (by decide +kernel)
  revert minute
  decide +kernel

end divide
end DateTimeDiff
end OsterLib.Types
