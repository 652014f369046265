import Mathlib.Data.Rat.Lemmas
import Mathlib.Tactic.Ring
import OsterLib.Types.Step

/-!
# The two differences

`between` compares two times field by field, and `divide` by one takes a time off another one. What the first one
gives leads from one time to the other exactly where `between_leads_iff` says, and where the second one is defined, the
two agree exactly where `divided_one_agrees_iff` says.
-/

namespace OsterLib.Types
namespace DateTimeDiff

/-- The difference of the years of two times -/
def yearsApart (start stop : Int) : Int := (yearMonthDay (floorDays stop)).year - (yearMonthDay (floorDays start)).year

/-- The difference of their months, regardless of the years -/
def monthsApart (start stop : Int) : Int :=
  (yearMonthDay (floorDays stop)).month - (yearMonthDay (floorDays start)).month

/-- The difference of their days, regardless of the months -/
def daysApart (start stop : Int) : Int := dayOf stop - dayOf start

/-- The differences of the times of the day, of the hour and of the minute do not go opposite ways. -/
structure ClockAgrees (start stop : Int) : Prop where
  hour : 0 ≤ stop % 86400 - start % 86400 → 0 ≤ stop % 3600 - start % 3600
  hour' : stop % 86400 - start % 86400 ≤ 0 → stop % 3600 - start % 3600 ≤ 0
  minute : 0 ≤ stop % 3600 - start % 3600 → 0 ≤ stop % 60 - start % 60
  minute' : stop % 3600 - start % 3600 ≤ 0 → stop % 60 - start % 60 ≤ 0

/-- The first difference leads from one time to the other. -/
def Leads (start stop : Int) : Prop :=
  ∃ d, between start stop = .ok d ∧ TimeSequence.pointOf start d 1 = stop

/-- When it does: the day of the month is not behind, or the month is, too, so that it is taken back, and is then as
    long as the first one. -/
def LeadsExact (start stop : Int) : Prop :=
  (0 ≤ daysApart start stop ∨
    monthsApart start stop < 0 ∧ monthLength (monthOf stop - 1) = monthLength (monthOf start)) ∧
    ClockAgrees start stop

section between
variable {start stop : Int}

/-- The months are fewer than a year apart. -/
lemma monthsApart_range (start stop : Int) : -11 ≤ monthsApart start stop ∧ monthsApart start stop ≤ 11 := by
  have first := yearMonthDay_month (floorDays start)
  have last := yearMonthDay_month (floorDays stop)
  unfold monthsApart
  omega

/-- The days are fewer than 31 apart. -/
lemma daysApart_range (start stop : Int) : -30 ≤ daysApart start stop ∧ daysApart start stop ≤ 30 := by
  have first := dayOf_range start
  have last := dayOf_range stop
  unfold daysApart
  omega

/-- The months apart are those of the years and those in the year. -/
lemma monthOf_sub (start stop : Int) :
    monthOf stop - monthOf start = 12 * yearsApart start stop + monthsApart start stop := by
  unfold monthOf YearMonthDay.monthNumber yearsApart monthsApart
  omega

/-- The years of two times are in the order of the times. -/
lemma yearsApart_nonneg (le : start ≤ stop) :
    0 ≤ yearsApart start stop - if monthsApart start stop < 0 then 1 else 0 := by
  have later := monthOf_mono le
  have apart := monthOf_sub start stop
  have range := monthsApart_range start stop
  split <;> omega

/-- The length that the code looks up is that of the month. -/
lemma length_eq (time : Int) :
    getDaysInMonth (yearMonthDay (floorDays time)).year (yearMonthDay (floorDays time)).month =
      monthLength (monthOf time) := by
  obtain ⟨low, high⟩ := yearMonthDay_month (floorDays time)
  unfold monthLength monthOf YearMonthDay.monthNumber
  congr 1 <;> omega

/-- The fields of the difference, by the parts of both times -/
lemma between_eq (low : -2 ^ 15 < yearsApart start stop) (high : yearsApart start stop < 2 ^ 15) :
    between start stop = .ok {
      years := .ofInt (yearsApart start stop - if monthsApart start stop < 0 then 1 else 0)
      months := .ofInt (if monthsApart start stop < 0 then
          monthsApart start stop + 12 - if daysApart start stop < 0 then 1 else 0 else monthsApart start stop)
      days := .ofInt (daysApart start stop + if daysApart start stop < 0 then monthLength (monthOf start) else 0)
      hours := .ofInt ((stop % 86400 - start % 86400).tdiv 3600)
      minutes := .ofInt ((stop % 3600 - start % 3600).tdiv 60)
      seconds := .ofInt (stop % 60 - start % 60) } := by
  have years : .ofInt (yearsApart start stop - if monthsApart start stop < 0 then 1 else 0) =
      (if monthsApart start stop < 0 then -1 else 0) + Int16.ofInt (yearsApart start stop) := by
    rw [Int.sub_eq_add_neg, Int.add_comm, Int16.ofInt_add]
    split <;> rfl
  have months : .ofInt (if monthsApart start stop < 0 then
        monthsApart start stop + 12 - if daysApart start stop < 0 then 1 else 0 else monthsApart start stop) =
      if monthsApart start stop < 0 then
        (if daysApart start stop < 0 then -1 else 0) + Int8.ofInt (monthsApart start stop + 12)
      else Int8.ofInt (monthsApart start stop) := by
    split
    · rw [Int.sub_eq_add_neg, Int.add_comm, Int8.ofInt_add]
      split <;> rfl
    · rfl
  have days : .ofInt (daysApart start stop + if daysApart start stop < 0 then monthLength (monthOf start) else 0) =
      if daysApart start stop < 0 then Int8.ofInt (daysApart start stop + monthLength (monthOf start))
      else Int8.ofInt (daysApart start stop) := by
    split
    · rfl
    · rw [Int.add_zero]
  rw [years, months, days, ← length_eq]
  unfold yearsApart at low high
  unfold between
  dsimp only
  rw [if_neg (by omega)]
  rfl

/-- A quotient and a remainder of different signs are carried. -/
lemma carried {x y k : Int} (pos : 0 < k) (low : -k < y) (high : y < k) (same : k ∣ x - y) :
    (x.tdiv k * k + y = x ∧ (0 ≤ x → 0 ≤ y) ∧ (x ≤ 0 → y ≤ 0)) ∨
      (x.tdiv k * k + y = x - k ∧ 0 < x ∧ y < 0) ∨ (x.tdiv k * k + y = x + k ∧ x < 0 ∧ 0 < y) := by
  have split := Int.tdiv_mul_add_tmod x k
  obtain ⟨more, rest⟩ : k ∣ x.tmod k - y := by
    have whole : k ∣ x - x.tmod k := ⟨x.tdiv k, by rw [Int.mul_comm]; omega⟩
    have := Int.dvd_sub same whole
    rwa [sub_sub_sub_cancel_left] at this
  -- the rests have a distance of less than twice the unit
  have one (lt : k * more < 2 * k) : more ≤ 1 := by
    by_contra two
    have := Int.mul_le_mul_of_nonneg_left (show 2 ≤ more by omega) (Int.le_of_lt pos)
    omega
  have minusOne (lt : -(2 * k) < k * more) : -1 ≤ more := by
    by_contra two
    have := Int.mul_le_mul_of_nonneg_left (show more ≤ -2 by omega) (Int.le_of_lt pos)
    omega
  rcases Int.lt_trichotomy x 0 with neg | zero | pos'
  · have range : -k < x.tmod k ∧ x.tmod k ≤ 0 := by
      have near := Int.tmod_lt_of_pos (-x) pos
      have sign := Int.tmod_nonneg (a := -x) k (by omega)
      rw [Int.neg_tmod] at near sign
      omega
    obtain rfl | rfl | rfl : more = -1 ∨ more = 0 ∨ more = 1 := by omega
    · omega
    · omega
    · omega
  · have none : x.tmod k = 0 := by
      rw [zero]
      exact Int.zero_tmod k
    obtain rfl | rfl | rfl : more = -1 ∨ more = 0 ∨ more = 1 := by omega
    · omega
    · omega
    · omega
  · have range : 0 ≤ x.tmod k ∧ x.tmod k < k := ⟨Int.tmod_nonneg k (Int.le_of_lt pos'), Int.tmod_lt_of_pos x pos⟩
    obtain rfl | rfl | rfl : more = -1 ∨ more = 0 ∨ more = 1 := by omega
    · omega
    · omega
    · omega

/-- The hours, minutes and seconds of the first difference are that of the times of day, or miss it by hours and
    minutes. -/
lemma clock_cases (start stop : Int) :
    ((stop % 86400 - start % 86400).tdiv 3600 * 3600 + (stop % 3600 - start % 3600).tdiv 60 * 60 +
        (stop % 60 - start % 60) = stop % 86400 - start % 86400 ↔ ClockAgrees start stop) ∧
      |(stop % 86400 - start % 86400).tdiv 3600 * 3600 + (stop % 3600 - start % 3600).tdiv 60 * 60 +
        (stop % 60 - start % 60) - (stop % 86400 - start % 86400)| ≤ 3660 := by
  have hours := carried (x := stop % 86400 - start % 86400) (y := stop % 3600 - start % 3600) (k := 3600) (by decide)
    (by omega) (by omega) (by omega)
  have minutes := carried (x := stop % 3600 - start % 3600) (y := stop % 60 - start % 60) (k := 60) (by decide)
    (by omega) (by omega) (by omega)
  refine ⟨⟨fun total => ?_, fun agrees => ?_⟩, ?_⟩
  · rcases hours with ⟨-, hour, hour'⟩ | missed | missed
    · rcases minutes with ⟨-, minute, minute'⟩ | missed | missed
      · exact ⟨hour, hour', minute, minute'⟩
      · omega
      · omega
    · omega
    · omega
  · have hour := agrees.hour
    have hour' := agrees.hour'
    have minute := agrees.minute
    have minute' := agrees.minute'
    omega
  · rw [abs_le]
    omega

/-- A number that fits is converted to `int8_t` as it is. -/
lemma toInt_ofInt8 {n : Int} (low : -128 ≤ n) (high : n < 128) : (Int8.ofInt n).toInt = n :=
  Int8.toInt_ofInt_of_le low high

/-- A quotient is small if the number is. -/
lemma tdiv_range {x k : Int} (pos : 0 < k) (low : -(k * 128) < x) (high : x < k * 128) :
    -128 ≤ x.tdiv k ∧ x.tdiv k < 128 := by
  have nonneg {y : Int} (nonneg : 0 ≤ y) (less : y < k * 128) : 0 ≤ y.tdiv k ∧ y.tdiv k < 128 := by
    rw [Int.tdiv_eq_ediv_of_nonneg nonneg]
    exact ⟨Int.ediv_nonneg nonneg (Int.le_of_lt pos), Int.ediv_lt_of_lt_mul pos (by rwa [Int.mul_comm])⟩
  rcases Int.lt_or_le x 0 with neg | pos
  · have := nonneg (y := -x) (by omega) (by omega)
    rw [Int.neg_tdiv] at this
    omega
  · have := nonneg pos high
    omega

/-- The fields of the first difference. -/
structure Fields (start stop : Int) (d : DateTimeDiff) : Prop where
  years : d.years.toInt = yearsApart start stop - if monthsApart start stop < 0 then 1 else 0
  months : d.months.toInt = if monthsApart start stop < 0 then
    monthsApart start stop + 12 - if daysApart start stop < 0 then 1 else 0 else monthsApart start stop
  days : d.days.toInt = daysApart start stop + if daysApart start stop < 0 then monthLength (monthOf start) else 0
  hours : d.hours.toInt = (stop % 86400 - start % 86400).tdiv 3600
  minutes : d.minutes.toInt = (stop % 3600 - start % 3600).tdiv 60
  seconds : d.seconds.toInt = stop % 60 - start % 60

/-- The difference of two times has the fields stated. -/
lemma between_spec (le : start ≤ stop) (fits : yearsApart start stop < 2 ^ 15) :
    ∃ d, between start stop = .ok d ∧ Fields start stop d := by
  have years := yearsApart_nonneg le
  have months := monthsApart_range start stop
  have days := daysApart_range start stop
  have long := monthLength_high (monthOf start)
  have short := monthLength_low (monthOf start)
  refine ⟨_, between_eq (by split at years <;> omega) fits, ?_, ?_, ?_, ?_, ?_, ?_⟩
  · exact Int16.toInt_ofInt_of_le (by omega) (by split at years <;> omega)
  · apply toInt_ofInt8
    · split_ifs <;> omega
    · split_ifs <;> omega
  · apply toInt_ofInt8
    · split <;> omega
    · split <;> omega
  · obtain ⟨low, high⟩ := tdiv_range (x := stop % 86400 - start % 86400) (k := 3600) (by decide) (by omega) (by omega)
    exact toInt_ofInt8 low high
  · obtain ⟨low, high⟩ := tdiv_range (x := stop % 3600 - start % 3600) (k := 60) (by decide) (by omega) (by omega)
    exact toInt_ofInt8 low high
  · exact toInt_ofInt8 (by omega) (by omega)

/-- The difference leads from one time to the other exactly if no field carries. -/
lemma leads_iff (le : start ≤ stop) (fits : yearsApart start stop < 2 ^ 15) :
    Leads start stop ↔ LeadsExact start stop := by
  obtain ⟨d, result, years, months, days, hours, minutes, seconds⟩ := between_spec le fits
  have apart := monthOf_sub start stop
  have long := monthLength_high (monthOf start)
  have short := monthLength_low (monthOf start)
  have long' := monthLength_high (monthOf stop - 1)
  have short' := monthLength_low (monthOf stop - 1)
  obtain ⟨clock, near⟩ := clock_cases start stop
  have before := monthStart_succ (monthOf stop - 1)
  rw [Int.sub_add_cancel] at before
  have split := time_eq stop
  rw [abs_le] at near
  unfold Leads LeadsExact
  rw [result]
  simp only [Except.ok.injEq, exists_eq_left', pointOf_eq]
  unfold progression restSeconds
  change @Eq Int _ _ ↔ _
  rw [hours, minutes, seconds, days, ← clock]
  generalize (stop % 86400 - start % 86400).tdiv 3600 * 3600 = hours' at *
  generalize (stop % 3600 - start % 3600).tdiv 60 * 60 = minutes' at *
  unfold timeOfMonth at *
  have days_eq : daysApart start stop = dayOf stop - dayOf start := rfl
  by_cases back : monthsApart start stop < 0 ∧ daysApart start stop < 0
  case pos =>
    have number : monthOf start + d.wholeMonths * 1 = monthOf stop - 1 := by
      unfold wholeMonths
      rw [years, months, if_pos back.1, if_pos back.1, if_pos back.2]
      omega
    rw [number, if_pos back.2]
    omega
  case neg =>
    have number : monthOf start + d.wholeMonths * 1 = monthOf stop := by
      unfold wholeMonths
      rw [years, months]
      split_ifs <;> omega
    rw [number]
    split
    case isTrue behind => omega
    case isFalse ahead => omega

/-- The first difference leads from one time to the other exactly where the times of day, hour and minute agree, and the
    day of the month is not behind, or the month is, too, so that it is taken back, and is then as long as the first
    one. -/
theorem between_leads_iff (le : start ≤ stop) (fits : yearsApart start stop < 2 ^ 15) :
    Leads start stop ↔
      (0 ≤ daysApart start stop ∨
        monthsApart start stop < 0 ∧ monthLength (monthOf stop - 1) = monthLength (monthOf start)) ∧
        ClockAgrees start stop :=
  leads_iff le fits

/-- A month, an hour, a minute and a second -/
theorem between_leads_month : Leads 0 2682061 := by
  have later : (0 : Int) ≤ 2682061 := by decide
  refine (between_leads_iff later (by decide +kernel)).mpr ⟨?_, ?_, ?_, ?_, ?_⟩
  all_goals decide +kernel

/-- From ten minutes to one until ten minutes past -/
theorem between_misses_hour : ¬ ∀ start stop, start ≤ stop → yearsApart start stop < 2 ^ 15 → Leads start stop := by
  intro leads
  obtain ⟨d, result, reached⟩ := leads 3000 4200 (by decide) (by decide +kernel)
  have minutes : between 3000 4200 = .ok { minutes := -40 } := by decide +kernel
  rw [minutes] at result
  cases result
  revert reached
  decide +kernel

end between

end DateTimeDiff
end OsterLib.Types
