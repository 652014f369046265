import Mathlib.Order.Bounds.Defs
import OsterLib.Types.Step
import OsterLib.Types.Division

/-!
# Numbers of intervals

`compute_number_of_intervals` and `full_number_of_intervals` of `types/time_interval.h`. Both divide the months between
two times by those of a step, take these months off the second time, and divide what is left by the rest of the step.

Where a step has both months and a rest, they count exactly, or to the floor, only under the conditions of
`compute_right_iff` and `full_right_iff`.
-/

namespace OsterLib.Types
namespace TimeSequence
open DateTimeDiff

/-- A quotient of `double`s, which is not finite where the divisor is zero. -/
def quotient (number divisor : Int) : Option ℚ := if divisor = 0 then none else some (number / divisor)

/-- The conversion of a `double` to `int32_t` -/
def castInt32 (x : Option ℚ) : Except Fault Int :=
  match x with
  | some x => if -2 ^ 31 ≤ truncate x ∧ truncate x < 2 ^ 31 then .ok (truncate x) else .error .undefinedConversion
  | none => .error .undefinedConversion

/-- The conversion of a `double` to `uint32_t` -/
def castUInt32 (x : ℚ) : Except Fault Int :=
  if 0 ≤ truncate x ∧ truncate x < 2 ^ 32 then .ok (truncate x) else .error .undefinedConversion

/-- The years or the months of a step are not zero. -/
def hasMonths (diff : DateTimeDiff) : Bool := diff.years ≠ 0 || diff.months ≠ 0

/-- The days, hours, minutes or seconds of a step are not zero. -/
def hasRest (diff : DateTimeDiff) : Bool := diff.days ≠ 0 || diff.hours ≠ 0 || diff.minutes ≠ 0 || diff.seconds ≠ 0

/-- The months between two times: one is taken back where the day and the time of day are behind. -/
def monthsBetween (start stop : Int) : Int :=
  let ymdFrom := yearMonthDay (floorDays start)
  let ymdTo := yearMonthDay (floorDays stop)
  let dy := (ymdTo.year - ymdFrom.year) * 12
  let dm := ymdTo.month - ymdFrom.month -
    if ymdTo.day < ymdFrom.day then 1
    else if ymdTo.day = ymdFrom.day ∧ stop % 86400 < start % 86400 then 1 else 0
  dy + dm

/-- The seconds between two times, when months are taken off the second one. -/
def secondsLeft (start stop months : Int) : Int :=
  86400 * sysDays ((yearMonthDay (floorDays stop)).addMonths (-months)) + stop % 86400 - start

/-- The first count of both functions: the months between two times, divided by those of the step. -/
def castMonths (start stop : Int) (diff : DateTimeDiff) : Except Fault Int :=
  if hasMonths diff then castInt32 (quotient (monthsBetween start stop) diff.wholeMonths) else .ok 0

/-- `full_number_of_intervals`, with the error code. It is the same for both orders of the times. -/
def fullNumberOfIntervals (fromArg toArg : Int) (diff : DateTimeDiff) : Except Fault (Int × Bool) :=
  let start := if fromArg < toArg then fromArg else toArg
  let stop := if fromArg < toArg then toArg else fromArg
  if start = stop then .ok (if diff = {} then (0, false) else (-1, true))
  else if diff = {} then .ok (-1, true)
  else do
    let n ← castMonths start stop diff
    if hasRest diff then
      let count ← castInt32 (quotient (secondsLeft start stop (n * diff.wholeMonths)) diff.restSeconds)
      return (if hasMonths diff then min n count else count, false)
    else return (n, false)

/-- The end of `compute_number_of_intervals`: the two counts have to be equal where there are months. -/
def reconcile (n : Int) : Option ℚ → Except Fault (Int × Bool)
  | none => .ok (-1, true)
  | some count =>
    if !isInteger count then .ok (-1, true)
    else if count = 0 then .ok (if n ≠ 0 then (-1, true) else (n, false))
    else if n ≠ 0 then (castUInt32 count).map fun count => if n % 2 ^ 32 ≠ count then (-1, true) else (n, false)
    else (castInt32 (some count)).map fun count => (count, false)

/-- `compute_number_of_intervals`, with the error code. It is the same for both orders of the times. -/
def computeNumberOfIntervals (fromArg toArg : Int) (diff : DateTimeDiff) : Except Fault (Int × Bool) :=
  let start := if fromArg < toArg then fromArg else toArg
  let stop := if fromArg < toArg then toArg else fromArg
  if start = stop then .ok (if diff = {} then (0, false) else (-1, true))
  else if diff = {} then .ok (-1, true)
  else if hasMonths diff && !hasRest diff &&
      !(quotient (monthsBetween start stop) diff.wholeMonths).any isInteger then .ok (-1, true)
  else do
    let n ← castMonths start stop diff
    if hasRest diff then
      reconcile n (quotient (secondsLeft start stop (n * diff.wholeMonths)) diff.restSeconds)
    else return (n, false)

/-- How many times the months of a step are between two times -/
def monthSteps (start stop : Int) (diff : DateTimeDiff) : Int := monthsBetween start stop / diff.wholeMonths

/-- What is left between two times, when these months are taken off the second one -/
def restLeft (start stop : Int) (diff : DateTimeDiff) : Int :=
  secondsLeft start stop (monthSteps start stop diff * diff.wholeMonths)

/-- How many times the rest of the step is in it -/
def restSteps (start stop : Int) (diff : DateTimeDiff) : Int := restLeft start stop diff / diff.restSeconds

/-- The smaller one of the two counts, of those that the step has. -/
def floorSteps (start stop : Int) (diff : DateTimeDiff) : Int :=
  if hasRest diff then
    if hasMonths diff then min (monthSteps start stop diff) (restSteps start stop diff) else restSteps start stop diff
  else monthSteps start stop diff

/-- Neither quotient has a divisor that is zero, and both fit `int32_t`. -/
def FloorDefined (start stop : Int) (diff : DateTimeDiff) : Prop :=
  (hasMonths diff = true → diff.wholeMonths ≠ 0 ∧ FitsInt32 (monthSteps start stop diff)) ∧
    (hasRest diff = true → diff.restSeconds ≠ 0 ∧ FitsInt32 (restSteps start stop diff))

/-- Where a number of steps leads -/
def leadsTo (start : Int) (diff : DateTimeDiff) (n : Int) : Int :=
  progression start diff.wholeMonths diff.restSeconds n

/-- A time is a point of the sequence from a beginning on, by `operator[]`. -/
def Meets (start : Int) (diff : DateTimeDiff) (n : Int) (time : Int) : Prop :=
  0 ≤ n ∧ FitsInt32 n ∧ indexOf start diff n = .ok time

/-- The months and the rest of a step lead forward, where it has any, and it has some. -/
structure Forward (diff : DateTimeDiff) : Prop where
  months : hasMonths diff = true → 0 < diff.wholeMonths
  rest : hasRest diff = true → 0 < diff.restSeconds
  moves : diff ≠ {}

/-! ## Months between times -/

section months
variable {start stop number months : Int}

/-- The months between two times are those of the calendar, less one where the time in the month is earlier. -/
lemma monthsBetween_eq (start stop : Int) :
    monthsBetween start stop =
      monthOf stop - monthOf start - if timeOfMonth stop < timeOfMonth start then 1 else 0 := by
  have behind : timeOfMonth stop < timeOfMonth start ↔
      (yearMonthDay (floorDays stop)).day < (yearMonthDay (floorDays start)).day ∨
        (yearMonthDay (floorDays stop)).day = (yearMonthDay (floorDays start)).day ∧ stop % 86400 < start % 86400 := by
    unfold timeOfMonth dayOf
    omega
  unfold monthsBetween monthOf YearMonthDay.monthNumber
  simp only [behind]
  split_ifs <;> omega

/-- What is left behind the months are seconds. -/
lemma secondsLeft_eq (start stop months : Int) :
    secondsLeft start stop months = monthStart (monthOf stop - months) + timeOfMonth stop - start := by
  have number : ((yearMonthDay (floorDays stop)).addMonths (-months)).monthNumber = monthOf stop - months := by
    unfold YearMonthDay.addMonths monthOf YearMonthDay.monthNumber
    dsimp only
    omega
  unfold secondsLeft
  rw [sysDays_eq, number]
  · unfold monthStart timeOfMonth dayOf YearMonthDay.addMonths
    dsimp only
    omega
  · unfold YearMonthDay.addMonths
    dsimp only
    omega
  · unfold YearMonthDay.addMonths
    dsimp only
    omega

/-- Where the months lead, by the month of the other time. -/
lemma reaches_cases (start stop months : Int) :
    (monthOf start + months ≤ monthOf stop - 2 ∧
        monthStart (monthOf start + months) + timeOfMonth start < monthStart (monthOf stop)) ∨
      (monthOf start + months = monthOf stop - 1 ∧ monthStart (monthOf start + months) =
        monthStart (monthOf stop) - 86400 * monthLength (monthOf stop - 1)) ∨
      (monthOf start + months = monthOf stop ∧ monthStart (monthOf start + months) = monthStart (monthOf stop)) ∨
      (monthOf stop < monthOf start + months ∧ stop < monthStart (monthOf start + months)) := by
  have split := time_eq stop
  have ofMonth := timeOfMonth_range start
  have ofMonth' := timeOfMonth_range stop
  have long := monthLength_high (monthOf start)
  have before := monthStart_succ (monthOf stop - 1)
  rw [Int.sub_add_cancel] at before
  have next := monthStart_succ (monthOf stop)
  rcases Int.lt_trichotomy (monthOf start + months) (monthOf stop) with lt | same | gt
  · rcases Int.lt_or_le (monthOf start + months) (monthOf stop - 1) with lt' | le
    · left
      have far := firstDay_le (show monthOf start + months ≤ monthOf stop by omega)
      unfold monthStart
      omega
    · right; left
      have last : monthOf start + months = monthOf stop - 1 := by omega
      rw [last]
      omega
  · right; right; left
    rw [same]
    exact ⟨rfl, rfl⟩
  · right; right; right
    have far := monthStart_le (show monthOf stop + 1 ≤ monthOf start + months from gt)
    omega

/-- Months lead from one time to another one, where the day may be behind the end of the month before. -/
lemma reaches_iff :
    monthStart (monthOf start + months) + timeOfMonth start = stop ↔
      months = monthsBetween start stop ∧ (timeOfMonth start = timeOfMonth stop ∨
        timeOfMonth start = timeOfMonth stop + 86400 * monthLength (monthOf stop - 1)) := by
  have split := time_eq stop
  have ofMonth := timeOfMonth_range start
  have ofMonth' := timeOfMonth_range stop
  have short := monthLength_low (monthOf stop - 1)
  rw [monthsBetween_eq]
  rcases reaches_cases start stop months with before | last | same | behind
  · split_ifs <;> omega
  · split_ifs <;> omega
  · split_ifs <;> omega
  · split_ifs <;> omega

/-- Months lead no further than to another time. -/
lemma reaches_le_iff :
    monthStart (monthOf start + months) + timeOfMonth start ≤ stop ↔
      months < monthsBetween start stop ∨ months = monthsBetween start stop ∧
        timeOfMonth start ≤ timeOfMonth stop + 86400 * monthLength (monthOf stop - 1) := by
  have split := time_eq stop
  have ofMonth := timeOfMonth_range start
  have ofMonth' := timeOfMonth_range stop
  have short := monthLength_low (monthOf stop - 1)
  rw [monthsBetween_eq]
  rcases reaches_cases start stop months with before | last | same | behind
  · split_ifs <;> omega
  · split_ifs <;> omega
  · split_ifs <;> omega
  · split_ifs <;> omega

/-- The months between two times are not negative. -/
lemma monthsBetween_nonneg (le : start ≤ stop) : 0 ≤ monthsBetween start stop := by
  rw [← time_eq start, ← Int.add_zero (monthOf start)] at le
  rcases reaches_le_iff.mp le with more | ⟨same, -⟩
  · exact Int.le_of_lt more
  · exact Int.le_of_eq same

/-- The months that are taken off do not lead behind the first time. -/
lemma secondsLeft_nonneg (le : months ≤ monthsBetween start stop) : 0 ≤ secondsLeft start stop months := by
  have split := time_eq start
  have ofMonth := timeOfMonth_range start
  have ofMonth' := timeOfMonth_range stop
  have next := monthStart_succ (monthOf start)
  rw [monthsBetween_eq] at le
  rw [secondsLeft_eq]
  split at le
  case isTrue behind =>
    have later := monthStart_le (show monthOf start + 1 ≤ monthOf stop - months by omega)
    omega
  case isFalse ahead =>
    have later := monthStart_le (show monthOf start ≤ monthOf stop - months by omega)
    omega

end months

/-! ## Quotients -/

section quotients
variable {start stop number divisor n time : Int} {diff : DateTimeDiff}

/-- The conversion of a quotient cuts off, whatever the signs are. -/
lemma truncate_quotient (number : Int) (apart : divisor ≠ 0) :
    truncate ((number : ℚ) / divisor) = number.tdiv divisor := by
  rcases Int.lt_or_gt_of_ne apart with neg | pos
  · have flip : (number : ℚ) / divisor = (-number : Int) / (-divisor : Int) := by
      rw [Int.cast_neg, Int.cast_neg, neg_div_neg_eq]
    rw [flip, truncate_div _ (by omega), Int.neg_tdiv_neg]
  · exact truncate_div number pos

/-- A number that is not negative is divided down, if the quotient fits. -/
lemma castInt32_quotient (nonneg : 0 ≤ number) (apart : divisor ≠ 0) :
    castInt32 (quotient number divisor) =
      if FitsInt32 (number / divisor) then .ok (number / divisor) else .error .undefinedConversion := by
  unfold quotient
  rw [if_neg apart]
  unfold castInt32
  dsimp only
  rw [truncate_quotient number apart, Int.tdiv_eq_ediv_of_nonneg nonneg]
  rfl

/-- A rest of a division is not less than `epsilon`. -/
lemma isInteger_div (nonneg : 0 ≤ number) (pos : 0 < divisor) (short : divisor < 2 ^ 52) :
    isInteger ((number : ℚ) / divisor) = true ↔ divisor ∣ number := by
  have pos' : (0 : ℚ) < divisor := Int.cast_pos.mpr pos
  have sign : 0 ≤ (number : ℚ) / divisor := div_nonneg (Int.cast_nonneg nonneg) (le_of_lt pos')
  have rest : (number : ℚ) / divisor - (number / divisor : Int) = (number % divisor : Int) / divisor := by
    rw [Int.emod_def, eq_div_iff (ne_of_gt pos'), sub_mul, div_mul_cancel₀ _ (ne_of_gt pos')]
    push_cast
    ring
  unfold isInteger epsilon
  rw [decide_eq_true_eq, abs_of_nonneg sign, truncate_div _ pos, Int.tdiv_eq_ediv_of_nonneg nonneg, rest]
  rw [div_lt_div_iff₀ pos' (by norm_num), one_mul, Int.dvd_iff_emod_eq_zero]
  have low := Int.emod_nonneg number (Int.ne_of_gt pos)
  constructor
  · intro small
    have small' : number % divisor * 2 ^ 52 < divisor := by exact_mod_cast small
    omega
  · intro zero
    rw [zero, Int.cast_zero, zero_mul]
    exact pos'

/-- A step without years and months has no months. -/
lemma wholeMonths_of_still (still : hasMonths diff = false) : diff.wholeMonths = 0 := by
  unfold hasMonths at still
  simp only [ne_eq, Bool.or_eq_false_iff, decide_eq_false_iff_not, not_not] at still
  unfold wholeMonths
  rw [still.1, still.2]
  rfl

/-- A step without days and a time of day has no rest. -/
lemma restSeconds_of_none (none : hasRest diff = false) : diff.restSeconds = 0 := by
  unfold hasRest at none
  simp only [ne_eq, Bool.or_eq_false_iff, decide_eq_false_iff_not, not_not] at none
  unfold restSeconds
  rw [none.1.1.1, none.1.1.2, none.1.2, none.2]
  rfl

/-- A step that is not zero and has no months has a rest. -/
lemma hasRest_of_still (moves : diff ≠ {}) (still : hasMonths diff = false) : hasRest diff = true := by
  obtain ⟨years, months, days, hours, minutes, seconds⟩ := diff
  by_contra none
  apply moves
  unfold hasMonths at still
  unfold hasRest at none
  simp only [ne_eq, Bool.or_eq_false_iff, decide_eq_false_iff_not, not_not, Bool.or_eq_true, decide_eq_true_eq,
    not_or] at still none
  rw [still.1, still.2, none.1.1.1, none.1.1.2, none.1.2, none.2]

/-- A step that is not zero and has no rest has months. -/
lemma hasMonths_of_noRest (moves : diff ≠ {}) (rest : hasRest diff = false) : hasMonths diff = true := by
  by_contra still
  rw [Bool.not_eq_true] at still
  rw [hasRest_of_still moves still] at rest
  cases rest

/-- A step leads forward where no field is negative and one is not zero. -/
lemma Forward.of_nonneg (nonneg : diff.Nonneg) (moves : diff ≠ {}) : Forward diff := by
  have years := nonneg.years
  have months := nonneg.months
  have days := nonneg.days
  have hours := nonneg.hours
  have minutes := nonneg.minutes
  have seconds := nonneg.seconds
  refine ⟨fun some => ?_, fun some => ?_, moves⟩
  · unfold hasMonths at some
    simp only [ne_eq, Bool.or_eq_true, decide_eq_true_eq, ← Int16.toInt_inj, ← Int8.toInt_inj, Int16.toInt_zero,
      Int8.toInt_zero] at some
    unfold wholeMonths
    omega
  · unfold hasRest at some
    simp only [ne_eq, Bool.or_eq_true, decide_eq_true_eq, ← Int8.toInt_inj, Int8.toInt_zero] at some
    unfold restSeconds
    omega

/-- The months of a step that leads forward are positive where it has any. -/
lemma Forward.hasMonths_iff (forward : Forward diff) : hasMonths diff = true ↔ 0 < diff.wholeMonths := by
  refine ⟨forward.months, fun pos => ?_⟩
  by_contra still
  rw [Bool.not_eq_true] at still
  exact absurd (wholeMonths_of_still still) (Int.ne_of_gt pos)

/-- The rest of a step that leads forward is positive where it has one. -/
lemma Forward.hasRest_iff (forward : Forward diff) : hasRest diff = true ↔ 0 < diff.restSeconds := by
  refine ⟨forward.rest, fun pos => ?_⟩
  by_contra none
  rw [Bool.not_eq_true] at none
  exact absurd (restSeconds_of_none none) (Int.ne_of_gt pos)

/-- A step that leads forward does so by its months or by its rest. -/
lemma Forward.moves' (forward : Forward diff) : 0 < diff.wholeMonths ∨ 0 < diff.restSeconds := by
  rw [← forward.hasMonths_iff, ← forward.hasRest_iff]
  cases months : hasMonths diff with
  | true => exact .inl rfl
  | false => exact .inr (hasRest_of_still forward.moves months)

/-- The months of a step that leads forward are not negative. -/
lemma Forward.wholeMonths_nonneg (forward : Forward diff) : 0 ≤ diff.wholeMonths := by
  cases months : hasMonths diff with
  | true => exact Int.le_of_lt (forward.months months)
  | false => exact Int.le_of_eq (wholeMonths_of_still months).symm

/-- The rest of a step that leads forward is not negative. -/
lemma Forward.restSeconds_nonneg (forward : Forward diff) : 0 ≤ diff.restSeconds := by
  cases rest : hasRest diff with
  | true => exact Int.le_of_lt (forward.rest rest)
  | false => exact Int.le_of_eq (restSeconds_of_none rest).symm

/-- The steps of a sequence lead to its points. -/
lemma point_eq (s : TimeSequence) (number : Int) : s.point number = leadsTo s.start s.duration number :=
  pointOf_eq s.start s.duration number

/-- A point is where the steps lead, as long as the products fit. -/
lemma meets_iff : Meets start diff n time ↔ 0 ≤ n ∧ Multiplies diff n ∧ leadsTo start diff n = time := by
  unfold Meets
  refine and_congr_right fun _ => ?_
  constructor
  · rintro ⟨fits, given⟩
    obtain ⟨multiplies, leads⟩ := (indexOf_eq_ok_iff fits).mp given
    exact ⟨multiplies, by rw [← leads, pointOf_eq]; rfl⟩
  · rintro ⟨multiplies, leads⟩
    exact ⟨multiplies.1, (indexOf_eq_ok_iff multiplies.1).mpr ⟨multiplies, by rw [pointOf_eq]; exact leads⟩⟩

end quotients

/-! ## The floor -/

/-- The count is the greatest number of a point that is not behind the second time. -/
def FloorRight (start stop : Int) (diff : DateTimeDiff) : Prop :=
  ∃ n, fullNumberOfIntervals start stop diff = .ok (n, false) ∧
    IsGreatest {n | ∃ time ≤ stop, Meets start diff n time} n

/-- When it is: the counts fit 32 bits, and so do the products of the fields with the one that is smaller. With months
    alone, the day may not be further behind the end of the month before than the second time. With months and a rest,
    where the rest is left as often as the months are, so many steps do not lead behind the second time, and where it is
    left less often, one step more does, if its products fit. -/
structure FloorExact (start stop : Int) (diff : DateTimeDiff) : Prop where
  monthsFit : monthSteps start stop diff < 2 ^ 31
  restFits : diff.restSeconds ≠ 0 → restSteps start stop diff < 2 ^ 31
  multiplies : Multiplies diff (floorSteps start stop diff)
  months : diff.restSeconds = 0 → diff.wholeMonths ∣ monthsBetween start stop →
    timeOfMonth start ≤ timeOfMonth stop + 86400 * monthLength (monthOf stop - 1)
  both : diff.restSeconds ≠ 0 → monthSteps start stop diff ≤ restSteps start stop diff →
    leadsTo start diff (monthSteps start stop diff) ≤ stop
  less : diff.restSeconds ≠ 0 → restSteps start stop diff < monthSteps start stop diff →
    Multiplies diff (restSteps start stop diff + 1) → stop < leadsTo start diff (restSteps start stop diff + 1)

section floor
variable {start stop n : Int} {diff : DateTimeDiff}

/-- The months of the step are counted up to the months between the times, whatever their sign is. -/
lemma monthSteps_mul_le (le : start ≤ stop) (diff : DateTimeDiff) :
    monthSteps start stop diff * diff.wholeMonths ≤ monthsBetween start stop := by
  by_cases zero : diff.wholeMonths = 0
  · rw [zero, Int.mul_zero]
    exact monthsBetween_nonneg le
  · exact Int.ediv_mul_le _ zero

/-- What is left when the months are taken off is not negative. -/
lemma restLeft_nonneg (le : start ≤ stop) (diff : DateTimeDiff) : 0 ≤ restLeft start stop diff :=
  secondsLeft_nonneg (monthSteps_mul_le le diff)

/-- The months of a step that leads forward are not counted below zero. -/
lemma monthSteps_nonneg (le : start ≤ stop) (forward : Forward diff) : 0 ≤ monthSteps start stop diff :=
  Int.ediv_nonneg (monthsBetween_nonneg le) forward.wholeMonths_nonneg

/-- The rests of a step that leads forward are not counted below zero. -/
lemma restSteps_nonneg (le : start ≤ stop) (forward : Forward diff) : 0 ≤ restSteps start stop diff :=
  Int.ediv_nonneg (restLeft_nonneg le diff) forward.restSeconds_nonneg

/-- Without months, none are counted. -/
lemma monthSteps_eq_zero (zero : diff.wholeMonths = 0) : monthSteps start stop diff = 0 := by
  unfold monthSteps
  rw [zero, Int.ediv_zero]

/-- The months are counted if their quotient has a divisor and fits. -/
lemma castMonths_eq (le : start ≤ stop) (diff : DateTimeDiff) :
    castMonths start stop diff =
      if hasMonths diff = true → diff.wholeMonths ≠ 0 ∧ FitsInt32 (monthSteps start stop diff) then
        .ok (monthSteps start stop diff)
      else .error .undefinedConversion := by
  have total := monthsBetween_nonneg le
  unfold castMonths
  cases months : hasMonths diff with
  | false =>
    rw [if_neg Bool.false_ne_true, if_pos (fun some => absurd some Bool.false_ne_true),
      monthSteps_eq_zero (wholeMonths_of_still months)]
  | true =>
    rw [if_pos rfl]
    by_cases zero : diff.wholeMonths = 0
    case pos =>
      rw [if_neg fun both => (both rfl).1 zero, zero]
      rfl
    case neg =>
      rw [castInt32_quotient total zero]
      exact if_congr ⟨fun fits _ => ⟨zero, fits⟩, fun both => (both rfl).2⟩ rfl rfl

/-- What the floor gives: the smaller count, where both conversions are defined. -/
lemma full_eq (lt : start < stop) (moves : diff ≠ {}) :
    (FloorDefined start stop diff ∧ fullNumberOfIntervals start stop diff = .ok (floorSteps start stop diff, false)) ∨
      (¬ FloorDefined start stop diff ∧ ∃ fault, fullNumberOfIntervals start stop diff = .error fault) := by
  have left : 0 ≤ restLeft start stop diff := restLeft_nonneg (Int.le_of_lt lt) diff
  unfold fullNumberOfIntervals FloorDefined floorSteps
  dsimp only
  rw [if_pos lt, if_pos lt, if_neg (Int.ne_of_lt lt), if_neg moves, castMonths_eq (Int.le_of_lt lt) diff]
  by_cases fits : hasMonths diff = true → diff.wholeMonths ≠ 0 ∧ FitsInt32 (monthSteps start stop diff)
  case neg =>
    rw [if_neg fits]
    exact .inr ⟨fun both => fits both.1, .undefinedConversion, rfl⟩
  case pos =>
    rw [if_pos fits]
    simp only [bind, Except.bind]
    cases rest : hasRest diff with
    | false => exact .inl ⟨⟨fits, fun some => absurd some Bool.false_ne_true⟩, rfl⟩
    | true =>
      have steps : restLeft start stop diff / diff.restSeconds = restSteps start stop diff := rfl
      unfold restLeft at left steps
      rw [if_pos rfl, if_pos rfl]
      by_cases zero : diff.restSeconds = 0
      case pos =>
        refine .inr ⟨fun both => (both.2 rfl).1 zero, .undefinedConversion, ?_⟩
        rw [zero]
        rfl
      case neg =>
        rw [castInt32_quotient left zero, steps]
        by_cases fits' : FitsInt32 (restSteps start stop diff)
        case neg =>
          rw [if_neg fits']
          exact .inr ⟨fun both => fits' (both.2 rfl).2, .undefinedConversion, rfl⟩
        case pos =>
          rw [if_pos fits']
          exact .inl ⟨⟨fits, fun _ => ⟨zero, fits'⟩⟩, rfl⟩

/-- Where a step leads forward, the counts are defined if they fit. -/
lemma Forward.floorDefined_iff (forward : Forward diff) (le : start ≤ stop) : FloorDefined start stop diff ↔
    monthSteps start stop diff < 2 ^ 31 ∧ (diff.restSeconds ≠ 0 → restSteps start stop diff < 2 ^ 31) := by
  have low := monthSteps_nonneg le forward
  have low' := restSteps_nonneg le forward
  have months := forward.wholeMonths_nonneg
  have rest := forward.restSeconds_nonneg
  unfold FloorDefined FitsInt32
  rw [forward.hasMonths_iff, forward.hasRest_iff]
  constructor
  · rintro ⟨both, both'⟩
    refine ⟨?_, fun some => (both' (by omega)).2.2⟩
    rcases Int.lt_or_eq_of_le months with pos | zero
    · exact (both pos).2.2
    · rw [monthSteps_eq_zero zero.symm]
      decide
  · rintro ⟨fits, fits'⟩
    exact ⟨fun pos => ⟨by omega, by omega, fits⟩, fun pos => ⟨by omega, by omega, fits' (by omega)⟩⟩

/-- More steps lead further. -/
lemma leadsTo_lt (forward : Forward diff) {number number' : Int} (lt : number < number') :
    leadsTo start diff number < leadsTo start diff number' := by
  apply progression_lt forward.wholeMonths_nonneg forward.restSeconds_nonneg _ lt
  rcases forward.moves' with months | rest
  · exact .inl (Int.ne_of_gt months)
  · exact .inr (Int.ne_of_gt rest)

/-- The points that are not behind a time -/
lemma mem_within_iff {number : Int} : (∃ time ≤ stop, Meets start diff number time) ↔
    0 ≤ number ∧ Multiplies diff number ∧ leadsTo start diff number ≤ stop := by
  simp only [meets_iff]
  constructor
  · rintro ⟨time, le, low, multiplies, rfl⟩
    exact ⟨low, multiplies, le⟩
  · rintro ⟨low, multiplies, le⟩
    exact ⟨_, le, low, multiplies, rfl⟩

/-- A number of steps is the greatest one exactly if it is the number of a point, and one more leads behind the second
    time, or there is no such point. -/
lemma greatest_iff (forward : Forward diff) (pos : 0 ≤ n) :
    IsGreatest {n | ∃ time ≤ stop, Meets start diff n time} n ↔
      Multiplies diff n ∧ leadsTo start diff n ≤ stop ∧
        (Multiplies diff (n + 1) → stop < leadsTo start diff (n + 1)) := by
  constructor
  · rintro ⟨within, bound⟩
    obtain ⟨-, multiplies, le⟩ := mem_within_iff.mp within
    refine ⟨multiplies, le, fun next => Int.not_le.mp fun le => ?_⟩
    have : n + 1 ≤ n := bound (mem_within_iff.mpr ⟨by omega, next, le⟩)
    omega
  · rintro ⟨multiplies, within, behind⟩
    refine ⟨mem_within_iff.mpr ⟨pos, multiplies, within⟩, ?_⟩
    intro number mem
    obtain ⟨low, multiplies', le⟩ := mem_within_iff.mp mem
    by_contra more
    have next := behind (multiplies'.of_le (by omega) (by omega))
    rcases Int.lt_or_eq_of_le (show n + 1 ≤ number by omega) with lt | rfl
    · have : leadsTo start diff (n + 1) < leadsTo start diff number := leadsTo_lt forward lt
      omega
    · omega

/-- More steps than the months have place for lead behind the second time. -/
lemma months_behind (le : start ≤ stop) (forward : Forward diff) (pos : 0 < diff.wholeMonths)
    (lt : monthSteps start stop diff < n) : stop < leadsTo start diff n := by
  have steps := monthSteps_nonneg le forward
  have more : monthsBetween start stop < diff.wholeMonths * n := by
    rw [Int.mul_comm]
    exact Int.lt_mul_of_ediv_lt pos lt
  have rest : 0 ≤ diff.restSeconds * n := Int.mul_nonneg forward.restSeconds_nonneg (by omega)
  have behind : ¬ monthStart (monthOf start + diff.wholeMonths * n) + timeOfMonth start ≤ stop := by
    rw [reaches_le_iff]
    omega
  unfold leadsTo progression
  omega

/-- Where a step has only months, as many as there is place for lead no further than to the second time. -/
lemma months_floor_iff (le : start ≤ stop) (zero : diff.restSeconds = 0) :
    leadsTo start diff (monthSteps start stop diff) ≤ stop ↔
      (diff.wholeMonths ∣ monthsBetween start stop →
        timeOfMonth start ≤ timeOfMonth stop + 86400 * monthLength (monthOf stop - 1)) := by
  have within : monthSteps start stop diff * diff.wholeMonths ≤ monthsBetween start stop := monthSteps_mul_le le diff
  have whole : diff.wholeMonths ∣ monthsBetween start stop ↔
      diff.wholeMonths * monthSteps start stop diff = monthsBetween start stop :=
    ⟨Int.mul_ediv_cancel', fun same => ⟨_, same.symm⟩⟩
  rw [Int.mul_comm] at within
  unfold leadsTo progression
  rw [zero, Int.zero_mul, Int.add_zero, reaches_le_iff, whole]
  constructor
  · rintro (lt | ⟨-, early⟩) same
    · omega
    · exact early
  · intro early
    rcases Int.lt_or_eq_of_le within with lt | same
    · exact .inl lt
    · exact .inr ⟨same, early same⟩

/-- Where a step has only a rest, it is divided by it. -/
lemma rest_floor (zero : diff.wholeMonths = 0) (pos : 0 < diff.restSeconds) :
    leadsTo start diff (restSteps start stop diff) ≤ stop ∧
      stop < leadsTo start diff (restSteps start stop diff + 1) := by
  have left : restLeft start stop diff = stop - start := by
    unfold restLeft
    rw [zero, Int.mul_zero, secondsLeft_eq, Int.sub_zero, time_eq]
  have low := Int.ediv_mul_le (restLeft start stop diff) (Int.ne_of_gt pos)
  have high := Int.lt_ediv_add_one_mul_self (restLeft start stop diff) pos
  unfold leadsTo progression restSteps
  rw [zero, Int.zero_mul, Int.zero_mul, Int.add_zero, time_eq, Int.mul_comm diff.restSeconds,
    Int.mul_comm diff.restSeconds]
  omega

/-- What is left has place for fewer steps than there are months: so many lead no further than to the second time,
    because some months are shorter than any one more. -/
lemma less_within (pos : 0 < diff.wholeMonths) (pos' : 0 < diff.restSeconds)
    (less : restSteps start stop diff < monthSteps start stop diff) :
    leadsTo start diff (restSteps start stop diff) ≤ stop := by
  have low := Int.ediv_mul_le (restLeft start stop diff) (Int.ne_of_gt pos')
  have fewer : diff.wholeMonths * restSteps start stop diff < monthSteps start stop diff * diff.wholeMonths := by
    rw [Int.mul_comm]
    exact Int.mul_lt_mul_of_pos_right less pos
  have spans := span_lt (monthOf start) (monthOf stop - monthSteps start stop diff * diff.wholeMonths) fewer
  have split := time_eq start
  have split' := time_eq stop
  change restSteps start stop diff * diff.restSeconds ≤ restLeft start stop diff at low
  unfold restLeft at low
  rw [secondsLeft_eq] at low
  rw [Int.sub_add_cancel] at spans
  unfold leadsTo progression
  rw [Int.mul_comm diff.restSeconds]
  unfold monthStart at *
  omega

/-- No step leads nowhere else. -/
lemma leadsTo_zero (start : Int) (diff : DateTimeDiff) : leadsTo start diff 0 = start :=
  progression_zero start _ _

/-- The floor with months alone -/
lemma floorExact_months_iff (lt : start < stop) (forward : Forward diff) (zero : diff.restSeconds = 0)
    (fits : monthSteps start stop diff < 2 ^ 31) :
    IsGreatest {n | ∃ time ≤ stop, Meets start diff n time} (floorSteps start stop diff) ↔
      FloorExact start stop diff := by
  have pos : 0 < diff.wholeMonths := by
    have := forward.moves'
    omega
  have same : floorSteps start stop diff = monthSteps start stop diff := by
    unfold floorSteps
    rw [if_neg (by rw [forward.hasRest_iff]; omega)]
  have behind := months_behind (Int.le_of_lt lt) forward pos
    (Int.lt_add_one_of_le (Int.le_refl (monthSteps start stop diff)))
  rw [same, greatest_iff forward (monthSteps_nonneg (Int.le_of_lt lt) forward),
    months_floor_iff (Int.le_of_lt lt) zero]
  constructor
  · rintro ⟨multiplies, early, -⟩
    exact ⟨fits, fun rest => absurd zero rest, by rwa [same], fun _ => early, fun rest => absurd zero rest,
      fun rest => absurd zero rest⟩
  · intro exact
    exact ⟨same ▸ exact.multiplies, exact.months zero, fun _ => behind⟩

/-- The floor with a rest alone -/
lemma floorExact_rest_iff (lt : start < stop) (forward : Forward diff) (zero : diff.wholeMonths = 0)
    (pos : 0 < diff.restSeconds) (fits : monthSteps start stop diff < 2 ^ 31)
    (fits' : restSteps start stop diff < 2 ^ 31) :
    IsGreatest {n | ∃ time ≤ stop, Meets start diff n time} (floorSteps start stop diff) ↔
      FloorExact start stop diff := by
  have steps : 0 ≤ restSteps start stop diff := restSteps_nonneg (Int.le_of_lt lt) forward
  have none : monthSteps start stop diff = 0 := monthSteps_eq_zero zero
  have same : floorSteps start stop diff = restSteps start stop diff := by
    unfold floorSteps
    rw [if_pos (forward.hasRest_iff.mpr pos), if_neg (by rw [forward.hasMonths_iff]; omega)]
  have floor : leadsTo start diff (restSteps start stop diff) ≤ stop ∧ _ := rest_floor zero pos
  obtain ⟨within, behind⟩ := floor
  rw [same, greatest_iff forward steps]
  constructor
  · rintro ⟨multiplies, -⟩
    refine ⟨fits, fun _ => fits', by rwa [same], fun rest => ?_, fun _ _ => ?_, fun _ less => ?_⟩
    · omega
    · rw [none, leadsTo_zero]
      exact Int.le_of_lt lt
    · omega
  · intro exact
    exact ⟨same ▸ exact.multiplies, within, fun _ => behind⟩

/-- The floor with months and a rest -/
lemma floorExact_both_iff (lt : start < stop) (forward : Forward diff) (pos : 0 < diff.wholeMonths)
    (pos' : 0 < diff.restSeconds) (fits : monthSteps start stop diff < 2 ^ 31)
    (fits' : restSteps start stop diff < 2 ^ 31) :
    IsGreatest {n | ∃ time ≤ stop, Meets start diff n time} (floorSteps start stop diff) ↔
      FloorExact start stop diff := by
  have steps := monthSteps_nonneg (Int.le_of_lt lt) forward
  have steps' := restSteps_nonneg (Int.le_of_lt lt) forward
  have rest := Int.ne_of_gt pos'
  have same : floorSteps start stop diff = min (monthSteps start stop diff) (restSteps start stop diff) := by
    unfold floorSteps
    rw [if_pos (forward.hasRest_iff.mpr pos'), if_pos (forward.hasMonths_iff.mpr pos)]
  rcases Int.lt_or_le (restSteps start stop diff) (monthSteps start stop diff) with less | more
  · rw [Int.min_eq_right (Int.le_of_lt less)] at same
    rw [same, greatest_iff forward steps']
    constructor
    · rintro ⟨multiplies, -, behind⟩
      exact ⟨fits, fun _ => fits', by rwa [same], fun zero => absurd zero rest,
        fun _ more => absurd less (Int.not_lt.mpr more), fun _ _ => behind⟩
    · intro exact
      exact ⟨same ▸ exact.multiplies, less_within pos pos' less, exact.less rest less⟩
  · rw [Int.min_eq_left more] at same
    rw [same, greatest_iff forward steps]
    constructor
    · rintro ⟨multiplies, within, -⟩
      exact ⟨fits, fun _ => fits', by rwa [same], fun zero => absurd zero rest, fun _ _ => within,
        fun _ less => absurd less (Int.not_lt.mpr more)⟩
    · intro exact
      exact ⟨same ▸ exact.multiplies, exact.both rest more,
        fun _ => months_behind (Int.le_of_lt lt) forward pos (Int.lt_add_one_of_le (Int.le_refl _))⟩

/-- The smaller count, where it is defined, is the greatest number of a point that is not behind exactly where it is
    exact. -/
lemma floorExact_iff (lt : start < stop) (forward : Forward diff) (defined : FloorDefined start stop diff) :
    IsGreatest {n | ∃ time ≤ stop, Meets start diff n time} (floorSteps start stop diff) ↔
      FloorExact start stop diff := by
  have rest := forward.restSeconds_nonneg
  have months := forward.wholeMonths_nonneg
  obtain ⟨fits, fits'⟩ := (forward.floorDefined_iff (Int.le_of_lt lt)).mp defined
  by_cases zero : diff.restSeconds = 0
  case pos => exact floorExact_months_iff lt forward zero fits
  case neg =>
    by_cases zero' : diff.wholeMonths = 0
    case pos => exact floorExact_rest_iff lt forward zero' (by omega) fits (fits' zero)
    case neg => exact floorExact_both_iff lt forward (by omega) (by omega) fits (fits' zero)

/-- The floor is right exactly where it is exact. -/
theorem full_right_iff (lt : start < stop) (nonneg : diff.Nonneg) (moves : diff ≠ {}) :
    FloorRight start stop diff ↔ FloorExact start stop diff := by
  have forward := Forward.of_nonneg nonneg moves
  unfold FloorRight
  rcases full_eq lt moves with ⟨defined, given⟩ | ⟨undefined, fault, given⟩
  · rw [given]
    simp only [Except.ok.injEq, Prod.mk.injEq, and_true, exists_eq_left']
    exact floorExact_iff lt forward defined
  · rw [given]
    refine iff_of_false (fun ⟨n, given, _⟩ => nomatch given) fun exact => undefined ?_
    exact (forward.floorDefined_iff (Int.le_of_lt lt)).mpr ⟨exact.monthsFit, exact.restFits⟩

/-- A month and a half -/
theorem full_right_months : FloorRight 0 3888000 { months := 1 } := by
  have later : (0 : Int) < 3888000 := by decide
  refine (full_right_iff later ⟨?_, ?_, ?_, ?_, ?_, ?_⟩ (by decide)).mpr ⟨?_, ?_, ?_, ?_, ?_, ?_⟩
  all_goals decide +kernel

/-- A month and a day have place in a year, and none is counted. -/
theorem full_misses_months :
    ¬ ∀ start stop diff, start < stop → diff.Nonneg → diff ≠ {} → FloorRight start stop diff := by
  intro right
  have nonneg : Nonneg { months := 1, days := 1 } := ⟨by decide, by decide, by decide, by decide, by decide, by decide⟩
  obtain ⟨n, given, -, bound⟩ := right 0 31536000 { months := 1, days := 1 } (by decide) nonneg (by decide)
  have counted : fullNumberOfIntervals 0 31536000 { months := 1, days := 1 } = .ok (0, false) := by decide +kernel
  rw [counted] at given
  cases given
  have more : (1 : Int) ≤ 0 := bound (mem_within_iff.mpr ⟨by decide, by decide, by decide +kernel⟩)
  revert more
  decide

end floor

/-! ## The exact count -/

/-- A number is given exactly if it is that of the second time as a point, and if there is none, the error is. -/
def CountRight (start stop : Int) (diff : DateTimeDiff) : Prop :=
  (∀ n, computeNumberOfIntervals start stop diff = .ok (n, false) ↔ Meets start diff n stop) ∧
    ((¬ ∃ n, Meets start diff n stop) → computeNumberOfIntervals start stop diff = .ok (-1, true))

/-- When it is. With months alone, where they divide the months between the times, the products of the fields with their
    count fit, and the day is the same, or behind the end of the month before by as much as the second time is. With a
    rest alone, where it divides what is left, the products with the count fit. With both, where the months have no
    place, the rest does not divide what is left; where they have, the counts fit, and either the rest is left as often
    as the months are, the products fit and the months before the second time have as many days as those from the first
    one, or it is not, and no number of steps whose products fit leads to the second time. -/
structure CountExact (start stop : Int) (diff : DateTimeDiff) : Prop where
  months : diff.restSeconds = 0 → diff.wholeMonths ∣ monthsBetween start stop →
    Multiplies diff (monthSteps start stop diff) ∧ (timeOfMonth start = timeOfMonth stop ∨
      timeOfMonth start = timeOfMonth stop + 86400 * monthLength (monthOf stop - 1))
  rest : diff.wholeMonths = 0 → diff.restSeconds ∣ restLeft start stop diff →
    Multiplies diff (restSteps start stop diff)
  none : diff.restSeconds ≠ 0 → diff.wholeMonths ≠ 0 → monthSteps start stop diff = 0 →
    ¬ diff.restSeconds ∣ restLeft start stop diff
  fit : diff.restSeconds ≠ 0 → monthSteps start stop diff ≠ 0 → monthSteps start stop diff < 2 ^ 31 ∧
    (diff.restSeconds ∣ restLeft start stop diff → restSteps start stop diff < 2 ^ 32)
  taken : diff.restSeconds ≠ 0 → monthSteps start stop diff ≠ 0 →
    restLeft start stop diff = monthSteps start stop diff * diff.restSeconds →
      Multiplies diff (monthSteps start stop diff) ∧
        firstDay (monthOf stop) - firstDay (monthOf stop - monthSteps start stop diff * diff.wholeMonths) =
          firstDay (monthOf start + monthSteps start stop diff * diff.wholeMonths) - firstDay (monthOf start)
  left : diff.restSeconds ≠ 0 → monthSteps start stop diff ≠ 0 →
    restLeft start stop diff ≠ monthSteps start stop diff * diff.restSeconds →
      ∀ n, 0 ≤ n → Multiplies diff n → leadsTo start diff n ≠ stop

section count
variable {start stop n : Int} {diff : DateTimeDiff}

/-- The whole months are few. -/
lemma wholeMonths_lt (diff : DateTimeDiff) : diff.wholeMonths < 2 ^ 52 := by
  have years := Int16.toInt_lt diff.years
  have months := Int8.toInt_lt diff.months
  unfold wholeMonths
  omega

/-- The seconds are few. -/
lemma restSeconds_lt (diff : DateTimeDiff) : diff.restSeconds < 2 ^ 52 := by
  have days := Int8.toInt_lt diff.days
  have hours := Int8.toInt_lt diff.hours
  have minutes := Int8.toInt_lt diff.minutes
  have seconds := Int8.toInt_lt diff.seconds
  unfold restSeconds
  omega

/-- A quotient is converted to `uint32_t` where it fits. -/
lemma castUInt32_div {number divisor : Int} (nonneg : 0 ≤ number) (pos : 0 < divisor) :
    castUInt32 ((number : ℚ) / divisor) =
      if number / divisor < 2 ^ 32 then .ok (number / divisor) else .error .undefinedConversion := by
  have low : 0 ≤ number / divisor := Int.ediv_nonneg nonneg (Int.le_of_lt pos)
  unfold castUInt32
  rw [truncate_div _ pos, Int.tdiv_eq_ediv_of_nonneg nonneg]
  split
  case isTrue fits => rw [if_pos fits.2]
  case isFalse far => rw [if_neg fun high => far ⟨low, high⟩]

/-- The count by the months is reconciled with the one by the seconds. -/
lemma reconcile_quotient {number divisor : Int} (nonneg : 0 ≤ number) (pos : 0 < divisor) (short : divisor < 2 ^ 52)
    (low : 0 ≤ n) (high : n < 2 ^ 31) :
    reconcile n (quotient number divisor) =
      if ¬ divisor ∣ number then .ok (-1, true)
      else if number = 0 then .ok (if n ≠ 0 then (-1, true) else (n, false))
      else if n ≠ 0 then
        if number / divisor < 2 ^ 32 then .ok (if n ≠ number / divisor then (-1, true) else (n, false))
        else .error .undefinedConversion
      else if number / divisor < 2 ^ 31 then .ok (number / divisor, false)
      else .error .undefinedConversion := by
  have cast := castInt32_quotient nonneg (Int.ne_of_gt pos)
  have below : FitsInt32 (number / divisor) ↔ number / divisor < 2 ^ 31 :=
    ⟨And.right, fun high => ⟨by have := Int.ediv_nonneg nonneg (Int.le_of_lt pos); omega, high⟩⟩
  rw [if_congr below rfl rfl] at cast
  have zero : (number : ℚ) / divisor = 0 ↔ number = 0 := by
    rw [div_eq_zero_iff, Int.cast_eq_zero, Int.cast_eq_zero]
    omega
  unfold quotient at cast ⊢
  rw [if_neg (Int.ne_of_gt pos)] at cast ⊢
  unfold reconcile
  simp only [Bool.not_eq_true', ← Bool.not_eq_true, isInteger_div nonneg pos short, zero]
  refine if_congr Iff.rfl rfl (if_congr Iff.rfl rfl (if_congr Iff.rfl ?_ ?_))
  · rw [castUInt32_div nonneg pos]
    split
    · rw [Int.emod_eq_of_lt low (by omega)]
      rfl
    · rfl
  · rw [cast]
    split
    · rfl
    · rfl

/-- The months of a step that leads forward are counted if they fit. -/
lemma castMonths_forward (le : start ≤ stop) (forward : Forward diff) :
    castMonths start stop diff =
      if monthSteps start stop diff < 2 ^ 31 then .ok (monthSteps start stop diff)
      else .error .undefinedConversion := by
  have low := monthSteps_nonneg le forward
  rw [castMonths_eq le diff]
  refine if_congr ?_ rfl rfl
  unfold FitsInt32
  rw [forward.hasMonths_iff]
  constructor
  · intro both
    rcases Int.lt_or_eq_of_le forward.wholeMonths_nonneg with pos | zero
    · exact (both pos).2.2
    · rw [monthSteps_eq_zero zero.symm]
      decide
  · exact fun fits pos => ⟨Int.ne_of_gt pos, by omega, fits⟩

/-- What the exact count is without and with a rest. -/
lemma compute_eq (lt : start < stop) (forward : Forward diff) :
    computeNumberOfIntervals start stop diff =
      if diff.restSeconds = 0 ∧ ¬ diff.wholeMonths ∣ monthsBetween start stop then .ok (-1, true)
      else if ¬ monthSteps start stop diff < 2 ^ 31 then .error .undefinedConversion
      else if diff.restSeconds = 0 then .ok (monthSteps start stop diff, false)
      else if ¬ diff.restSeconds ∣ restLeft start stop diff then .ok (-1, true)
      else if restLeft start stop diff = 0 then
        .ok (if monthSteps start stop diff ≠ 0 then (-1, true) else (monthSteps start stop diff, false))
      else if monthSteps start stop diff ≠ 0 then
        if restSteps start stop diff < 2 ^ 32 then
          .ok (if monthSteps start stop diff ≠ restSteps start stop diff then (-1, true)
            else (monthSteps start stop diff, false))
        else .error .undefinedConversion
      else if restSteps start stop diff < 2 ^ 31 then .ok (restSteps start stop diff, false)
      else .error .undefinedConversion := by
  have total := monthsBetween_nonneg (Int.le_of_lt lt)
  have left : 0 ≤ restLeft start stop diff := restLeft_nonneg (Int.le_of_lt lt) diff
  have steps := monthSteps_nonneg (Int.le_of_lt lt) forward
  have seconds := forward.restSeconds_nonneg
  unfold computeNumberOfIntervals
  dsimp only
  rw [if_pos lt, if_pos lt, if_neg (Int.ne_of_lt lt), if_neg forward.moves]
  by_cases none : diff.restSeconds = 0
  case pos =>
    have pos : 0 < diff.wholeMonths := by
      have := forward.moves'
      omega
    have months : hasMonths diff = true := forward.hasMonths_iff.mpr pos
    have rest : hasRest diff = false := by
      rw [← Bool.not_eq_true, forward.hasRest_iff]
      omega
    have whole : (quotient (monthsBetween start stop) diff.wholeMonths).any isInteger = true ↔
        diff.wholeMonths ∣ monthsBetween start stop := by
      unfold quotient
      rw [if_neg (Int.ne_of_gt pos)]
      exact isInteger_div total pos (wholeMonths_lt diff)
    rw [months, rest, castMonths_forward (Int.le_of_lt lt) forward]
    by_cases divides : diff.wholeMonths ∣ monthsBetween start stop
    case neg =>
      rw [if_pos (And.intro none divides)]
      rw [← whole, Bool.not_eq_true] at divides
      rw [divides]
      rfl
    case pos =>
      rw [whole.mpr divides, if_neg (show ¬ ((true && !false && !true) = true) by decide),
        if_neg (show ¬ (diff.restSeconds = 0 ∧ ¬ diff.wholeMonths ∣ monthsBetween start stop) from
          fun both => both.2 divides)]
      by_cases fits : monthSteps start stop diff < 2 ^ 31
      case neg =>
        rw [if_neg fits, if_pos fits]
        rfl
      case pos =>
        rw [if_pos fits, if_neg (not_not_intro fits), if_pos none]
        rfl
  case neg =>
    have rest : hasRest diff = true := forward.hasRest_iff.mpr (by omega)
    rw [rest, castMonths_forward (Int.le_of_lt lt) forward,
      if_neg (show ¬ (diff.restSeconds = 0 ∧ ¬ diff.wholeMonths ∣ monthsBetween start stop) from
        fun both => none both.1)]
    by_cases fits : monthSteps start stop diff < 2 ^ 31
    case neg =>
      rw [if_neg fits, if_pos fits, Bool.not_true, Bool.and_false, Bool.false_and]
      rfl
    case pos =>
      rw [if_pos fits, if_neg (not_not_intro fits), if_neg none, Bool.not_true, Bool.and_false, Bool.false_and]
      exact reconcile_quotient left (by omega) (restSeconds_lt diff) steps fits

/-- A step that moves leads to different times. -/
lemma leadsTo_inj (forward : Forward diff) {number number' : Int}
    (same : leadsTo start diff number = leadsTo start diff number') : number = number' := by
  rcases Int.lt_trichotomy number number' with lt | same' | gt
  · exact absurd same (Int.ne_of_lt (leadsTo_lt forward lt))
  · exact same'
  · exact absurd same.symm (Int.ne_of_lt (leadsTo_lt forward gt))

/-- A conversion that is undefined counts nothing. -/
lemma not_countRight_error {fault : Fault} (given : computeNumberOfIntervals start stop diff = .error fault) :
    ¬ CountRight start stop diff := by
  rintro ⟨counts, refuses⟩
  have none : ¬ ∃ n, Meets start diff n stop := by
    rintro ⟨n, meets⟩
    have counted := (counts n).mpr meets
    rw [given] at counted
    cases counted
  have refused := refuses none
  rw [given] at refused
  cases refused

/-- An error is right exactly if the second time is no point. -/
lemma countRight_refused_iff (given : computeNumberOfIntervals start stop diff = .ok (-1, true)) :
    CountRight start stop diff ↔ ∀ n, 0 ≤ n → Multiplies diff n → leadsTo start diff n ≠ stop := by
  unfold CountRight
  rw [given]
  simp only [meets_iff]
  constructor
  · rintro ⟨counts, -⟩ n pos multiplies leads
    have counted := (counts n).mpr ⟨pos, multiplies, leads⟩
    cases counted
  · intro none
    refine ⟨fun n => iff_of_false ?_ ?_, fun _ => trivial⟩
    · intro counted
      cases counted
    · rintro ⟨pos, multiplies, leads⟩
      exact none n pos multiplies leads

/-- A number is right exactly if it is that of the second time as a point. -/
lemma countRight_counted_iff (forward : Forward diff) (pos : 0 ≤ n)
    (given : computeNumberOfIntervals start stop diff = .ok (n, false)) :
    CountRight start stop diff ↔ Multiplies diff n ∧ leadsTo start diff n = stop := by
  unfold CountRight
  rw [given]
  simp only [meets_iff]
  constructor
  · rintro ⟨counts, -⟩
    exact ((counts n).mp rfl).2
  · rintro ⟨multiplies, leads⟩
    refine ⟨fun number => ⟨?_, ?_⟩, fun none => absurd ⟨n, pos, multiplies, leads⟩ none⟩
    · intro counted
      cases counted
      exact ⟨pos, multiplies, leads⟩
    · rintro ⟨-, -, leads'⟩
      rw [leadsTo_inj forward (leads.trans leads'.symm)]

/-- The count with months alone -/
lemma countExact_months_iff (lt : start < stop) (forward : Forward diff)
    (zero : diff.restSeconds = 0) :
    CountRight start stop diff ↔ CountExact start stop diff := by
  have pos : 0 < diff.wholeMonths := by
    have := forward.moves'
    omega
  have computed := compute_eq lt forward
  have steps : 0 ≤ monthSteps start stop diff := monthSteps_nonneg (Int.le_of_lt lt) forward
  have leads (n : Int) : leadsTo start diff n = stop ↔ diff.wholeMonths * n = monthsBetween start stop ∧
      (timeOfMonth start = timeOfMonth stop ∨
        timeOfMonth start = timeOfMonth stop + 86400 * monthLength (monthOf stop - 1)) := by
    unfold leadsTo progression
    rw [zero, Int.zero_mul, Int.add_zero, reaches_iff]
  by_cases divides : diff.wholeMonths ∣ monthsBetween start stop
  case neg =>
    rw [if_pos ⟨zero, divides⟩] at computed
    rw [countRight_refused_iff computed]
    refine iff_of_true (fun n _ _ same => ?_)
      ⟨fun _ whole => absurd whole divides, fun none => ?_, fun some => absurd zero some,
      fun some => absurd zero some, fun some => absurd zero some, fun some => absurd zero some⟩
    · exact divides ⟨n, ((leads n).mp same).1.symm⟩
    · omega
  case pos =>
    have whole : diff.wholeMonths * monthSteps start stop diff = monthsBetween start stop :=
      Int.mul_ediv_cancel' divides
    rw [if_neg (fun both => both.2 divides)] at computed
    by_cases fits : monthSteps start stop diff < 2 ^ 31
    case neg =>
      rw [if_pos fits] at computed
      exact iff_of_false (not_countRight_error computed) fun exact => fits (exact.months zero divides).1.1.2
    case pos =>
      rw [if_neg (not_not_intro fits), if_pos zero] at computed
      rw [countRight_counted_iff forward steps computed, leads]
      constructor
      · rintro ⟨multiplies, -, same⟩
        refine ⟨fun _ _ => ⟨multiplies, same⟩, fun none => ?_, fun some => absurd zero some,
          fun some => absurd zero some, fun some => absurd zero some, fun some => absurd zero some⟩
        omega
      · intro exact
        obtain ⟨multiplies, same⟩ := exact.months zero divides
        exact ⟨multiplies, whole, same⟩

/-- The count with a rest alone -/
lemma countExact_rest_iff (lt : start < stop) (forward : Forward diff) (zero : diff.wholeMonths = 0) :
    CountRight start stop diff ↔ CountExact start stop diff := by
  have pos : 0 < diff.restSeconds := by
    have := forward.moves'
    omega
  have computed := compute_eq lt forward
  have none : monthSteps start stop diff = 0 := monthSteps_eq_zero zero
  have left : restLeft start stop diff = stop - start := by
    unfold restLeft
    rw [zero, Int.mul_zero, secondsLeft_eq, Int.sub_zero, time_eq]
  have leads (n : Int) : leadsTo start diff n = stop ↔ diff.restSeconds * n = restLeft start stop diff := by
    unfold leadsTo progression
    rw [zero, Int.zero_mul, Int.add_zero, time_eq, left]
    omega
  rw [if_neg (fun both => Int.ne_of_gt pos both.1), if_neg (not_not_intro (by rw [none]; decide)),
    if_neg (Int.ne_of_gt pos)] at computed
  by_cases divides : diff.restSeconds ∣ restLeft start stop diff
  case neg =>
    rw [if_pos divides] at computed
    rw [countRight_refused_iff computed]
    refine iff_of_true (fun n _ _ same => ?_)
      ⟨fun none => ?_, fun _ whole => absurd whole divides, fun _ some => absurd zero some,
      fun _ some => absurd none some, fun _ some => absurd none some, fun _ some => absurd none some⟩
    · exact divides ⟨n, ((leads n).mp same).symm⟩
    · omega
  case pos =>
    have whole : diff.restSeconds * restSteps start stop diff = restLeft start stop diff := Int.mul_ediv_cancel' divides
    rw [if_neg (not_not_intro divides), if_neg (by omega), if_neg (not_not_intro none)] at computed
    by_cases fits : restSteps start stop diff < 2 ^ 31
    case neg =>
      rw [if_neg fits] at computed
      exact iff_of_false (not_countRight_error computed) fun exact => fits (exact.rest zero divides).1.2
    case pos =>
      rw [if_pos fits] at computed
      have low : 0 ≤ restSteps start stop diff := Int.ediv_nonneg (by omega) (Int.le_of_lt pos)
      rw [countRight_counted_iff forward low computed, leads]
      constructor
      · rintro ⟨multiplies, -⟩
        refine ⟨fun none => ?_, fun _ _ => multiplies, fun _ some => absurd zero some,
          fun _ some => absurd none some, fun _ some => absurd none some, fun _ some => absurd none some⟩
        omega
      · intro exact
        exact ⟨exact.rest zero divides, whole⟩

/-- The count where the months of a step have no place -/
lemma countExact_none_iff (lt : start < stop) (forward : Forward diff) (pos : 0 < diff.wholeMonths)
    (pos' : 0 < diff.restSeconds) (none : monthSteps start stop diff = 0) :
    CountRight start stop diff ↔ CountExact start stop diff := by
  have computed := compute_eq lt forward
  have rest := Int.ne_of_gt pos'
  have left : restLeft start stop diff = stop - start := by
    unfold restLeft
    rw [none, Int.zero_mul, secondsLeft_eq, Int.sub_zero, time_eq]
  have misses (n : Int) (low : 0 ≤ n) : leadsTo start diff n ≠ stop := by
    rcases Int.lt_or_eq_of_le low with more | rfl
    · exact Int.ne_of_gt (months_behind (Int.le_of_lt lt) forward pos (by omega))
    · rw [leadsTo_zero]
      exact Int.ne_of_lt lt
  rw [if_neg (fun both => rest both.1), if_neg (not_not_intro (by rw [none]; decide)), if_neg rest] at computed
  by_cases divides : diff.restSeconds ∣ restLeft start stop diff
  case neg =>
    rw [if_pos divides] at computed
    rw [countRight_refused_iff computed]
    refine iff_of_true (fun n low _ => misses n low)
      ⟨fun zero => absurd zero rest, fun _ whole => absurd whole divides, fun _ _ _ => divides,
      fun _ some => absurd none some, fun _ some => absurd none some, fun _ some => absurd none some⟩
  case pos =>
    rw [if_neg (not_not_intro divides), if_neg (by omega), if_neg (not_not_intro none)] at computed
    refine iff_of_false ?_ fun exact => exact.none rest (Int.ne_of_gt pos) none divides
    by_cases fits : restSteps start stop diff < 2 ^ 31
    case neg =>
      rw [if_neg fits] at computed
      exact not_countRight_error computed
    case pos =>
      rw [if_pos fits] at computed
      have low : 0 ≤ restSteps start stop diff := Int.ediv_nonneg (by omega) (Int.le_of_lt pos')
      rw [countRight_counted_iff forward low computed]
      exact fun both => misses _ low both.2

/-- Where the rest that is left is not the one of so many steps, an error has to be right. -/
lemma countExact_refused_iff (pos : 0 < diff.wholeMonths) (pos' : 0 < diff.restSeconds)
    (some : monthSteps start stop diff ≠ 0) (fits : monthSteps start stop diff < 2 ^ 31)
    (given : computeNumberOfIntervals start stop diff = .ok (-1, true))
    (fitsRest : diff.restSeconds ∣ restLeft start stop diff → restSteps start stop diff < 2 ^ 32)
    (other : restLeft start stop diff ≠ monthSteps start stop diff * diff.restSeconds) :
    CountRight start stop diff ↔ CountExact start stop diff := by
  have rest := Int.ne_of_gt pos'
  have months := Int.ne_of_gt pos
  rw [countRight_refused_iff given]
  constructor
  · intro none
    exact ⟨fun zero => absurd zero rest, fun zero => absurd zero months, fun _ _ none => absurd none some,
      fun _ _ => ⟨fits, fitsRest⟩, fun _ _ same => absurd same other, fun _ _ _ => none⟩
  · intro exact
    exact exact.left rest some other

/-- Where the rest that is left is the one of so many steps, these lead to the end if the months that are taken back
    from it are as long as those from the beginning on. -/
lemma leadsTo_monthSteps_iff (left : restLeft start stop diff = monthSteps start stop diff * diff.restSeconds) :
    leadsTo start diff (monthSteps start stop diff) = stop ↔
      firstDay (monthOf stop) - firstDay (monthOf stop - monthSteps start stop diff * diff.wholeMonths) =
        firstDay (monthOf start + monthSteps start stop diff * diff.wholeMonths) - firstDay (monthOf start) := by
  have split := time_eq start
  have split' := time_eq stop
  unfold restLeft at left
  rw [secondsLeft_eq] at left
  unfold leadsTo progression
  rw [Int.mul_comm diff.wholeMonths, Int.mul_comm diff.restSeconds]
  unfold monthStart at *
  omega

/-- The rest that is left is the one of so many steps where the months and the rests are as many. -/
lemma restLeft_eq_iff (rest : diff.restSeconds ≠ 0) (divides : diff.restSeconds ∣ restLeft start stop diff) :
    restLeft start stop diff = monthSteps start stop diff * diff.restSeconds ↔
      monthSteps start stop diff = restSteps start stop diff := by
  have whole : diff.restSeconds * restSteps start stop diff = restLeft start stop diff := Int.mul_ediv_cancel' divides
  rw [← whole, Int.mul_comm]
  constructor
  · intro same
    exact (Int.eq_of_mul_eq_mul_right rest same).symm
  · intro same
    rw [same]

/-- The count where the months of a step have a place, and there is a rest -/
lemma countExact_both_iff (lt : start < stop) (forward : Forward diff) (pos : 0 < diff.wholeMonths)
    (pos' : 0 < diff.restSeconds) (some : monthSteps start stop diff ≠ 0) :
    CountRight start stop diff ↔ CountExact start stop diff := by
  have computed := compute_eq lt forward
  have steps : 0 ≤ monthSteps start stop diff := monthSteps_nonneg (Int.le_of_lt lt) forward
  have low : 0 ≤ restLeft start stop diff := restLeft_nonneg (Int.le_of_lt lt) diff
  have rest := Int.ne_of_gt pos'
  have months := Int.ne_of_gt pos
  rw [if_neg (fun both => rest both.1)] at computed
  by_cases fits : monthSteps start stop diff < 2 ^ 31
  case neg =>
    rw [if_pos fits] at computed
    exact iff_of_false (not_countRight_error computed) fun exact => fits (exact.fit rest some).1
  case pos =>
    rw [if_neg (not_not_intro fits), if_neg rest] at computed
    by_cases divides : diff.restSeconds ∣ restLeft start stop diff
    case neg =>
      rw [if_pos divides] at computed
      apply countExact_refused_iff pos pos' some fits computed (fun whole => absurd whole divides)
      intro same
      exact divides ⟨monthSteps start stop diff, by rw [same, Int.mul_comm]⟩
    case pos =>
      have same_iff := restLeft_eq_iff rest divides
      rw [if_neg (not_not_intro divides)] at computed
      by_cases zero : restLeft start stop diff = 0
      case pos =>
        rw [if_pos zero, if_pos some] at computed
        have none : restSteps start stop diff = 0 := by
          unfold restSteps
          rw [zero, Int.zero_ediv]
        apply countExact_refused_iff pos pos' some fits computed (fun _ => by omega)
        intro same
        exact some (by rw [same_iff.mp same, none])
      case neg =>
        rw [if_neg zero, if_pos some] at computed
        by_cases fits' : restSteps start stop diff < 2 ^ 32
        case neg =>
          rw [if_neg fits'] at computed
          exact iff_of_false (not_countRight_error computed) fun exact => fits' ((exact.fit rest some).2 divides)
        case pos =>
          rw [if_pos fits'] at computed
          by_cases same : monthSteps start stop diff = restSteps start stop diff
          case neg =>
            rw [if_pos same] at computed
            exact countExact_refused_iff pos pos' some fits computed (fun _ => fits') fun equal =>
              same (same_iff.mp equal)
          case pos =>
            rw [if_neg (not_not_intro same)] at computed
            have left := same_iff.mpr same
            rw [countRight_counted_iff forward steps computed, leadsTo_monthSteps_iff left]
            constructor
            · intro taken
              exact ⟨fun zero => absurd zero rest, fun zero => absurd zero months, fun _ _ none => absurd none some,
                fun _ _ => ⟨fits, fun _ => fits'⟩, fun _ _ _ => taken, fun _ _ other => absurd left other⟩
            · intro exact
              exact exact.taken rest some left

/-- The exact count, for every step -/
lemma countRight_iff (lt : start < stop) (forward : Forward diff) :
    CountRight start stop diff ↔ CountExact start stop diff := by
  have months := forward.wholeMonths_nonneg
  have rest := forward.restSeconds_nonneg
  by_cases zero : diff.restSeconds = 0
  case pos => exact countExact_months_iff lt forward zero
  case neg =>
    by_cases zero' : diff.wholeMonths = 0
    case pos => exact countExact_rest_iff lt forward zero'
    case neg =>
      by_cases none : monthSteps start stop diff = 0
      case pos => exact countExact_none_iff lt forward (by omega) (by omega) none
      case neg => exact countExact_both_iff lt forward (by omega) (by omega) none

/-- What an exact count can be: undefined, an error, or a number that fits. -/
def Fits (result : Except Fault (Int × Bool)) : Prop :=
  (∃ fault, result = .error fault) ∨ result = .ok (-1, true) ∨ ∃ n, 0 ≤ n ∧ n < 2 ^ 31 ∧ result = .ok (n, false)

/-- The exact count is right exactly where it says. -/
theorem compute_right_iff (lt : start < stop) (nonneg : diff.Nonneg) (moves : diff ≠ {}) :
    CountRight start stop diff ↔ CountExact start stop diff :=
  countRight_iff lt (Forward.of_nonneg nonneg moves)

/-- Two months and two days -/
theorem compute_right_months : CountRight 0 5270400 { months := 1, days := 1 } := by
  have later : (0 : Int) < 5270400 := by decide
  refine (compute_right_iff later ⟨?_, ?_, ?_, ?_, ?_, ?_⟩ (by decide)).mpr ⟨?_, ?_, ?_, ?_, ?_, ?_⟩
  rotate_left 11
  · intro _ _ other
    exact absurd (by decide +kernel) other
  all_goals decide +kernel

/-- Less than a month, which is divided by the days of the step, is counted. -/
theorem compute_counts_days :
    ¬ ∀ start stop diff, start < stop → diff.Nonneg → diff ≠ {} → CountRight start stop diff := by
  intro right
  have nonneg : Nonneg { months := 1, days := 1 } := ⟨by decide, by decide, by decide, by decide, by decide, by decide⟩
  have counted : computeNumberOfIntervals 0 172800 { months := 1, days := 1 } = .ok (2, false) := by decide +kernel
  have meets := ((right 0 172800 { months := 1, days := 1 } (by decide) nonneg (by decide)).1 2).mp counted
  obtain ⟨-, -, leads⟩ := meets_iff.mp meets
  revert leads
  decide +kernel

end count
end TimeSequence
end OsterLib.Types
