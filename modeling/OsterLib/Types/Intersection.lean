import OsterLib.Types.Extend

/-!
# Positions of an interval

`interval_intersection_pos` of `types/time_interval.h`: between which points of a sequence an interval is. The first
index counts the steps from the beginning, and the second one takes the steps until the end off the number of intervals.
The steps may have fields of both signs.

The indices are those of the points of the interval exactly where both counts are right
(`intersectionPos_right_iff`): going back from the end by months may lead elsewhere than going there by months.

`interval_intersection`, the common part of two intervals, compares their ends in the finer precision and constructs it
of nanoseconds first, whatever the precision of both. Each conversion is a product of 64 bits. So it is defined and
right exactly where what is compared and the ends of the common part fit (`PreciseInterval.intersection_right_iff`).
-/

namespace OsterLib.Types
namespace TimeSequence
open DateTimeDiff

/-- `intervals_intersect` -/
def intervalsIntersect (lhsFrom lhsTo rhsFrom rhsTo : Int) : Bool := !(lhsFrom > rhsTo || lhsTo < rhsFrom)

/-- The points from the first one to the one behind the last interval follow each other. -/
def Increasing (s : TimeSequence) : Prop :=
  ∀ number : Nat, number < s.intervals.toNat → s.point number < s.point (number + 1)

/-- When so many steps are counted between two points: their number fits 32 bits. Going back by the months between
    the points is going back by the months of so many steps. Where the step has months alone, there are no others
    between the points, and where it has a rest, too, so many rests are left. -/
structure CountedSteps (start stop : Int) (diff : DateTimeDiff) (count : Int) : Prop where
  fits : count < 2 ^ 31
  months : hasMonths diff = true → (monthsBetween start stop).tdiv diff.wholeMonths = count
  exact : hasMonths diff = true → hasRest diff = false → monthsBetween start stop = count * diff.wholeMonths
  left : hasMonths diff = true → hasRest diff = true → diff.restSeconds ≠ 0 ∧
    secondsLeft start stop (count * diff.wholeMonths) = count * diff.restSeconds

/-! ## Quotients of any sign -/

section quotients
variable {number divisor n : Int}

/-- A quotient is an integer exactly if the division is exact. -/
lemma isInteger_quotient (number : Int) (apart : divisor ≠ 0) (short : |divisor| < 2 ^ 52) :
    isInteger ((number : ℚ) / divisor) = true ↔ divisor ∣ number := by
  have same : isInteger ((number : ℚ) / divisor) = isInteger ((|number| : Int) / (|divisor| : Int)) := by
    unfold isInteger
    rw [Int.cast_abs, Int.cast_abs, ← abs_div, abs_abs]
  rw [same, isInteger_div (abs_nonneg number) (abs_pos.mpr apart) short, abs_dvd_abs]

/-- A quotient is converted to `int32_t` exactly if it fits. -/
lemma castInt32_ok_iff :
    castInt32 (quotient number divisor) = .ok n ↔
      divisor ≠ 0 ∧ number.tdiv divisor = n ∧ -2 ^ 31 ≤ n ∧ n < 2 ^ 31 := by
  unfold quotient castInt32
  by_cases zero : divisor = 0
  · rw [if_pos zero]
    simp [zero]
  · rw [if_neg zero]
    dsimp only
    rw [truncate_quotient number zero]
    split
    case isTrue fits =>
      rw [Except.ok.injEq]
      constructor
      · rintro rfl
        exact ⟨zero, rfl, fits⟩
      · exact fun all => all.2.1
    case isFalse far =>
      constructor
      · intro impossible
        cases impossible
      · rintro ⟨-, rfl, low, high⟩
        exact absurd ⟨low, high⟩ far

/-- The whole months are few, of either sign. -/
lemma wholeMonths_abs (diff : DateTimeDiff) : |diff.wholeMonths| < 2 ^ 52 := by
  have years := Int16.toInt_lt diff.years
  have years' := Int16.le_toInt diff.years
  have months := Int8.toInt_lt diff.months
  have months' := Int8.le_toInt diff.months
  unfold wholeMonths
  rw [abs_lt]
  omega

/-- A rest is not longer than 128 days, hours, minutes and seconds. -/
lemma restSeconds_abs (diff : DateTimeDiff) : |diff.restSeconds| ≤ 11527808 := by
  have days := Int8.toInt_lt diff.days
  have days' := Int8.le_toInt diff.days
  have hours := Int8.toInt_lt diff.hours
  have hours' := Int8.le_toInt diff.hours
  have minutes := Int8.toInt_lt diff.minutes
  have minutes' := Int8.le_toInt diff.minutes
  have seconds := Int8.toInt_lt diff.seconds
  have seconds' := Int8.le_toInt diff.seconds
  unfold restSeconds
  rw [abs_le]
  omega

/-- What a count of rests gives with a count of months. -/
def Reconciled (n c m : Int) : Prop :=
  (c = 0 ∧ n = 0 ∧ m = 0) ∨ (c ≠ 0 ∧ n ≠ 0 ∧ m = n ∧ n % 2 ^ 32 = c) ∨
    (c ≠ 0 ∧ n = 0 ∧ m = c ∧ -2 ^ 31 ≤ c ∧ c < 2 ^ 31)

/-- A whole number is converted to `uint32_t` exactly if it fits. -/
lemma castUInt32_intCast (c : Int) :
    castUInt32 (c : ℚ) = if 0 ≤ c ∧ c < 2 ^ 32 then .ok c else .error .undefinedConversion := by
  unfold castUInt32
  rw [truncate_intCast]

/-- A whole number is converted to `int32_t` exactly if it fits. -/
lemma castInt32_intCast (c : Int) :
    castInt32 (some (c : ℚ)) = if -2 ^ 31 ≤ c ∧ c < 2 ^ 31 then .ok c else .error .undefinedConversion := by
  unfold castInt32
  dsimp only
  rw [truncate_intCast]

/-- A number without an error is that number. -/
lemma ok_false_iff (n m : Int) : (Except.ok (n, false) : Except Fault (Int × Bool)) = .ok (m, false) ↔ n = m := by
  rw [Except.ok.injEq, Prod.mk.injEq, eq_self, and_true]

/-- A number with an error is none without. -/
lemma ok_true_ne (n m : Int) : (Except.ok (n, true) : Except Fault (Int × Bool)) ≠ .ok (m, false) := by
  intro impossible
  cases impossible

/-- A fault is no number. -/
lemma error_ne (fault : Fault) (m : Int) : (Except.error fault : Except Fault (Int × Bool)) ≠ .ok (m, false) := by
  intro impossible
  cases impossible

/-- A count is reconciled with a whole quotient. -/
lemma reconcile_intCast (n c m : Int) : reconcile n (some (c : ℚ)) = .ok (m, false) ↔ Reconciled n c m := by
  unfold reconcile Reconciled
  simp only [isInteger_intCast, Int.cast_eq_zero, castUInt32_intCast, castInt32_intCast, Bool.not_true,
    Bool.false_eq_true, if_false]
  by_cases zero : c = 0
  · rw [if_pos zero]
    split
    · exact iff_of_false (ok_true_ne _ m) (by omega)
    · rw [ok_false_iff]
      omega
  · rw [if_neg zero]
    by_cases still : n = 0
    · rw [if_neg (not_not_intro still)]
      split
      · exact (ok_false_iff c m).trans (by omega)
      · exact iff_of_false (error_ne _ m) (by omega)
    · rw [if_pos still]
      split
      · show Except.ok (if n % 2 ^ 32 ≠ c then (-1, true) else (n, false)) = _ ↔ _
        split
        · exact iff_of_false (ok_true_ne _ m) (by omega)
        · rw [ok_false_iff]
          omega
      · exact iff_of_false (error_ne _ m) (by omega)

/-- A count is reconciled exactly if the seconds are divided exactly. -/
lemma reconcile_ok_iff {n left rest m : Int} (short : |rest| < 2 ^ 52) :
    reconcile n (quotient left rest) = .ok (m, false) ↔ rest ≠ 0 ∧ ∃ c, left = c * rest ∧ Reconciled n c m := by
  unfold quotient
  by_cases zero : rest = 0
  · rw [if_pos zero]
    simp [zero, reconcile]
  · rw [if_neg zero]
    have apart : (rest : ℚ) ≠ 0 := Int.cast_ne_zero.mpr zero
    by_cases divides : rest ∣ left
    · obtain ⟨c, rfl⟩ := divides
      have count : ((rest * c : Int) : ℚ) / rest = c := by
        rw [Int.cast_mul, mul_div_cancel_left₀ _ apart]
      rw [count, reconcile_intCast]
      constructor
      · intro reconciled
        exact ⟨zero, c, Int.mul_comm _ _, reconciled⟩
      · rintro ⟨-, c', same, reconciled⟩
        rw [Int.mul_comm] at same
        rwa [Int.eq_of_mul_eq_mul_right zero same]
    · have broken := mt (isInteger_quotient left zero short).mp divides
      rw [Bool.not_eq_true] at broken
      constructor
      · unfold reconcile
        dsimp only
        rw [broken]
        intro impossible
        cases impossible
      · rintro ⟨-, c, same, -⟩
        exact absurd ⟨c, by rw [same, Int.mul_comm]⟩ divides

end quotients

/-! ## The count between two points -/

section count
variable {start stop count m : Int} {diff : DateTimeDiff}

/-- What is counted without a rest: whole steps between the points, if their number fits. -/
lemma compute_months_iff (lt : start < stop) (moves : diff ≠ {}) (rest : hasRest diff = false) :
    computeNumberOfIntervals start stop diff = .ok (m, false) ↔
      diff.wholeMonths ≠ 0 ∧ monthsBetween start stop = m * diff.wholeMonths ∧ -2 ^ 31 ≤ m ∧ m < 2 ^ 31 := by
  have months := hasMonths_of_noRest moves rest
  unfold computeNumberOfIntervals
  dsimp only
  rw [if_pos lt, if_pos lt, if_neg (Int.ne_of_lt lt), if_neg moves, months, rest]
  by_cases zero : diff.wholeMonths = 0
  · have none : quotient (monthsBetween start stop) diff.wholeMonths = none := if_pos zero
    rw [none]
    constructor
    · intro impossible
      cases impossible
    · exact fun all => absurd zero all.1
  have whole : (quotient (monthsBetween start stop) diff.wholeMonths).any isInteger = true ↔
      diff.wholeMonths ∣ monthsBetween start stop := by
    unfold quotient
    rw [if_neg zero]
    exact isInteger_quotient _ zero (wholeMonths_abs diff)
  have cast : castMonths start stop diff = castInt32 (quotient (monthsBetween start stop) diff.wholeMonths) :=
    if_pos months
  by_cases divides : diff.wholeMonths ∣ monthsBetween start stop
  · rw [whole.mpr divides, if_neg (show ¬ ((true && !false && !true) = true) by decide), cast]
    obtain ⟨c, total⟩ := divides
    have exact : (monthsBetween start stop).tdiv diff.wholeMonths = m ↔
        monthsBetween start stop = m * diff.wholeMonths := by
      rw [total, Int.mul_tdiv_cancel_left c zero, Int.mul_comm, Int.mul_eq_mul_right_iff zero]
    rw [← exact, ← castInt32_ok_iff]
    cases castInt32 (quotient (monthsBetween start stop) diff.wholeMonths) with
    | error fault => exact iff_of_false (error_ne fault m) (fun impossible => by cases impossible)
    | ok n =>
      rw [Except.ok.injEq]
      exact ok_false_iff n m
  · rw [← whole, Bool.not_eq_true] at divides
    rw [divides, if_pos (show (true && !false && !false) = true by decide)]
    refine iff_of_false (ok_true_ne _ m) ?_
    rintro ⟨-, total, -⟩
    rw [whole.mpr ⟨m, by rw [total, Int.mul_comm]⟩] at divides
    cases divides

/-- What is counted with a rest: the months and the rests behind them, as they are reconciled. -/
lemma compute_rest_iff (lt : start < stop) (moves : diff ≠ {}) (rest : hasRest diff = true) :
    computeNumberOfIntervals start stop diff = .ok (m, false) ↔
      ∃ n, castMonths start stop diff = .ok n ∧ diff.restSeconds ≠ 0 ∧
        ∃ c, secondsLeft start stop (n * diff.wholeMonths) = c * diff.restSeconds ∧ Reconciled n c m := by
  unfold computeNumberOfIntervals
  dsimp only
  rw [if_pos lt, if_pos lt, if_neg (Int.ne_of_lt lt), if_neg moves, rest, Bool.not_true, Bool.and_false,
    Bool.false_and, if_neg Bool.false_ne_true]
  cases castMonths start stop diff with
  | error fault =>
    constructor
    · intro impossible
      cases impossible
    · rintro ⟨n, impossible, -⟩
      cases impossible
  | ok n =>
    have short : |diff.restSeconds| < 2 ^ 52 := lt_of_le_of_lt (restSeconds_abs diff) (by norm_num)
    simp only [Except.ok.injEq, exists_eq_left']
    exact reconcile_ok_iff short

/-- No months are taken off. -/
lemma secondsLeft_zero (start stop : Int) : secondsLeft start stop 0 = stop - start := by
  have split := time_eq stop
  rw [secondsLeft_eq, Int.sub_zero]
  omega

/-- Counted steps are what is returned. Without months, the rests have to lead from one point to the other. -/
lemma CountedSteps.compute (counted : CountedSteps start stop diff count) (lt : start < stop) (moves : diff ≠ {})
    (pos : 0 < count)
    (still : hasMonths diff = false → diff.restSeconds ≠ 0 ∧ stop - start = count * diff.restSeconds) :
    computeNumberOfIntervals start stop diff = .ok (count, false) := by
  obtain ⟨fits, months, exact, left⟩ := counted
  have apart : hasMonths diff = true → diff.wholeMonths ≠ 0 := by
    intro has zero
    have none := months has
    rw [zero, Int.tdiv_zero] at none
    omega
  cases rest : hasRest diff with
  | true =>
    rw [compute_rest_iff lt moves rest]
    cases has : hasMonths diff with
    | true =>
      obtain ⟨rests, left⟩ := left has rest
      refine ⟨count, ?_, rests, count, left, .inr (.inl ⟨by omega, by omega, rfl, by omega⟩)⟩
      unfold castMonths
      rw [if_pos has, castInt32_ok_iff]
      exact ⟨apart has, months has, by omega, fits⟩
    | false =>
      obtain ⟨rests, total⟩ := still has
      refine ⟨0, ?_, rests, count, ?_, .inr (.inr ⟨by omega, rfl, rfl, by omega, fits⟩)⟩
      · unfold castMonths
        rw [has, if_neg Bool.false_ne_true]
      · rw [Int.zero_mul, secondsLeft_zero, total]
  | false =>
    have has := hasMonths_of_noRest moves rest
    rw [compute_months_iff lt moves rest]
    exact ⟨apart has, exact has rest, by omega, fits⟩

end count

/-! ## Counts of steps -/

/-- So many months from one place on are as long as so many from another one only where they are as many. -/
lemma span_inj {number number' months months' : Int}
    (same : firstDay (number + months) - firstDay number = firstDay (number' + months') - firstDay number') :
    months = months' := by
  rcases Int.lt_trichotomy months months' with less | equal | more
  · have := span_lt number number' less
    omega
  · exact equal
  · have := span_lt number' number more
    omega

/-- A day of a month of 31 days is in a month or in the one behind it. -/
lemma monthOf_near {number time : Int} (low : 0 ≤ time) (high : time < 86400 * 31) :
    number ≤ monthOf (monthStart number + time) ∧ monthOf (monthStart number + time) ≤ number + 1 := by
  have split := time_eq (monthStart number + time)
  have range := timeOfMonth_range (monthStart number + time)
  have next := monthStart_succ (monthOf (monthStart number + time))
  have second := monthStart_succ (number + 1)
  have first := monthStart_succ number
  have short := monthLength_low number
  have short' := monthLength_low (number + 1)
  rw [Int.add_assoc] at second
  constructor
  · by_contra before
    have := monthStart_le (show monthOf (monthStart number + time) + 1 ≤ number by omega)
    omega
  · by_contra behind
    have := monthStart_le (show number + (1 + 1) ≤ monthOf (monthStart number + time) by omega)
    omega

section steps
variable {first x start stop count m : Int} {diff : DateTimeDiff}

/-- What is left between two points, when months are taken off the second one, by the months between the points. -/
lemma secondsLeft_steps (here : leadsTo first diff x = start) (there : leadsTo first diff (x + count) = stop)
    (months : Int) :
    secondsLeft start stop months = count * diff.restSeconds +
      (monthStart (monthOf first + diff.wholeMonths * x + diff.wholeMonths * count) -
        monthStart (monthOf first + diff.wholeMonths * x)) -
      (monthStart (monthOf stop - months + months) - monthStart (monthOf stop - months)) := by
  have split := time_eq stop
  unfold leadsTo progression at here there
  rw [Int.mul_add, Int.mul_add, ← Int.add_assoc (monthOf first)] at there
  rw [secondsLeft_eq, Int.sub_add_cancel, Int.mul_comm count]
  omega

/-- Where as many rests are left as there are steps, the months of as many steps were taken off. -/
lemma months_of_left (here : leadsTo first diff x = start) (there : leadsTo first diff (x + count) = stop)
    {months : Int}
    (left : secondsLeft start stop months = count * diff.restSeconds) : months = diff.wholeMonths * count := by
  rw [secondsLeft_steps here there] at left
  unfold monthStart at left
  symm
  refine @span_inj (monthOf first + diff.wholeMonths * x) (monthOf stop - months) _ _ ?_
  omega

/-- Without months the seconds between two points are a multiple of the step. -/
lemma stop_of_still (still : diff.wholeMonths = 0) (here : leadsTo first diff x = start)
    (there : leadsTo first diff (x + count) = stop) : stop - start = count * diff.restSeconds := by
  have steps := secondsLeft_steps here there 0
  rw [secondsLeft_zero, still] at steps
  simp only [Int.zero_mul, Int.add_zero, Int.sub_zero, Int.sub_self] at steps
  omega

/-- With months alone, the months between two points are no more than two off those of the steps. -/
lemma monthsBetween_near (none : diff.restSeconds = 0) (here : leadsTo first diff x = start)
    (there : leadsTo first diff (x + count) = stop) :
    -2 ≤ monthsBetween start stop - diff.wholeMonths * count ∧
      monthsBetween start stop - diff.wholeMonths * count ≤ 1 := by
  obtain ⟨low, high⟩ := timeOfMonth_range first
  have long := monthLength_high (monthOf first)
  unfold leadsTo progression at here there
  rw [none, Int.zero_mul, Int.add_zero] at here there
  rw [Int.mul_add, ← Int.add_assoc] at there
  have near := @monthOf_near (monthOf first + diff.wholeMonths * x) _ low (by omega)
  have near' := @monthOf_near (monthOf first + diff.wholeMonths * x + diff.wholeMonths * count) _ low (by omega)
  rw [here] at near
  rw [there] at near'
  rw [monthsBetween_eq]
  split <;> omega

/-- Points with fewer than nine months between them are fewer than 2³¹ seconds apart. -/
lemma seconds_of_few (few : monthsBetween start stop < 9) : stop - start < 2 ^ 31 := by
  have before := mt (@reaches_le_iff start stop 9).mp (by omega)
  have split := time_eq start
  have near := firstDay_near (monthOf start)
  have near' := firstDay_near (monthOf start + 9)
  unfold monthStart at before split
  omega

/-- A step whose months are taken back for the most part by its rest has no more than nine of them. -/
lemma few_months {months rest days : Int} (large : 2 ^ 31 ≤ count) (short : -11527808 ≤ rest)
    (longer : 28 * (months * count) ≤ days) (back : 86400 * days = -(2 ^ 32 * rest)) : months < 10 := by
  by_contra many
  have := Int.mul_le_mul_of_nonneg_right (Int.not_lt.mp many) (show 0 ≤ count by omega)
  omega

/-- The rests of 2³² steps fewer are not the time between two points: the steps would have months that are taken back
    for the most part, so that there are few between the points, but there is a second for every step. -/
lemma not_wrapped (here : leadsTo first diff x = start) (there : leadsTo first diff (x + count) = stop)
    (far : count ≤ stop - start) (large : 2 ^ 31 ≤ count) (small : count < 2 ^ 32)
    (none : (monthsBetween start stop).tdiv diff.wholeMonths = 0) :
    stop - start ≠ (count - 2 ^ 32) * diff.restSeconds := by
  intro wrapped
  have short := abs_le.mp (restSeconds_abs diff)
  have between := monthsBetween_nonneg (show start ≤ stop by omega)
  have steps := secondsLeft_steps here there 0
  rw [secondsLeft_zero, Int.sub_zero, Int.add_zero, Int.sub_self, Int.sub_zero, wrapped, Int.sub_mul] at steps
  have back : diff.restSeconds < 0 := by
    by_contra nonneg
    have := Int.mul_nonpos_of_nonpos_of_nonneg (show count - 2 ^ 32 ≤ 0 by omega) (Int.not_lt.mp nonneg)
    omega
  -- the months lead forward, and a step has no more than nine of them
  have forward : 0 < diff.wholeMonths * count := by
    by_contra nonpos
    have := monthStart_le (show monthOf first + diff.wholeMonths * x + diff.wholeMonths * count ≤
      monthOf first + diff.wholeMonths * x by omega)
    omega
  have days := firstDay_le (show monthOf first + diff.wholeMonths * x ≤
    monthOf first + diff.wholeMonths * x + diff.wholeMonths * count by omega)
  unfold monthStart at steps
  have few : diff.wholeMonths < 10 := by
    rw [add_sub_cancel_left] at days
    exact few_months large short.1 (Int.le_sub_left_of_add_le days) (by omega)
  have pos : 0 < diff.wholeMonths := Int.pos_of_mul_pos_left forward (by omega)
  have less : monthsBetween start stop < diff.wholeMonths := by
    rw [Int.tdiv_eq_ediv_of_nonneg between] at none
    have below := Int.lt_ediv_add_one_mul_self (monthsBetween start stop) pos
    rwa [none, Int.zero_add, Int.one_mul] at below
  have near := seconds_of_few (show monthsBetween start stop < 9 by omega)
  exact absurd (Int.le_trans large far) (Int.not_le.mpr near)

/-- Without a rest, a count that differs by a multiple of 2³² from the number of steps is this number. -/
lemma counted_of_months (here : leadsTo first diff x = start) (there : leadsTo first diff (x + count) = stop)
    (lt : start < stop) (moves : diff ≠ {}) (rest : hasRest diff = false)
    (given : computeNumberOfIntervals start stop diff = .ok (m, false)) (same : (m - count) % 2 ^ 32 = 0) :
    CountedSteps start stop diff count := by
  obtain ⟨apart, total, low, high⟩ := (compute_months_iff lt moves rest).mp given
  have none : diff.restSeconds = 0 := restSeconds_of_none rest
  have near := monthsBetween_near none here there
  obtain ⟨wraps, wraps_eq⟩ := Int.dvd_of_emod_eq_zero same
  have apart' : monthsBetween start stop - diff.wholeMonths * count = 2 ^ 32 * (wraps * diff.wholeMonths) := by
    rw [total, show m = count + 2 ^ 32 * wraps by omega]
    ring
  have wrapsNot : wraps = 0 := (Int.mul_eq_zero.mp (show wraps * diff.wholeMonths = 0 by omega)).resolve_right apart
  obtain rfl : m = count := by omega
  refine ⟨high, fun _ => ?_, fun _ _ => total, fun _ impossible => ?_⟩
  · rw [total, Int.mul_tdiv_cancel _ apart]
  · rw [rest] at impossible
    cases impossible

/-- Without months, the rests are counted as they are. -/
lemma counted_of_rests {c : Int} (here : leadsTo first diff x = start) (there : leadsTo first diff (x + count) = stop)
    (pos : 0 < count) (small : count < 2 ^ 32) (has : hasMonths diff = false) (rests : diff.restSeconds ≠ 0)
    (left : secondsLeft start stop 0 = c * diff.restSeconds) (reconciled : Reconciled 0 c m)
    (same : (m - count) % 2 ^ 32 = 0) : CountedSteps start stop diff count := by
  have total := stop_of_still (wholeMonths_of_still has) here there
  rw [secondsLeft_zero, total] at left
  obtain rfl : count = c := Int.eq_of_mul_eq_mul_right rests left
  refine ⟨?_, fun impossible => ?_, fun impossible => ?_, fun impossible => ?_⟩
  · unfold Reconciled at reconciled
    omega
  · rw [has] at impossible
    cases impossible
  · rw [has] at impossible
    cases impossible
  · rw [has] at impossible
    cases impossible

/-- With months and rests, both are as many as the steps. -/
lemma both_counted {n c : Int} (here : leadsTo first diff x = start) (there : leadsTo first diff (x + count) = stop)
    (far : count ≤ stop - start) (pos : 0 < count) (small : count < 2 ^ 32) (apart : diff.wholeMonths ≠ 0)
    (steps : (monthsBetween start stop).tdiv diff.wholeMonths = n)
    (left : secondsLeft start stop (n * diff.wholeMonths) = c * diff.restSeconds) (reconciled : Reconciled n c m)
    (same : (m - count) % 2 ^ 32 = 0) : n = count ∧ c = count := by
  rcases reconciled with ⟨-, -, zero⟩ | ⟨-, -, rfl, wraps⟩ | ⟨-, rfl, rfl, low', high'⟩
  · omega
  · obtain rfl : c = count := by omega
    have back := months_of_left here there left
    rw [Int.mul_comm] at back
    exact ⟨Int.eq_of_mul_eq_mul_left apart back, rfl⟩
  · rw [Int.zero_mul] at left
    rcases (show m = count ∨ m = count - 2 ^ 32 by omega) with rfl | rfl
    · have back := Int.mul_eq_zero.mp (months_of_left here there left).symm
      omega
    · rw [secondsLeft_zero] at left
      exact absurd left (not_wrapped here there far (by omega) small steps)

/-- A count that differs by a multiple of 2³² from the number of steps is this number. -/
lemma counted_of_compute (here : leadsTo first diff x = start) (there : leadsTo first diff (x + count) = stop)
    (far : count ≤ stop - start) (pos : 0 < count) (small : count < 2 ^ 32) (moves : diff ≠ {})
    (given : computeNumberOfIntervals start stop diff = .ok (m, false)) (same : (m - count) % 2 ^ 32 = 0) :
    CountedSteps start stop diff count := by
  cases rest : hasRest diff with
  | false => exact counted_of_months here there (by omega) moves rest given same
  | true =>
    obtain ⟨n, cast, rests, c, left, reconciled⟩ := (compute_rest_iff (by omega) moves rest).mp given
    unfold castMonths at cast
    cases has : hasMonths diff with
    | false =>
      rw [has, if_neg Bool.false_ne_true] at cast
      obtain rfl : 0 = n := Except.ok.inj cast
      rw [Int.zero_mul] at left
      exact counted_of_rests here there pos small has rests left reconciled same
    | true =>
      rw [if_pos has, castInt32_ok_iff] at cast
      obtain ⟨apart, steps, low, high⟩ := cast
      obtain ⟨rfl, rfl⟩ := both_counted here there far pos small apart steps left reconciled same
      refine ⟨high, fun _ => steps, fun _ impossible => ?_, fun _ _ => ⟨rests, left⟩⟩
      rw [rest] at impossible
      cases impossible

end steps

/-! ## Positions -/

section positions
variable {s : TimeSequence} {i j : Nat}

/-- There is a second for every step. -/
lemma Increasing.le (increasing : s.Increasing) (le : i ≤ j) (within : j ≤ s.intervals.toNat) :
    (j - i : Int) ≤ leadsTo s.start s.duration j - leadsTo s.start s.duration i := by
  induction j, le using Nat.le_induction with
  | base => omega
  | succ j le ih =>
    have before := ih (by omega)
    have next : leadsTo s.start s.duration j < leadsTo s.start s.duration (j + 1) := by
      rw [← point_eq, ← point_eq]
      exact increasing j (by omega)
    push_cast
    omega

/-- Increasing points have a step that moves. -/
lemma Increasing.moves (increasing : s.Increasing) (some : 1 ≤ s.intervals.toNat) : s.duration ≠ {} := by
  intro still
  have next := increasing 0 some
  unfold point at next
  rw [still, pointOf_still, pointOf_still] at next
  exact Int.lt_irrefl _ next

/-- Counted steps between two points are what is returned. -/
lemma Increasing.given (increasing : s.Increasing) (lt : i < j) (within : j ≤ s.intervals.toNat)
    (counted : CountedSteps (s.point i) (s.point j) s.duration (j - i)) :
    computeNumberOfIntervals (s.point i) (s.point j) s.duration = .ok ((j - i : Int), false) := by
  have far := increasing.le (Nat.le_of_lt lt) within
  have there : leadsTo s.start s.duration (i + (j - i : Int)) = leadsTo s.start s.duration j := by
    rw [add_sub_cancel]
  rw [point_eq, point_eq] at counted ⊢
  refine counted.compute (by omega) (increasing.moves (by omega)) (by omega) ?_
  intro still
  have total := stop_of_still (wholeMonths_of_still still) rfl there
  refine ⟨?_, total⟩
  intro zero
  rw [zero, Int.mul_zero] at total
  omega

/-- What is returned as the number of steps between two points, or as one that is the same in 32 bits, is counted. -/
lemma Increasing.counted (increasing : s.Increasing) (lt : i < j) (within : j ≤ s.intervals.toNat) {count : Int}
    (given : computeNumberOfIntervals (s.point i) (s.point j) s.duration = .ok (count, false))
    (same : (count - (j - i)) % 2 ^ 32 = 0) : CountedSteps (s.point i) (s.point j) s.duration (j - i) := by
  have small := s.intervals.toNat_lt
  have far := increasing.le (Nat.le_of_lt lt) within
  have there : leadsTo s.start s.duration (i + (j - i : Int)) = leadsTo s.start s.duration j := by
    rw [add_sub_cancel]
  rw [point_eq, point_eq] at given ⊢
  exact counted_of_compute rfl there far (by omega) (by omega) (increasing.moves (by omega)) given same

end positions

end TimeSequence

/-! ## The common part of two intervals -/

/-- The unit in which the ends of an interval are counted -/
inductive Precision where
  | nanoseconds
  | microseconds
  | milliseconds
  | seconds
  | minutes
  | hours
  | days
  deriving DecidableEq, Repr

/-- The nanoseconds of a unit -/
def Precision.nanos : Precision → Nat
  | nanoseconds => 1
  | microseconds => 10 ^ 3
  | milliseconds => 10 ^ 6
  | seconds => 10 ^ 9
  | minutes => 60 * 10 ^ 9
  | hours => 3600 * 10 ^ 9
  | days => 86400 * 10 ^ 9

/-- The finer one of two precisions, that of the result -/
def Precision.finer (p q : Precision) : Precision := if p.nanos < q.nanos then p else q

/-- How many of the units of the finer precision a unit has -/
def Precision.units (p r : Precision) : Int := p.nanos / r.nanos

/-- A count of 64 bits -/
def Fits64 (count : Int) : Prop := -2 ^ 63 ≤ count ∧ count < 2 ^ 63

instance (count : Int) : Decidable (Fits64 count) := inferInstanceAs (Decidable (_ ∧ _))

/-- `__time_interval__` of a precision. The constructor sorts its ends. -/
structure PreciseInterval (p : Precision) where
  start : Int64
  stop : Int64
  ordered : start.toInt ≤ stop.toInt

namespace PreciseInterval
variable {p q : Precision}

/-- The conversion of a count to a finer precision, where it is defined -/
def convert (p r : Precision) (count : Int64) : Option Int :=
  if Fits64 (count.toInt * p.units r) then some (count.toInt * p.units r) else none

/-- Two time points are converted to the finer one of their precisions to be compared. -/
def common (p q : Precision) (x y : Int64) : Option (Int × Int) := do
  let x ← convert p (p.finer q) x
  let y ← convert q (p.finer q) y
  return (x, y)

/-- `intervals_intersect`. The second comparison is only made where the first one is false. -/
def intervalsIntersect (lhs : PreciseInterval p) (rhs : PreciseInterval q) : Option Bool := do
  let (start, stop) ← common p q lhs.start rhs.stop
  if start > stop then return false
  else
    let (stop, start) ← common p q lhs.stop rhs.start
    return !(stop < start)

/-- `time_point_cast` to nanoseconds, where it is defined -/
def toNanos (r : Precision) (count : Int) : Option Int :=
  if Fits64 (count * r.nanos) then some (count * r.nanos) else none

/-- An interval of nanoseconds, which is the default, and its cast to a precision. The constructor sorts the ends. -/
def ofEnds (r : Precision) (start stop : Int) : Option (Int × Int) := do
  let first ← toNanos r (if start ≤ stop then start else stop)
  let last ← toNanos r (if stop ≥ start then stop else start)
  return (first.tdiv r.nanos, last.tdiv r.nanos)

/-- `interval_intersection`, in the finer one of both precisions. The outer `Option` is for what is undefined. -/
def intersection (lhs : PreciseInterval p) (rhs : PreciseInterval q) : Option (Option (Int × Int)) := do
  if ← lhs.intervalsIntersect rhs then
    let (start, start') ← common p q lhs.start rhs.start
    let (stop, stop') ← common p q lhs.stop rhs.stop
    let interval ← ofEnds (p.finer q) (if start < start' then start' else start) (if stop < stop' then stop else stop')
    return some interval
  else return none

/-- The time is in the interval, in nanoseconds. -/
def Has (i : PreciseInterval p) (time : Int) : Prop :=
  i.start.toInt * p.nanos ≤ time ∧ time ≤ i.stop.toInt * p.nanos

/-- A time point has 64 bits in a finer precision. -/
def FitsAs (p r : Precision) (count : Int64) : Prop := Fits64 (count.toInt * p.units r)

instance (p r : Precision) (count : Int64) : Decidable (FitsAs p r count) := inferInstanceAs (Decidable (Fits64 _))

/-- What is compared has 64 bits in the finer precision: the begin of the first interval and the end of the second one,
    and the other two ends unless these are apart. The ends of the common part have 64 bits in nanoseconds. -/
structure Defined (lhs : PreciseInterval p) (rhs : PreciseInterval q) : Prop where
  outer : FitsAs p (p.finer q) lhs.start ∧ FitsAs q (p.finer q) rhs.stop
  inner : lhs.start.toInt * p.nanos ≤ rhs.stop.toInt * q.nanos →
    FitsAs p (p.finer q) lhs.stop ∧ FitsAs q (p.finer q) rhs.start
  ends : (∃ time, lhs.Has time ∧ rhs.Has time) →
    Fits64 (max (lhs.start.toInt * p.nanos) (rhs.start.toInt * q.nanos)) ∧
      Fits64 (min (lhs.stop.toInt * p.nanos) (rhs.stop.toInt * q.nanos))

section intersection
variable {r : Precision} {start stop : Int} {lhs : PreciseInterval p} {rhs : PreciseInterval q}

/-- A unit of a precision has nanoseconds. -/
lemma nanos_pos (p : Precision) : (0 : Int) < p.nanos := by
  cases p with
  | _ => decide

/-- A unit is a whole number of those of the finer precision. -/
lemma units_mul (p q : Precision) :
    p.units (p.finer q) * (p.finer q).nanos = p.nanos ∧ q.units (p.finer q) * (p.finer q).nanos = q.nanos := by
  cases p <;> cases q <;> decide

/-- Both are converted exactly if they fit. -/
lemma common_eq (p q : Precision) (x y : Int64) :
    common p q x y = if FitsAs p (p.finer q) x ∧ FitsAs q (p.finer q) y then
      some (x.toInt * p.units (p.finer q), y.toInt * q.units (p.finer q)) else none := by
  unfold common convert
  by_cases first : FitsAs p (p.finer q) x
  case neg =>
    rw [if_neg (show ¬ Fits64 _ from first), if_neg (not_and_of_not_left _ first)]
    rfl
  case pos =>
    rw [if_pos (show Fits64 _ from first)]
    by_cases second : FitsAs q (p.finer q) y
    case neg =>
      rw [if_neg (show ¬ Fits64 _ from second), if_neg (not_and_of_not_right _ second)]
      rfl
    case pos =>
      rw [if_pos (show Fits64 _ from second), if_pos ⟨first, second⟩]
      rfl

/-- The ends are cast to nanoseconds and back exactly if they fit. -/
lemma ofEnds_ordered (r : Precision) (ordered : start ≤ stop) :
    ofEnds r start stop = if Fits64 (start * r.nanos) ∧ Fits64 (stop * r.nanos) then some (start, stop) else none := by
  have back (count : Int) : (count * r.nanos).tdiv r.nanos = count :=
    Int.mul_tdiv_cancel count (Int.ne_of_gt (nanos_pos r))
  unfold ofEnds toNanos
  rw [if_pos ordered, if_pos ordered]
  by_cases first : Fits64 (start * r.nanos)
  case neg =>
    rw [if_neg first, if_neg (not_and_of_not_left _ first)]
    rfl
  case pos =>
    rw [if_pos first]
    by_cases last : Fits64 (stop * r.nanos)
    case neg =>
      rw [if_neg last, if_neg (not_and_of_not_right _ last)]
      rfl
    case pos =>
      rw [if_pos last, if_pos ⟨first, last⟩]
      change some (_, _) = _
      rw [back, back]

/-- What is returned, by the ends in the finer precision -/
lemma intersection_eq (lhs : PreciseInterval p) (rhs : PreciseInterval q) {start start' stop stop' : Int}
    (atStart : lhs.start.toInt * p.units (p.finer q) = start) (atStop : lhs.stop.toInt * p.units (p.finer q) = stop)
    (atStart' : rhs.start.toInt * q.units (p.finer q) = start')
    (atStop' : rhs.stop.toInt * q.units (p.finer q) = stop') :
    lhs.intersection rhs =
      if Fits64 start ∧ Fits64 stop' then
        if start ≤ stop' then
          if Fits64 stop ∧ Fits64 start' then
            if start' ≤ stop then (ofEnds (p.finer q) (max start start') (min stop stop')).map some else some none
          else none
        else some none
      else none := by
  have last : (if stop < stop' then stop else stop') = min stop stop' := by omega
  have first : (if start < start' then start' else start) = max start start' := by omega
  unfold intersection intervalsIntersect
  simp only [common_eq, FitsAs, atStart, atStop, atStart', atStop']
  by_cases outer : Fits64 start ∧ Fits64 stop'
  case neg => rw [if_neg outer, if_neg outer]; rfl
  case pos =>
    rw [if_pos outer, if_pos outer]
    simp only [bind, Option.bind]
    by_cases apart : start ≤ stop'
    case neg => rw [if_pos (by omega), if_neg apart]; rfl
    case pos =>
      rw [if_neg (by omega), if_pos apart]
      by_cases inner : Fits64 stop ∧ Fits64 start'
      case neg => rw [if_neg inner, if_neg inner]
      case pos =>
        rw [if_pos inner, if_pos inner]
        by_cases meet : start' ≤ stop
        case neg =>
          have before : stop < start' := by omega
          simp only [before, decide_true, Bool.not_true, if_neg meet]
          rfl
        case pos =>
          have after : ¬ stop < start' := by omega
          have both : Fits64 start ∧ Fits64 start' := ⟨outer.1, inner.2⟩
          have both' : Fits64 stop ∧ Fits64 stop' := ⟨inner.1, outer.2⟩
          simp only [after, decide_false, Bool.not_false, if_pos both, if_pos both', if_pos meet, first, last]
          cases ofEnds (p.finer q) (max start start') (min stop stop') with
          | none => rfl
          | some interval => rfl

/-- Counts of the finer precision are in the order of their nanoseconds. -/
lemma nanos_le (r : Precision) {count other : Int} : count * r.nanos ≤ other * r.nanos ↔ count ≤ other :=
  Int.mul_le_mul_right (nanos_pos r)

/-- The larger count has the larger nanoseconds. -/
lemma max_nanos (r : Precision) (count other : Int) :
    max (count * r.nanos) (other * r.nanos) = max count other * (r.nanos : Int) :=
  (max_mul_of_nonneg count other (nanos_pos r).le).symm

/-- The smaller count has the smaller nanoseconds. -/
lemma min_nanos (r : Precision) (count other : Int) :
    min (count * r.nanos) (other * r.nanos) = min count other * (r.nanos : Int) :=
  (min_mul_of_nonneg count other (nanos_pos r).le).symm

/-- A time is in both intervals if it is between the larger begin and the smaller end. -/
lemma between_iff {a b c d time : Int} :
    (a ≤ time ∧ time ≤ b) ∧ (c ≤ time ∧ time ≤ d) ↔ max a c ≤ time ∧ time ≤ min b d := by
  omega

/-- What is returned has exactly the times of both intervals. -/
def Right (lhs : PreciseInterval p) (rhs : PreciseInterval q) (shared : Option (Int × Int)) : Prop :=
  ∀ time, (∃ i ∈ shared, i.1 * (p.finer q).nanos ≤ time ∧ time ≤ i.2 * (p.finer q).nanos) ↔
    lhs.Has time ∧ rhs.Has time

section ends
variable {a b c d : Int} (atStart : lhs.start.toInt * p.units (p.finer q) = a)
  (atStop : lhs.stop.toInt * p.units (p.finer q) = b) (atStart' : rhs.start.toInt * q.units (p.finer q) = c)
  (atStop' : rhs.stop.toInt * q.units (p.finer q) = d)
include atStart atStop atStart' atStop'

/-- The ends have the nanoseconds of their counts in the finer precision. -/
lemma ends_nanos :
    (lhs.start.toInt * p.nanos = a * (p.finer q).nanos ∧ lhs.stop.toInt * p.nanos = b * (p.finer q).nanos) ∧
      rhs.start.toInt * q.nanos = c * (p.finer q).nanos ∧ rhs.stop.toInt * q.nanos = d * (p.finer q).nanos := by
  obtain ⟨left, right⟩ := units_mul p q
  subst atStart atStop atStart' atStop'
  simp only [Int.mul_assoc, left, right, and_self]

/-- The times of both intervals are between the larger begin and the smaller end. -/
lemma has_iff (time : Int) :
    lhs.Has time ∧ rhs.Has time ↔
      max a c * (p.finer q).nanos ≤ time ∧ time ≤ min b d * (p.finer q).nanos := by
  obtain ⟨⟨start, stop⟩, start', stop'⟩ := ends_nanos atStart atStop atStart' atStop'
  unfold Has
  rw [start, stop, start', stop', between_iff, max_nanos, min_nanos]

/-- The intervals share a time if the larger begin is not after the smaller end. -/
lemma shares_iff : (∃ time, lhs.Has time ∧ rhs.Has time) ↔ max a c ≤ min b d := by
  simp only [has_iff atStart atStop atStart' atStop']
  rw [← nanos_le (p.finer q)]
  exact ⟨fun ⟨_, after, before⟩ => after.trans before, fun le => ⟨_, le, le_rfl⟩⟩

/-- What `Defined` asks of the counts in the finer precision -/
lemma defined_iff :
    lhs.Defined rhs ↔ (Fits64 a ∧ Fits64 d) ∧ (a ≤ d → Fits64 b ∧ Fits64 c) ∧
      (max a c ≤ min b d → Fits64 (max a c * (p.finer q).nanos) ∧ Fits64 (min b d * (p.finer q).nanos)) := by
  have shares := shares_iff atStart atStop atStart' atStop'
  obtain ⟨⟨start, stop⟩, start', stop'⟩ := ends_nanos atStart atStop atStart' atStop'
  have defined : lhs.Defined rhs ↔ _ := ⟨fun ⟨outer, inner, ends⟩ => And.intro outer (And.intro inner ends),
    fun ⟨outer, inner, ends⟩ => ⟨outer, inner, ends⟩⟩
  rw [defined, shares, start, stop, start', stop', nanos_le, max_nanos, min_nanos]
  unfold FitsAs
  rw [atStart, atStop, atStart', atStop']

/-- The ends of an interval are in order in the finer precision. -/
lemma ends_ordered : a ≤ b ∧ c ≤ d := by
  obtain ⟨⟨start, stop⟩, start', stop'⟩ := ends_nanos atStart atStop atStart' atStop'
  constructor
  · rw [← nanos_le (p.finer q), ← start, ← stop, nanos_le]
    exact lhs.ordered
  · rw [← nanos_le (p.finer q), ← start', ← stop', nanos_le]
    exact rhs.ordered

/-- If it is defined, the common part or nothing is returned. -/
lemma intersection_defined (defined : lhs.Defined rhs) :
    lhs.intersection rhs = some (if max a c ≤ min b d then some (max a c, min b d) else none) := by
  obtain ⟨outer, inner, ends⟩ := (defined_iff atStart atStop atStart' atStop').mp defined
  obtain ⟨ordered, ordered'⟩ := ends_ordered atStart atStop atStart' atStop'
  rw [intersection_eq lhs rhs atStart atStop atStart' atStop', if_pos outer]
  by_cases apart : a ≤ d
  case neg => rw [if_neg apart, if_neg (by omega)]
  case pos =>
    rw [if_pos apart, if_pos (inner apart)]
    by_cases meet : c ≤ b
    case neg => rw [if_neg meet, if_neg (by omega)]
    case pos =>
      have share : max a c ≤ min b d := by omega
      rw [if_pos meet, ofEnds_ordered _ share, if_pos (ends share), if_pos share]
      rfl

/-- Nothing is returned unless it is defined. -/
lemma defined_of_intersection {shared : Option (Int × Int)} (returned : lhs.intersection rhs = some shared) :
    lhs.Defined rhs := by
  rw [defined_iff atStart atStop atStart' atStop']
  rw [intersection_eq lhs rhs atStart atStop atStart' atStop'] at returned
  by_cases outer : Fits64 a ∧ Fits64 d
  case neg =>
    rw [if_neg outer] at returned
    cases returned
  case pos =>
    rw [if_pos outer] at returned
    refine ⟨outer, fun apart => ?_, fun share => ?_⟩
    · rw [if_pos apart] at returned
      by_contra inner
      rw [if_neg inner] at returned
      cases returned
    · rw [if_pos (by omega)] at returned
      by_cases inner : Fits64 b ∧ Fits64 c
      case neg =>
        rw [if_neg inner] at returned
        cases returned
      case pos =>
        rw [if_pos inner, if_pos (by omega), ofEnds_ordered _ share] at returned
        by_contra ends
        rw [if_neg ends] at returned
        cases returned

end ends

/-- `interval_intersection` is defined exactly if what it compares and converts has 64 bits, and it then returns exactly
    the times of both intervals. -/
theorem intersection_right_iff (lhs : PreciseInterval p) (rhs : PreciseInterval q) :
    (∃ shared, lhs.intersection rhs = some shared ∧ lhs.Right rhs shared) ↔ lhs.Defined rhs := by
  refine ⟨fun ⟨shared, returned, _⟩ => defined_of_intersection rfl rfl rfl rfl returned, fun defined => ?_⟩
  refine ⟨_, intersection_defined rfl rfl rfl rfl defined, fun time => ?_⟩
  rw [has_iff rfl rfl rfl rfl]
  split
  case isTrue => simp only [Option.mem_def, Option.some.injEq, exists_eq_left']
  case isFalse none =>
    rw [← nanos_le (p.finer q)] at none
    simp only [Option.mem_def, reduceCtorEq, false_and, exists_false, false_iff]
    exact fun ⟨after, before⟩ => none (after.trans before)

/-- Three days and ten seconds of the second one share its end. -/
example : (PreciseInterval.mk (p := .days) 0 2 (by decide)).intersection
    (PreciseInterval.mk (p := .seconds) 86400 86410 (by decide)) =
    some (some (86400, 86410)) := by
  decide

/-- Days from the year 1 to 2500 are not compared with nanoseconds, which are too many for 64 bits. -/
example : (PreciseInterval.mk (p := .days) (-719162) 193579 (by decide)).intersection
    (PreciseInterval.mk (p := .nanoseconds) 946684800000000000 946771200000000000 (by decide)) = none := by
  decide

end intersection
end PreciseInterval
end OsterLib.Types
