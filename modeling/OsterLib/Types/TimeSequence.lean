import OsterLib.Lib.Post
import OsterLib.Types.DateTimeDiff

/-!
# Sequences of time points

`TimeSequence` of `types/time_interval.h`: its points by `operator[]`, and what builds a sequence point by point.
`operator[]` multiplies the fields of the step in `int`, and leads where the step does by numbers of any size exactly
where these products fit (`indexOf_eq_ok_iff`).
-/

namespace OsterLib.Types
open DateTimeDiff Lib

/-- The time points are whole seconds, and the two ends are in order. -/
structure TimeSequence where
  start : Seconds
  stop : Seconds
  duration : DateTimeDiff := {}
  intervals : UInt32 := 0
  deriving DecidableEq, Repr

namespace TimeSequence

/-- The constructor of one time point -/
def single (time : Seconds) : TimeSequence := { start := time, stop := time }

/-- The constructor of two ends and a number of intervals -/
def ofIntervals (start stop : Seconds) (intervals : UInt32) (err : Bool) : Except Fault (TimeSequence × Bool) :=
  match divided start stop intervals err with
  | .error fault => .error fault
  | .ok (duration, err) =>
    let wrong : Bool := (intervals = 0 && start ≠ stop) || (0 < intervals && start = stop)
    .ok ({ start := min start stop, stop := max start stop, duration, intervals }, err || wrong)

/-- A number that `int` holds -/
def FitsInt32 (number : Int) : Prop := -2 ^ 31 ≤ number ∧ number < 2 ^ 31

instance (number : Int) : Decidable (FitsInt32 number) := inferInstanceAs (Decidable (_ ∧ _))

/-- The conversion to `int` -/
def toInt32 (number : Int) : Int := number.bmod (2 ^ 32)

/-- The product of two `int`s -/
def product (field number : Int) : Except Fault Int :=
  if FitsInt32 (field * number) then .ok (field * number) else .error .overflow

/-- `operator[]`, from the beginning and the step of a sequence on. The number is converted to `int`, and every field is
    multiplied by it in `int`, before the units are put together in 64 bits. -/
def indexOf (first : Seconds) (step : DateTimeDiff) (number : Int) : Except Fault Seconds := do
  let number := toInt32 number
  let years ← product step.years.toInt number
  let months ← product step.months.toInt number
  let days ← product step.days.toInt number
  let hours ← product step.hours.toInt number
  let minutes ← product step.minutes.toInt number
  let seconds ← product step.seconds.toInt number
  let date := sysDays (((yearMonthDay (floorDays first)).addYears years).addMonths months) + days
  let time := timeOfDay first + 3600 * hours + 60 * minutes + seconds
  return 86400 * date + time

/-- `operator[]` -/
def index (s : TimeSequence) (number : Int) : Except Fault Seconds := indexOf s.start s.duration number

/-- The points from the first one to the one behind the last interval. -/
def points (s : TimeSequence) : Except Fault (List Seconds) :=
  (List.range (s.intervals.toNat + 1)).mapM fun number : Nat => s.index number

/-- Where a number of steps leads, in numbers of any size: the point that `operator[]` names where its products fit. -/
def pointOf (first : Seconds) (step : DateTimeDiff) (number : Int) : Seconds :=
  let moved := ((yearMonthDay (floorDays first)).addYears (step.years.toInt * number)).addMonths
    (step.months.toInt * number)
  let date := sysDays moved + step.days.toInt * number
  let time := timeOfDay first + 3600 * (step.hours.toInt * number) + 60 * (step.minutes.toInt * number) +
    step.seconds.toInt * number
  86400 * date + time

/-- Where a number of steps of a sequence leads. -/
def point (s : TimeSequence) (number : Int) : Seconds := pointOf s.start s.duration number

/-- The number, and every field times the number, are kept by `int`. -/
def Multiplies (step : DateTimeDiff) (number : Int) : Prop :=
  FitsInt32 number ∧ ∀ field ∈ step.fields, FitsInt32 (field * number)

instance (step : DateTimeDiff) (number : Int) : Decidable (Multiplies step number) :=
  inferInstanceAs (Decidable (_ ∧ _))

/-- `push_time_after`, with the new sequence, what it returns, and the error code. -/
def pushTimeAfter (s : TimeSequence) (time : Seconds) (err : Bool) : Except Fault (TimeSequence × Bool × Bool) :=
  if s.stop < time then
    if s.duration = {} then
      match ofIntervals s.start time 1 err with
      | .error fault => .error fault
      | .ok (tmp, err) => if err then .ok (s, false, err) else .ok (tmp, true, err)
    else
      match between s.stop time with
      | .error fault => .error fault
      | .ok diff =>
        if diff = s.duration then
          .ok ({ s with start := min s.start time, stop := max s.start time, intervals := s.intervals + 1 }, true, err)
        else .ok (s, false, err)
  else .ok (s, false, err)

section point
variable {first time : Seconds} {step : DateTimeDiff} {number number' : Int} {s s' : TimeSequence} {err err' : Bool}

/-- The first point is where the points begin. -/
lemma pointOf_zero (first : Seconds) (step : DateTimeDiff) : pointOf first step 0 = first := by
  have date : (yearMonthDay (floorDays first)).addYears 0 = yearMonthDay (floorDays first) := by
    unfold YearMonthDay.addYears
    rw [Int.add_zero]
  obtain ⟨low, high⟩ := yearMonthDay_month (floorDays first)
  unfold pointOf
  simp only [Int.mul_zero, Int.add_zero]
  rw [date, YearMonthDay.addMonths_zero low high, sysDays_yearMonthDay]
  exact Int.mul_ediv_add_emod first 86400

/-- Without a step all points are the first one. -/
lemma pointOf_still (first : Seconds) (number : Int) : pointOf first {} number = first := by
  have still := pointOf_zero first {}
  unfold pointOf at still ⊢
  have zero16 : (0 : Int16).toInt = 0 := rfl
  have zero8 : (0 : Int8).toInt = 0 := rfl
  simp only [zero16, zero8, Int.zero_mul, Int.mul_zero] at still ⊢
  exact still

/-- A sequence begins at the point of no step. -/
lemma point_zero (s : TimeSequence) : s.point 0 = s.start := pointOf_zero s.start s.duration

/-! ## Where the products fit -/

/-- A number that `int` holds is kept by the conversion. -/
lemma toInt32_of_fits (fits : FitsInt32 number) : toInt32 number = number := by
  unfold FitsInt32 at fits
  exact Int.bmod_eq_of_le_mul_two (by omega) (by omega)

/-- The conversion gives a number that `int` holds. -/
lemma fits_toInt32 (number : Int) : FitsInt32 (toInt32 number) := by
  have low := Int.le_bmod (x := number) (m := 2 ^ 32) (by decide)
  have high := Int.bmod_lt (x := number) (m := 2 ^ 32) (by decide)
  unfold FitsInt32 toInt32
  omega

/-- A product that fits is what it is in numbers of any size. -/
lemma product_eq_ok_iff {field product' : Int} :
    product field number = .ok product' ↔ FitsInt32 (field * number) ∧ field * number = product' := by
  unfold product
  split
  case isTrue fits => simp [fits]
  case isFalse far => simp [far]

/-- `operator[]` leads where as many steps do as the number is converted to, exactly if its products fit. -/
lemma indexOf_converted_iff : indexOf first step number = .ok time ↔
    Multiplies step (toInt32 number) ∧ pointOf first step (toInt32 number) = time := by
  have kept := fits_toInt32 number
  unfold indexOf Multiplies DateTimeDiff.fields
  simp only [bind_eq_ok_iff, product_eq_ok_iff, List.forall_mem_cons]
  constructor
  · rintro ⟨_, ⟨years, rfl⟩, _, ⟨months, rfl⟩, _, ⟨days, rfl⟩, _, ⟨hours, rfl⟩, _, ⟨minutes, rfl⟩, _,
      ⟨seconds, rfl⟩, given⟩
    exact ⟨⟨kept, years, months, days, hours, minutes, seconds, nofun⟩, Except.ok.inj given⟩
  · rintro ⟨⟨-, years, months, days, hours, minutes, seconds, -⟩, rfl⟩
    exact ⟨_, ⟨years, rfl⟩, _, ⟨months, rfl⟩, _, ⟨days, rfl⟩, _, ⟨hours, rfl⟩, _, ⟨minutes, rfl⟩, _,
      ⟨seconds, rfl⟩, rfl⟩

/-- `operator[]` leads where the step does, exactly if its products fit. -/
lemma indexOf_eq_ok_iff (fits : FitsInt32 number) :
    indexOf first step number = .ok time ↔ Multiplies step number ∧ pointOf first step number = time := by
  rw [indexOf_converted_iff, toInt32_of_fits fits]

/-- `operator[]` of a sequence leads where its step does, exactly if its products fit. -/
lemma index_eq_ok_iff (fits : FitsInt32 number) :
    s.index number = .ok time ↔ Multiplies s.duration number ∧ s.point number = time := indexOf_eq_ok_iff fits

/-- Where the products fit, they do for every smaller number. -/
lemma Multiplies.of_le (multiplies : Multiplies step number) (low : 0 ≤ number') (le : number' ≤ number) :
    Multiplies step number' := by
  obtain ⟨fits, products⟩ := multiplies
  unfold FitsInt32 at fits products
  refine ⟨⟨by omega, by omega⟩, fun field mem => ?_⟩
  have product := products field mem
  unfold FitsInt32
  rcases Int.le_total 0 field with sign | sign
  · have more := Int.mul_le_mul_of_nonneg_left le sign
    have nonneg := Int.mul_nonneg sign low
    omega
  · have less := Int.mul_le_mul_of_nonpos_left sign le
    have nonpos := Int.mul_nonpos_of_nonpos_of_nonneg sign low
    omega

/-- The points are those that the steps lead to, exactly if all products fit. -/
lemma points_eq_ok_iff {times : List Seconds} : s.points = .ok times ↔
    (∀ i ≤ s.intervals.toNat, Multiplies s.duration (toInt32 i)) ∧
      ((List.range (s.intervals.toNat + 1)).map fun i : Nat => s.point (toInt32 i)) = times := by
  have known (i : Nat) (time : Seconds) (given : s.index i = .ok time) : s.point (toInt32 i) = time :=
    (indexOf_converted_iff.mp given).2
  unfold points
  rw [mapM_eq_ok_iff known]
  refine and_congr_left fun _ => ?_
  simp only [List.mem_range, Nat.lt_succ_iff]
  refine forall₂_congr fun i _ => ?_
  unfold index
  rw [indexOf_converted_iff]
  exact and_iff_left rfl

/-- Where the products fit for the last point, the points are those that the steps lead to. -/
lemma points_of_multiplies (multiplies : Multiplies s.duration s.intervals.toNat) :
    s.points = .ok ((List.range (s.intervals.toNat + 1)).map fun i : Nat => s.point i) := by
  have all (i : Nat) (le : i ≤ s.intervals.toNat) : Multiplies s.duration i :=
    multiplies.of_le (Int.natCast_nonneg i) (Int.ofNat_le.mpr le)
  refine points_eq_ok_iff.mpr ⟨fun i le => ?_, List.map_congr_left fun i mem => ?_⟩
  · rw [toInt32_of_fits (all i le).1]
    exact all i le
  · rw [toInt32_of_fits (all i (Nat.lt_succ_iff.mp (List.mem_range.mp mem))).1]

/-! ## Points that are pushed -/

end point
end TimeSequence
end OsterLib.Types
