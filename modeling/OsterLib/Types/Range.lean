import OsterLib.Types.Bound

/-!
# Sequences that are made from ranges

`make_from_range` of `types/time_interval.h` pushes the times of a range, one behind the other. Its step is what the
division gives between the first time and the one that is pushed, and is inferred again as long as it is zero. Every
further time is taken if its difference to the one before, by the other way to compare times, is the step.

The points of the sequence are the times that are taken exactly under the conditions of `makeFromRange_right_iff`.
-/

namespace OsterLib.Types
namespace TimeSequence
open DateTimeDiff

/-! ## What is represented -/

/-- The division between two times is defined, and its years fit. -/
def Divided (start stop : Int) : Prop := Divides start stop ∧ (Near start stop ∨ yearsLeft start stop < 2 ^ 15)

/-- The step that it gives: within a month, the days between them. -/
def stepBetween (start stop : Int) : DateTimeDiff :=
  if Near start stop then { days := .ofInt (floorDays stop - floorDays start) } else fieldsLeft start stop

/-- The months of that step -/
def stepMonths (start stop : Int) : Int :=
  if Near start stop then 0 else 12 * yearsLeft start stop + monthsLeft start stop

/-- The comparison of a time with the one before is defined. -/
def Comparable (last time : Int) : Prop := yearsApart last time < 2 ^ 15

/-- It gives the step. -/
def Repeats (step : DateTimeDiff) (last time : Int) : Prop := Comparable last time ∧ Fields last time step

instance (step : DateTimeDiff) (last time : Int) : Decidable (Repeats step last time) :=
  decidable_of_iff (yearsApart last time < 2 ^ 15 ∧
      step.years.toInt = yearsApart last time - (if monthsApart last time < 0 then 1 else 0) ∧
      step.months.toInt = (if monthsApart last time < 0 then
        monthsApart last time + 12 - if daysApart last time < 0 then 1 else 0 else monthsApart last time) ∧
      step.days.toInt = daysApart last time + (if daysApart last time < 0 then monthLength (monthOf last) else 0) ∧
      step.hours.toInt = (time % 86400 - last % 86400).tdiv 3600 ∧
      step.minutes.toInt = (time % 3600 - last % 3600).tdiv 60 ∧ step.seconds.toInt = time % 60 - last % 60)
    ⟨fun ⟨fits, years, months, days, hours, minutes, seconds⟩ => ⟨fits, years, months, days, hours, minutes, seconds⟩,
      fun ⟨fits, years, months, days, hours, minutes, seconds⟩ => ⟨fits, years, months, days, hours, minutes, seconds⟩⟩

/-- The comparisons that are made are defined: all until the first one that does not give the step. -/
def Compared (step : DateTimeDiff) (last : Int) : List Int → Prop
  | [] => True
  | time :: series => Comparable last time ∧ (Repeats step last time → Compared step time series)

/-- How many times follow whose comparison gives the step. -/
def repeated (step : DateTimeDiff) (last : Int) : List Int → Nat
  | [] => 0
  | time :: series => if Repeats step last time then repeated step time series + 1 else 0

/-- The step leads to the second time: within a month, the times of day are equal, and otherwise, a month that is taken
    back is as long as the first one. -/
def LeadsSecond (first second : Int) : Prop :=
  if Near first second then second % 86400 = first % 86400
  else daysApart first second < 0 → monthLength (monthOf second - 1) = monthLength (monthOf first)

/-- All times follow the step between the first two. -/
def Whole (first : Int) : List Int → Prop
  | [] => True
  | second :: series => repeated (stepBetween first second) second series = series.length

section range
variable {first second last time : Int} {series : List Int} {s s' : TimeSequence} {step : DateTimeDiff}
variable {consumed consumed' : Nat} {number : Int} {err err' : Bool}

/-! ## The first step -/

/-- What is left of a difference of a month or more are the fields of its step. -/
lemma fieldsLeft_spec (lt : first < second) (days : 0 ≤ daysLeft first second) (months : 0 ≤ monthsLeft first second)
    (few : yearsLeft first second < 2 ^ 15) :
    (fieldsLeft first second).wholeMonths = 12 * yearsLeft first second + monthsLeft first second ∧
      (fieldsLeft first second).restSeconds = 86400 * daysLeft first second + timeLeft first second := by
  have years := yearsLeft_nonneg (Int.le_of_lt lt)
  have month := monthsLeft_range first second
  have day := daysLeft_range first second
  have timed := timeLeft_range first second
  obtain ⟨hour, minute, second'⟩ := clock_toInt timed.1 timed.2
  unfold fieldsLeft wholeMonths restSeconds
  dsimp only
  rw [Int16.toInt_ofInt_of_le (by omega) few, toInt_ofInt8 (by omega) (by omega), toInt_ofInt8 (by omega) (by omega),
    hour, minute, second']
  omega

/-- Both together are the months and the seconds between the times, where a month may be taken back. -/
lemma left_eq (first second : Int) :
    12 * yearsLeft first second + monthsLeft first second =
        monthOf second - monthOf first - (if daysApart first second < 0 then 1 else 0) ∧
      86400 * daysLeft first second + timeLeft first second = timeOfMonth second - timeOfMonth first +
        if daysApart first second < 0 then 86400 * monthLength (monthOf first) else 0 := by
  have range := monthsApart_range first second
  have apart := monthOf_sub first second
  have days : daysApart first second = dayOf second - dayOf first := rfl
  constructor
  · unfold yearsLeft monthsLeft
    split_ifs <;> omega
  · unfold daysLeft timeLeft timeOfMonth
    split_ifs <;> omega

/-- What the division leaves, a month or more apart, is not negative. -/
lemma Divided.left (divided : Divided first second) (far : ¬ Near first second) :
    0 ≤ daysLeft first second ∧ 0 ≤ monthsLeft first second ∧ yearsLeft first second < 2 ^ 15 := by
  obtain ⟨divides, near | few⟩ := divided
  · exact absurd near far
  · unfold Divides at divides
    rw [if_neg far, ← left_iff] at divides
    exact ⟨divides.1, divides.2, few⟩

/-- The days between two times within a month fit. -/
lemma near_days (lt : first < second) (near : Near first second) :
    0 ≤ floorDays second - floorDays first ∧ (Int8.ofInt (floorDays second - floorDays first)).toInt =
      floorDays second - floorDays first := by
  have later := floorDays_le (Int.le_of_lt lt)
  have long := monthLength_high (monthOf first)
  unfold Near at near
  exact ⟨by omega, toInt_ofInt8 (by omega) (by omega)⟩

/-- The months of the step are those that are said. -/
lemma Divided.wholeMonths_eq (divided : Divided first second) (lt : first < second) :
    (stepBetween first second).wholeMonths = stepMonths first second := by
  unfold stepBetween stepMonths
  by_cases near : Near first second
  case pos =>
    rw [if_pos near, if_pos near]
    rfl
  case neg =>
    obtain ⟨days, months, few⟩ := divided.left near
    rw [if_neg near, if_neg near, (fieldsLeft_spec lt days months few).1]

/-- Within a month, the rest of the step is days. -/
lemma restSeconds_near (lt : first < second) (near : Near first second) :
    (stepBetween first second).restSeconds = 86400 * (floorDays second - floorDays first) := by
  unfold stepBetween restSeconds
  rw [if_pos near]
  dsimp only
  rw [(near_days lt near).2, Int8.toInt_zero]
  omega

/-- Otherwise, it is what is left. -/
lemma Divided.restSeconds_far (divided : Divided first second) (lt : first < second) (far : ¬ Near first second) :
    (stepBetween first second).restSeconds = 86400 * daysLeft first second + timeLeft first second := by
  obtain ⟨days, months, few⟩ := divided.left far
  unfold stepBetween
  rw [if_neg far, (fieldsLeft_spec lt days months few).2]

/-- Where the step leads from the first time. -/
lemma Divided.leads_iff (divided : Divided first second) (lt : first < second) :
    pointOf first (stepBetween first second) 1 = second ↔ LeadsSecond first second := by
  have split := time_eq first
  have split' := time_eq second
  have months := divided.wholeMonths_eq lt
  rw [pointOf_eq]
  unfold progression LeadsSecond
  change @Eq Int _ _ ↔ _
  rw [Int.mul_one, Int.mul_one, months]
  by_cases near : Near first second
  case pos =>
    rw [if_pos near, restSeconds_near lt near]
    unfold stepMonths floorDays
    rw [if_pos near, Int.add_zero]
    omega
  case neg =>
    obtain ⟨same, left⟩ := left_eq first second
    have before := monthStart_succ (monthOf second - 1)
    rw [Int.sub_add_cancel] at before
    rw [if_neg near, divided.restSeconds_far lt near, left]
    unfold stepMonths
    rw [if_neg near, same]
    by_cases behind : daysApart first second < 0
    case pos =>
      rw [if_pos behind, if_pos behind, add_sub_assoc', add_sub_cancel]
      simp only [behind, true_imp_iff]
      omega
    case neg =>
      rw [if_neg behind, if_neg behind, Int.sub_zero, add_sub_cancel]
      simp only [behind, false_imp_iff, iff_true]
      omega

/-! ## The comparisons -/

end range
end TimeSequence
end OsterLib.Types
