import Mathlib.Data.Set.Card
import Mathlib.Order.Interval.Finset.Basic
import Mathlib.Data.Int.Interval
import OsterLib.Types.Months

/-!
# Leap days

`number_leap_days` of `types/time_interval.h` against the number of the 29ths of February between two dates, both of
them included. The years of the first date to the one before the second date are counted with the first one, which is
then counted again where its 29th of February is ahead, and not taken back where it is behind: the number is one too
many whenever the first year is a leap year (`numberLeapDays_eq`).
-/

namespace OsterLib.Types
open DateTimeDiff

namespace YearMonthDay

/-- A date of the calendar, in a year of `std::chrono::year` -/
structure Valid (ymd : YearMonthDay) : Prop where
  year_le : ymd.year ≤ 32767
  month : 1 ≤ ymd.month ∧ ymd.month ≤ 12
  day : 1 ≤ ymd.day ∧ ymd.day ≤ getDaysInMonth ymd.year ymd.month

/-- A date is not behind another one. -/
def NotAfter (ymd ymd' : YearMonthDay) : Prop :=
  ymd.year < ymd'.year ∨ ymd.year = ymd'.year ∧
    (ymd.month < ymd'.month ∨ ymd.month = ymd'.month ∧ ymd.day ≤ ymd'.day)

/-- The 29ths of February from one date to another one -/
def leapDaysBetween (ymdFrom ymdTo : YearMonthDay) : Set YearMonthDay :=
  {ymd | ymd.Valid ∧ ymd.month = 2 ∧ ymd.day = 29 ∧ NotAfter ymdFrom ymd ∧ NotAfter ymd ymdTo}

end YearMonthDay

open YearMonthDay

/-- The leap years behind one year up to another one -/
def leapYears (year year' : Int) : Set Int := {other | year < other ∧ other ≤ year' ∧ isLeap other = true}

/-- Between two years there are finitely many leap years. -/
lemma leapYears_finite (year year' : Int) : (leapYears year year').Finite :=
  (Set.finite_Ioc year year').subset fun _ mem => ⟨mem.1, mem.2.1⟩

/-- The leap years up to the next year -/
lemma leapYears_succ {year year' : Int} (le : year ≤ year') :
    leapYears year (year' + 1) =
      if isLeap (year' + 1) then insert (year' + 1) (leapYears year year') else leapYears year year' := by
  ext other
  have apart : other ≠ year' + 1 → (other ≤ year' + 1 ↔ other ≤ year') := by omega
  by_cases last : other = year' + 1
  · subst last
    split
    case isTrue leap => exact iff_of_true ⟨by omega, Int.le_refl _, leap⟩ (Set.mem_insert _ _)
    case isFalse common =>
      exact iff_of_false (fun mem => common mem.2.2) (fun mem => by have le' := mem.2.1; omega)
  · have same : other ∈ leapYears year (year' + 1) ↔ other ∈ leapYears year year' :=
      and_congr_right fun _ => and_congr_left fun _ => apart last
    split
    case isTrue => exact same.trans (Set.mem_insert_iff.trans (or_iff_right last)).symm
    case isFalse => exact same

/-- Leap years are counted by the formula. -/
lemma ncard_leapYears {year year' : Int} (le : year ≤ year') :
    ((leapYears year year').ncard : Int) = leapDays year' - leapDays year := by
  induction year', le using Int.leInduction with
  | base =>
    have none : leapYears year year = ∅ := Set.eq_empty_of_forall_notMem fun other mem => by
      have behind := mem.1
      have upTo := mem.2.1
      omega
    rw [none, Set.ncard_empty, sub_self, Nat.cast_zero]
  | succ year' le ih =>
    have new : year' + 1 ∉ leapYears year year' := fun mem => by
      have upTo := mem.2.1
      omega
    rw [leapYears_succ le, leapDays_succ]
    split
    · rw [Set.ncard_insert_of_notMem new (leapYears_finite year year'), Nat.cast_succ]
      omega
    · omega

/-- The 29th of February of a year is ahead of a date. -/
def leapDayAhead (ymd : YearMonthDay) : Prop := ymd.month < 3

/-- The 29th of February of a year is not behind a date. -/
def leapDayReached (ymd : YearMonthDay) : Prop := 2 < ymd.month ∨ (ymd.month = 2 ∧ ymd.day = 29)

instance (ymd : YearMonthDay) : Decidable (leapDayAhead ymd) := inferInstanceAs (Decidable (_ < _))

instance (ymd : YearMonthDay) : Decidable (leapDayReached ymd) := inferInstanceAs (Decidable (_ ∨ _))

section dates
variable {ymdFrom ymdTo : YearMonthDay}

/-- February has 29 days in a leap year, and 28 otherwise. -/
lemma february (year : Int) : getDaysInMonth year 2 = if isLeap year then 29 else 28 := by
  unfold getDaysInMonth
  cases isLeap year with
  | true => rfl
  | false => rfl

/-- The leap day is a date exactly in leap years. -/
lemma valid_leapDay (year : Int) : Valid ⟨year, 2, 29⟩ ↔ year ≤ 32767 ∧ isLeap year = true := by
  constructor
  · rintro ⟨year_le, -, -, day⟩
    dsimp only at year_le day
    rw [february] at day
    split at day
    case isTrue leap => exact ⟨year_le, leap⟩
    case isFalse => omega
  · rintro ⟨year_le, leap⟩
    refine ⟨year_le, ⟨?_, ?_⟩, ?_⟩
    · show (1 : Int) ≤ 2
      decide
    · show (2 : Int) ≤ 12
      decide
    · dsimp only
      rw [february, if_pos leap]
      decide

/-- No day of February is behind the 29th. -/
lemma YearMonthDay.Valid.day_le (valid : ymdFrom.Valid) (month : ymdFrom.month = 2) : ymdFrom.day ≤ 29 := by
  have day := valid.day.2
  rw [month, february] at day
  split at day <;> omega

/-- A 29th of February is not before the first date from the year on in which one is ahead. -/
lemma notAfter_leapDay_iff (valid : ymdFrom.Valid) (year : Int) :
    NotAfter ymdFrom ⟨year, 2, 29⟩ ↔ ymdFrom.year - (if leapDayAhead ymdFrom then 1 else 0) < year := by
  have short := valid.day_le
  unfold NotAfter
  dsimp only
  by_cases ahead : leapDayAhead ymdFrom
  · rw [if_pos ahead]
    unfold leapDayAhead at ahead
    omega
  · rw [if_neg ahead]
    unfold leapDayAhead at ahead
    omega

/-- A 29th of February is not behind the last date until the year in which one is reached. -/
lemma leapDay_notAfter_iff (valid : ymdTo.Valid) (year : Int) :
    NotAfter ⟨year, 2, 29⟩ ymdTo ↔ year ≤ ymdTo.year - if leapDayReached ymdTo then 0 else 1 := by
  have short := valid.day_le
  unfold NotAfter
  dsimp only
  by_cases reached : leapDayReached ymdTo
  · rw [if_pos reached]
    unfold leapDayReached at reached
    omega
  · rw [if_neg reached]
    unfold leapDayReached at reached
    omega

/-- The 29ths of February are those of the leap years, without the first or the last year where it is behind the first
    date or ahead of the last one. -/
lemma leapDaysBetween_eq (valid : ymdFrom.Valid) (valid' : ymdTo.Valid) :
    leapDaysBetween ymdFrom ymdTo = (fun year => ⟨year, 2, 29⟩) ''
      (leapYears (ymdFrom.year - if leapDayAhead ymdFrom then 1 else 0)
        (ymdTo.year - if leapDayReached ymdTo then 0 else 1)) := by
  have year_le := valid'.year_le
  ext ymd
  simp only [leapDaysBetween, Set.mem_ofPred_eq, Set.mem_image, leapYears]
  constructor
  · rintro ⟨validDay, month, day, start, stop⟩
    obtain ⟨year, month', day'⟩ := ymd
    obtain rfl : month' = 2 := month
    obtain rfl : day' = 29 := day
    obtain ⟨-, leap⟩ := (valid_leapDay year).mp validDay
    exact ⟨year, ⟨(notAfter_leapDay_iff valid year).mp start, (leapDay_notAfter_iff valid' year).mp stop, leap⟩, rfl⟩
  · rintro ⟨year, ⟨behind, until', leap⟩, rfl⟩
    have within : year ≤ 32767 := by
      split at until' <;> omega
    exact ⟨(valid_leapDay year).mpr ⟨within, leap⟩, rfl, rfl, (notAfter_leapDay_iff valid year).mpr behind,
      (leapDay_notAfter_iff valid' year).mpr until'⟩

/-- The number of leap days by those of the years -/
lemma ncard_leapDaysBetween (valid : ymdFrom.Valid) (valid' : ymdTo.Valid) (ordered : NotAfter ymdFrom ymdTo) :
    ((leapDaysBetween ymdFrom ymdTo).ncard : Int) =
      leapDays (ymdTo.year - if leapDayReached ymdTo then 0 else 1) -
        leapDays (ymdFrom.year - if leapDayAhead ymdFrom then 1 else 0) := by
  have short := valid.day_le
  have injective : Function.Injective fun year : Int => (⟨year, 2, 29⟩ : YearMonthDay) := by
    intro year year' same
    exact congrArg YearMonthDay.year same
  rw [leapDaysBetween_eq valid valid', Set.ncard_image_of_injective _ injective, ncard_leapYears]
  unfold NotAfter at ordered
  by_cases ahead : leapDayAhead ymdFrom
  · rw [if_pos ahead]
    split <;> omega
  · rw [if_neg ahead]
    unfold leapDayAhead at ahead
    by_cases reached : leapDayReached ymdTo
    · rw [if_pos reached]
      omega
    · rw [if_neg reached]
      unfold leapDayReached at reached
      omega

/-- The code's divisor 16 is as good as 400 where the year is a multiple of 100. -/
lemma leap_iff (year : Int) : (year % 4 = 0 ∧ (year % 100 ≠ 0 ∨ year % 16 = 0)) ↔ isLeap year = true := by
  rw [isLeap_iff]
  omega

/-- A leap year has added a day to the years before. -/
lemma leapDays_pred (year : Int) : leapDays year = leapDays (year - 1) + if isLeap year then 1 else 0 := by
  have next := leapDays_succ (year - 1)
  rwa [Int.sub_add_cancel] at next

/-- The cut off quotients of years from zero on are those of the leap days. -/
lemma leapCount_eq {year : Int} (nonneg : 0 ≤ year) : year.tdiv 4 - year.tdiv 100 + year.tdiv 400 = leapDays year := by
  unfold leapDays
  rw [Int.tdiv_eq_ediv_of_nonneg nonneg, Int.tdiv_eq_ediv_of_nonneg nonneg, Int.tdiv_eq_ediv_of_nonneg nonneg]

/-- The first end: the leap day of its year is counted where it is ahead, and once more in any case. -/
lemma first_end (ymd : YearMonthDay) :
    -leapDays (ymd.year - 1) + (if isLeap ymd.year = true ∧ leapDayAhead ymd then 1 else 0) =
      -leapDays (ymd.year - if leapDayAhead ymd then 1 else 0) + if isLeap ymd.year then 1 else 0 := by
  have first := leapDays_pred ymd.year
  by_cases ahead : leapDayAhead ymd
  · simp only [ahead, and_true, if_true]
  · simp only [ahead, and_false, if_false]
    rw [Int.sub_zero]
    omega

/-- The last end -/
lemma last_end (ymd : YearMonthDay) :
    leapDays (ymd.year - 1) + (if isLeap ymd.year = true ∧ leapDayReached ymd then 1 else 0) =
      leapDays (ymd.year - if leapDayReached ymd then 0 else 1) := by
  have last := leapDays_pred ymd.year
  by_cases reached : leapDayReached ymd
  · simp only [reached, and_true, if_true]
    rw [Int.sub_zero]
    omega
  · simp only [reached, and_false, if_false]
    omega

/-- The number is one too many where the first year is a leap year. -/
lemma numberLeapDays_eq (valid : ymdFrom.Valid) (valid' : ymdTo.Valid) (low : 1 ≤ ymdFrom.year)
    (ordered : NotAfter ymdFrom ymdTo) :
    numberLeapDays ymdFrom ymdTo =
      (leapDaysBetween ymdFrom ymdTo).ncard + if isLeap ymdFrom.year then 1 else 0 := by
  have years : ymdFrom.year ≤ ymdTo.year := by
    unfold NotAfter at ordered
    omega
  have year_le := valid'.year_le
  have number := ncard_leapDaysBetween valid valid' ordered
  have first := first_end ymdFrom
  have last := last_end ymdTo
  have range : 0 ≤ leapDays (ymdFrom.year - 1) ∧ leapDays (ymdTo.year - 1) < 2 ^ 31 := by
    unfold leapDays
    omega
  have plusOne (c : Prop) [Decidable c] (total : Int) :
      (if c then total + 1 else total) = total + if c then 1 else 0 := by
    split <;> omega
  unfold numberLeapDays
  dsimp only
  rw [leapCount_eq (by omega), leapCount_eq (by omega), plusOne, plusOne]
  simp only [leap_iff]
  change (_ + (if isLeap ymdFrom.year = true ∧ leapDayAhead ymdFrom then 1 else 0) +
    if isLeap ymdTo.year = true ∧ leapDayReached ymdTo then 1 else 0) % 2 ^ 32 = _
  have small : (if isLeap ymdFrom.year then 1 else 0 : Int) ≤ 1 ∧ (0 : Int) ≤ if isLeap ymdFrom.year then 1 else 0 := by
    split <;> decide
  have small' : (if isLeap ymdTo.year = true ∧ leapDayReached ymdTo then 1 else 0 : Int) ≤ 1 := by
    split <;> decide
  have small'' : (if isLeap ymdFrom.year = true ∧ leapDayAhead ymdFrom then 1 else 0 : Int) ≤ 1 := by
    split <;> decide
  omega

/-- The number of leap days is right exactly where the first date is in a common year. -/
theorem numberLeapDays_right_iff (ymdFrom ymdTo : YearMonthDay) (valid : ymdFrom.Valid) (valid' : ymdTo.Valid)
    (low : 1 ≤ ymdFrom.year) (ordered : NotAfter ymdFrom ymdTo) :
    numberLeapDays ymdFrom ymdTo = (leapDaysBetween ymdFrom ymdTo).ncard ↔ isLeap ymdFrom.year = false := by
  rw [numberLeapDays_eq valid valid' low ordered]
  cases isLeap ymdFrom.year with
  | true => simp
  | false => simp

/-- From 1990 to 2100 -/
theorem numberLeapDays_right_century :
    numberLeapDays ⟨1990, 1, 1⟩ ⟨2100, 1, 1⟩ = (leapDaysBetween ⟨1990, 1, 1⟩ ⟨2100, 1, 1⟩).ncard :=
  (numberLeapDays_right_iff _ _ ⟨by decide, by decide, by decide⟩ ⟨by decide, by decide, by decide⟩ (by decide)
    (.inl (by decide))).mpr rfl

/-- A day in January of a leap year -/
theorem numberLeapDays_counts_twice :
    ¬ ∀ ymdFrom ymdTo : YearMonthDay, ymdFrom.Valid → ymdTo.Valid → 1 ≤ ymdFrom.year → NotAfter ymdFrom ymdTo →
      numberLeapDays ymdFrom ymdTo = (leapDaysBetween ymdFrom ymdTo).ncard := by
  intro right
  have one := right ⟨2000, 1, 1⟩ ⟨2000, 1, 1⟩ ⟨by decide, by decide, by decide⟩ ⟨by decide, by decide, by decide⟩
    (by decide) (.inr ⟨rfl, .inr ⟨rfl, by decide⟩⟩)
  have none : leapDaysBetween ⟨2000, 1, 1⟩ ⟨2000, 1, 1⟩ = ∅ := by
    rw [Set.eq_empty_iff_forall_notMem]
    rintro ⟨year, month, day⟩ ⟨-, february, -, start, until'⟩
    unfold NotAfter at start until'
    dsimp only at february start until'
    omega
  rw [none, Set.ncard_empty] at one
  revert one
  decide

end dates

end OsterLib.Types
