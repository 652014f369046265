import OsterLib.Json.Settings

/-!
# Construction of periods

The constructor of `TimePeriod` in `types/time_period.cpp`.

Each of its blocks assigns what it carries to the larger units, where it should add it: their own counts are lost.
`timePeriod_preserves_iff` says when nothing is lost.
-/

namespace OsterLib.Types
open OsterLib.Json (TimePeriod)

namespace TimePeriod

/-! ## The constructor -/

/-- The block of the seconds -/
def carrySeconds (p : TimePeriod) : TimePeriod :=
  if 0 < p.seconds then
    if 59 < p.seconds then
      { p with
        days := p.seconds / 86400
        hours := p.seconds % 86400 / 3600
        minutes := p.seconds % 86400 % 3600 / 60
        seconds := p.seconds % 86400 % 3600 % 60 }
    else p
  else p

/-- The block of the minutes -/
def carryMinutes (p : TimePeriod) : TimePeriod :=
  if 0 < p.minutes then
    if 60 ≤ p.minutes then
      { p with
        days := p.minutes / 1440
        hours := p.minutes % 1440 / 60
        minutes := p.minutes % 1440 % 60 }
    else p
  else p

/-- The block of the hours -/
def carryHours (p : TimePeriod) : TimePeriod :=
  if 0 < p.hours then
    if 24 ≤ p.hours then { p with days := p.hours / 24, hours := p.hours % 24 } else p
  else p

/-- The constructor of `TimePeriod` -/
def timePeriod (y mo d h m s : Int64) : TimePeriod :=
  carryHours (carryMinutes (carrySeconds
    { years := y, months := mo, days := d, hours := h, minutes := m, seconds := s }))

/-! ## What the blocks keep -/

/-- The seconds that days, hours, minutes and seconds add up to -/
def total (p : TimePeriod) : Int :=
  86400 * p.days.toInt + 3600 * p.hours.toInt + 60 * p.minutes.toInt + p.seconds.toInt

/-- Hours, minutes and seconds are no more than what their unit is divided into. -/
structure Normal (p : TimePeriod) : Prop where
  hours : 0 ≤ p.hours.toInt ∧ p.hours.toInt < 24
  minutes : 0 ≤ p.minutes.toInt ∧ p.minutes.toInt < 60
  seconds : 0 ≤ p.seconds.toInt ∧ p.seconds.toInt < 60

/-- What the constructor should keep: years and months, and the duration of the other counts, which become normal. -/
structure Preserves (p q : TimePeriod) : Prop where
  years : q.years = p.years
  months : q.months = p.months
  total : total q = total p
  normal : Normal q

section blocks
variable {p : TimePeriod}

/-- Division of counts that are not negative is exact. -/
lemma toInt_div {x k : Int64} {n : Int} (literal : k.toInt = n) (pos : 0 < n) (nonneg : 0 ≤ x.toInt) :
    (x / k).toInt = x.toInt / n := by
  rw [Int64.toInt_div_of_ne_right, Int.tdiv_eq_ediv_of_nonneg nonneg, literal]
  rintro rfl
  rw [← literal] at pos
  exact absurd pos (by decide)

/-- Remainders of counts that are not negative are exact. -/
lemma toInt_mod {x k : Int64} {n : Int} (literal : k.toInt = n) (pos : 0 < n) (nonneg : 0 ≤ x.toInt) :
    (x % k).toInt = x.toInt % n ∧ 0 ≤ (x % k).toInt := by
  rw [Int64.toInt_mod, Int.tmod_eq_emod_of_nonneg nonneg, literal]
  exact ⟨rfl, Int.emod_nonneg _ (Int.ne_of_gt pos)⟩

/-- A count is lost where the block of a smaller unit assigns to it. -/
lemma carrySeconds_small (small : p.seconds.toInt < 60) : carrySeconds p = p := by
  have rest : ¬59 < p.seconds := by
    rw [Int64.lt_iff_toInt_lt]
    exact Int.not_lt.mpr (Int.le_of_lt_add_one small)
  rw [carrySeconds, if_neg rest, ite_self]

/-- Fewer than 60 minutes are not carried. -/
lemma carryMinutes_small (small : p.minutes.toInt < 60) : carryMinutes p = p := by
  have rest : ¬60 ≤ p.minutes := by
    rw [Int64.le_iff_toInt_le]
    exact Int.not_le.mpr small
  rw [carryMinutes, if_neg rest, ite_self]

/-- Fewer than 24 hours are not carried. -/
lemma carryHours_small (small : p.hours.toInt < 24) : carryHours p = p := by
  have rest : ¬24 ≤ p.hours := by
    rw [Int64.le_iff_toInt_le]
    exact Int.not_le.mpr small
  rw [carryHours, if_neg rest, ite_self]

/-- The literals of the code -/
lemma literals :
    (60 : Int64).toInt = 60 ∧ (3600 : Int64).toInt = 3600 ∧ (86400 : Int64).toInt = 86400 ∧
      (1440 : Int64).toInt = 1440 ∧ (24 : Int64).toInt = 24 := by decide

/-- The seconds alone decide what the other counts are. -/
lemma carrySeconds_large (large : 60 ≤ p.seconds.toInt) :
    (carrySeconds p).years = p.years ∧ (carrySeconds p).months = p.months ∧
      total (carrySeconds p) = p.seconds.toInt ∧ Normal (carrySeconds p) := by
  obtain ⟨minute, hour, day, -⟩ := literals
  have pos : 0 < p.seconds := Int64.lt_iff_toInt_lt.mpr (Int.lt_of_lt_of_le (by decide) large)
  have rest : 59 < p.seconds := Int64.lt_iff_toInt_lt.mpr (Int.lt_of_lt_of_le (by decide) large)
  have nonneg : 0 ≤ p.seconds.toInt := Int.le_trans (by decide) large
  have days := toInt_div day (by decide) nonneg
  obtain ⟨ofDay, nonneg⟩ := toInt_mod day (by decide) nonneg
  have hours := toInt_div hour (by decide) nonneg
  obtain ⟨ofHour, nonneg⟩ := toInt_mod hour (by decide) nonneg
  have minutes := toInt_div minute (by decide) nonneg
  obtain ⟨ofMinute, -⟩ := toInt_mod minute (by decide) nonneg
  rw [carrySeconds, if_pos pos, if_pos rest]
  refine ⟨rfl, rfl, ?_, ?_, ?_, ?_⟩
  · unfold total
    dsimp only
    omega
  · dsimp only
    omega
  · dsimp only
    omega
  · dsimp only
    omega

/-- The minutes alone decide what the days and the hours are. -/
lemma carryMinutes_large (large : 60 ≤ p.minutes.toInt) (seconds : 0 ≤ p.seconds.toInt ∧ p.seconds.toInt < 60) :
    (carryMinutes p).years = p.years ∧ (carryMinutes p).months = p.months ∧
      total (carryMinutes p) = 60 * p.minutes.toInt + p.seconds.toInt ∧ Normal (carryMinutes p) := by
  obtain ⟨minute, -, -, day, -⟩ := literals
  have pos : 0 < p.minutes := Int64.lt_iff_toInt_lt.mpr (Int.lt_of_lt_of_le (by decide) large)
  have rest : 60 ≤ p.minutes := Int64.le_iff_toInt_le.mpr (by rwa [minute])
  have nonneg : 0 ≤ p.minutes.toInt := Int.le_trans (by decide) large
  have days := toInt_div day (by decide) nonneg
  obtain ⟨ofDay, nonneg⟩ := toInt_mod day (by decide) nonneg
  have hours := toInt_div minute (by decide) nonneg
  obtain ⟨ofHour, -⟩ := toInt_mod minute (by decide) nonneg
  rw [carryMinutes, if_pos pos, if_pos rest]
  refine ⟨rfl, rfl, ?_, ?_, ?_, seconds⟩
  · unfold total
    dsimp only
    omega
  · dsimp only
    omega
  · dsimp only
    omega

/-- The hours alone decide what the days are. -/
lemma carryHours_large (large : 24 ≤ p.hours.toInt) (minutes : 0 ≤ p.minutes.toInt ∧ p.minutes.toInt < 60)
    (seconds : 0 ≤ p.seconds.toInt ∧ p.seconds.toInt < 60) :
    (carryHours p).years = p.years ∧ (carryHours p).months = p.months ∧
      total (carryHours p) = 3600 * p.hours.toInt + 60 * p.minutes.toInt + p.seconds.toInt ∧
      Normal (carryHours p) := by
  obtain ⟨-, -, -, -, day⟩ := literals
  have pos : 0 < p.hours := Int64.lt_iff_toInt_lt.mpr (Int.lt_of_lt_of_le (by decide) large)
  have rest : 24 ≤ p.hours := Int64.le_iff_toInt_le.mpr (by rwa [day])
  have nonneg : 0 ≤ p.hours.toInt := Int.le_trans (by decide) large
  have days := toInt_div day (by decide) nonneg
  obtain ⟨ofDay, -⟩ := toInt_mod day (by decide) nonneg
  rw [carryHours, if_pos pos, if_pos rest]
  refine ⟨rfl, rfl, ?_, ?_, minutes, seconds⟩
  · unfold total
    dsimp only
    omega
  · dsimp only
    omega

/-- Where a block leaves normal counts, only their sum is in question. -/
lemma preserves_iff_total {q : TimePeriod} (years : q.years = p.years) (months : q.months = p.months)
    (normal : Normal q) : Preserves p q ↔ total q = total p :=
  ⟨Preserves.total, fun same => ⟨years, months, same, normal⟩⟩

/-- Nothing that is carried is written over a count. -/
def Carried (p : TimePeriod) : Prop :=
  (60 ≤ p.seconds.toInt → p.days = 0 ∧ p.hours = 0 ∧ p.minutes = 0) ∧
    (60 ≤ p.minutes.toInt → p.days = 0 ∧ p.hours = 0) ∧ (24 ≤ p.hours.toInt → p.days = 0)

instance (p : TimePeriod) : Decidable (Carried p) :=
  inferInstanceAs (Decidable ((_ → _) ∧ (_ → _) ∧ (_ → _)))

/-- A count is zero as its number is. -/
lemma eq_zero_iff {x : Int64} : x = 0 ↔ x.toInt = 0 := by
  rw [← Int64.toInt_inj, Int64.toInt_zero]

end blocks

/-- The constructor keeps years and months, and the duration of the other counts as normal ones, exactly where nothing
    that it carries is written over a count. -/
theorem timePeriod_preserves_iff {y mo d h m s : Int64} (days : 0 ≤ d) (hours : 0 ≤ h) (minutes : 0 ≤ m)
    (seconds : 0 ≤ s) :
    Preserves { years := y, months := mo, days := d, hours := h, minutes := m, seconds := s }
        (timePeriod y mo d h m s) ↔
      Carried { years := y, months := mo, days := d, hours := h, minutes := m, seconds := s } := by
  have days := Int64.le_iff_toInt_le.mp days
  have hours := Int64.le_iff_toInt_le.mp hours
  have minutes := Int64.le_iff_toInt_le.mp minutes
  have seconds := Int64.le_iff_toInt_le.mp seconds
  rw [Int64.toInt_zero] at days hours minutes seconds
  unfold timePeriod
  generalize args : ({ years := y, months := mo, days := d, hours := h, minutes := m, seconds := s } : TimePeriod) = p
  have all : p.days = d ∧ p.hours = h ∧ p.minutes = m ∧ p.seconds = s := by
    rw [← args]
    exact ⟨rfl, rfl, rfl, rfl⟩
  obtain ⟨rfl, rfl, rfl, rfl⟩ := all
  unfold Carried
  simp only [eq_zero_iff]
  -- the first block that carries decides all larger counts, and leaves nothing for the blocks behind it
  by_cases second : 60 ≤ p.seconds.toInt
  · obtain ⟨years, months, sum, normal⟩ := carrySeconds_large second
    rw [carryMinutes_small normal.minutes.2, carryHours_small normal.hours.2, preserves_iff_total years months normal,
      sum]
    unfold total
    omega
  have ofMinute : 0 ≤ p.seconds.toInt ∧ p.seconds.toInt < 60 := ⟨seconds, Int.lt_of_not_ge second⟩
  rw [carrySeconds_small ofMinute.2]
  by_cases minute : 60 ≤ p.minutes.toInt
  · obtain ⟨years, months, sum, normal⟩ := carryMinutes_large minute ofMinute
    rw [carryHours_small normal.hours.2, preserves_iff_total years months normal, sum]
    unfold total
    omega
  have ofHour : 0 ≤ p.minutes.toInt ∧ p.minutes.toInt < 60 := ⟨minutes, Int.lt_of_not_ge minute⟩
  rw [carryMinutes_small ofHour.2]
  by_cases hour : 24 ≤ p.hours.toInt
  · obtain ⟨years, months, sum, normal⟩ := carryHours_large hour ofHour ofMinute
    rw [preserves_iff_total years months normal, sum]
    unfold total
    omega
  have ofDay : 0 ≤ p.hours.toInt ∧ p.hours.toInt < 24 := ⟨hours, Int.lt_of_not_ge hour⟩
  rw [carryHours_small ofDay.2, preserves_iff_total rfl rfl ⟨ofDay, ofHour, ofMinute⟩]
  omega

/-- A minute's worth of seconds makes a day disappear. -/
theorem timePeriod_loses_day :
    timePeriod 0 0 1 0 0 60 = { minutes := 1 } ∧ ¬Preserves { days := 1, seconds := 60 } (timePeriod 0 0 1 0 0 60) := by
  have lost : timePeriod 0 0 1 0 0 60 = { minutes := 1 } := by decide
  refine ⟨lost, ?_⟩
  rw [lost]
  intro kept
  exact absurd kept.total (by decide)

/-- Seconds that carry into minutes and hours that were zero -/
theorem timePeriod_preserves_seconds :
    Preserves { years := 2, months := 14, days := 0, hours := 0, minutes := 0, seconds := 90061 }
        (timePeriod 2 14 0 0 0 90061) ↔
      Carried { years := 2, months := 14, days := 0, hours := 0, minutes := 0, seconds := 90061 } :=
  timePeriod_preserves_iff (by decide) (by decide) (by decide) (by decide)

end TimePeriod

end OsterLib.Types
