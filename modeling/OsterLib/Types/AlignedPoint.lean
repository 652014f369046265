import Mathlib.Data.List.Count
import OsterLib.Types.NextPoint

/-!
# The aligned point of a period

`TimePeriod::get_null_aligned_tp` in `types/time_period.cpp`.

Its locals are declared without a value, and most of them are read before they are given one, which is undefined. The
condition on the seconds also guards the block of the years, as nothing else stands behind it. So a period of one unit
reaches the end of the function never, and its first point only as a number of months that is more than a year and no
number of years (`getNullAlignedTp_single`). `getNullAlignedTp_aligns_iff` says when this is the aligned one.
-/

namespace OsterLib.Types.TimePeriod
open OsterLib.Json (TimePeriod)

/-- How the function ends: with a point, at a value that is undefined, or at a division by zero. -/
inductive Ending where
  | returns (tp : Int64)
  | undefined
  | divisionByZero
  deriving DecidableEq, Repr

/-! ## The blocks of the function

A block gives the value of its local, if there is one, or ends the function. -/

/-- A local is read. -/
def readLocal : Option Int64 → Except Ending Int64
  | some n => .ok n
  | none => .error .undefined

/-- A count that does not overflow -/
def checked (n : Int) : Except Ending Int64 := readLocal (held n)

/-- `span / unit * unit` -/
def wholeUnits (span unit : Int64) : Except Ending Int64 := do
  if unit = 0 then throw .divisionByZero
  else
    let number ← checked (span.toInt.tdiv unit.toInt)
    checked (number.toInt * unit.toInt)

/-- What a block does with whole units: the function returns the initial point where there are none. -/
def wholeOrInitial (init span unit : Int64) : Except Ending Int64 := do
  let units ← wholeUnits span unit
  if units = 0 then throw (.returns init) else return units

/-- The years from a date to another -/
def yearsBetween (ymdCurrent ymdInitial : YearMonthDay) : Int64 := Int64.ofInt (ymdCurrent.year - ymdInitial.year)

/-- The months from a month of the year to another, which are less than twelve -/
def monthsBetween (ymdCurrent ymdInitial : YearMonthDay) : Int64 :=
  Int64.ofInt ((ymdCurrent.month - ymdInitial.month) % 12)

/-- The block of the years, which stands behind the condition on the seconds -/
def yearBlock (p : TimePeriod) (cur init : Int64) : Except Ending (Option Int64) := do
  if 0 < p.seconds then
    if p.years ≠ 0 then
      let year ← wholeOrInitial init (yearsBetween (dateOf cur) (dateOf init)) p.years
      return some year
    else return none
  else return none

/-- What a number of months that is more than a year gives to the locals -/
def splitMonths (p : TimePeriod) (year : Option Int64) : Except Ending (Option Int64 × Option Int64) := do
  if 11 < p.months then
    let year ← checked (p.years.toInt + p.months.toInt.tdiv 12)
    return (some year, some (p.months % 12))
  else return (year, none)

/-- What the block of the months does with the years -/
def yearsOfMonths (p : TimePeriod) (cur init : Int64) (year : Option Int64) : Except Ending (Option Int64) := do
  if p.years ≠ 0 then
    let unit ← readLocal year
    let year ← wholeOrInitial init (yearsBetween (dateOf cur) (dateOf init)) unit
    return some year
  else return year

/-- The block of the months -/
def monthBlock (p : TimePeriod) (cur init : Int64) (year : Option Int64) :
    Except Ending (Option Int64 × Option Int64) := do
  if p.months ≠ 0 then
    let (year, month) ← splitMonths p year
    let year ← yearsOfMonths p cur init year
    let unit ← readLocal month
    let month ← wholeOrInitial init (monthsBetween (dateOf cur) (dateOf init)) unit
    return (year, some month)
  else return (year, none)

/-- `ymd_initial + year + month` -/
def initialPlus (init : Int64) (year month : Option Int64) : Except Ending YearMonthDay := do
  let year ← readLocal year
  let month ← readLocal month
  match heldDate ((dateOf init).addYears year.toInt) with
  | none => throw .undefined
  | some ymd =>
    match heldDate (ymd.addMonths month.toInt) with
    | none => throw .undefined
    | some ymd => return ymd

/-- The block of the days -/
def dayBlock (p : TimePeriod) (cur init : Int64) (year month : Option Int64) : Except Ending (Option Int64) := do
  if 0 < p.days then
    let ymd ← initialPlus init year month
    let span ← checked (cur.toInt / nanosPerDay - sysDays ymd)
    let day ← wholeOrInitial init span p.days
    return some day
  else return none

/-- A block of the hours, minutes or seconds, whose units have some nanoseconds -/
def clockBlock (nanos : Int) (count cur init result : Int64) : Except Ending Int64 := do
  if 0 < count then
    let span ← checked (cur.toInt - result.toInt)
    let unit ← checked (nanos * count.toInt)
    let whole ← wholeOrInitial init span unit
    checked (result.toInt + whole.toInt)
  else return result

/-- The blocks, one after the other -/
def alignedTp (p : TimePeriod) (cur init : Int64) : Except Ending Int64 := do
  let year ← yearBlock p cur init
  let (year, month) ← monthBlock p cur init year
  let day ← dayBlock p cur init year month
  let ymd ← initialPlus init year month
  let day ← readLocal day
  let result ← checked (nanosPerDay * (sysDays ymd + day.toInt))
  let result ← clockBlock nanosPerHour p.hours cur init result
  let result ← clockBlock 60000000000 p.minutes cur init result
  clockBlock 1000000000 p.seconds cur init result

/-- `get_null_aligned_tp` -/
def getNullAlignedTp (p : TimePeriod) (cur init : Int64) : Ending :=
  match alignedTp p cur init with
  | .ok result => .returns result
  | .error ending => ending

/-! ## What the function is for -/

/-- The point that is a number of periods later -/
def gridPoint (p : TimePeriod) (t : Int64) (k : Nat) : Int :=
  nanosPerDay * sysDays (datePlus t (k * p.years.toInt) (k * p.months.toInt)) + t.toInt % nanosPerDay +
    1000000000 * (k * total p)

/-- The function returns the last point of the grid that is not later than the current one. -/
def Aligns (p : TimePeriod) (cur init : Int64) : Prop :=
  ∃ tp, getNullAlignedTp p cur init = .returns tp ∧ (∃ k, tp.toInt = gridPoint p init k) ∧ tp ≤ cur ∧
    ∀ k, gridPoint p init k ≤ cur.toInt → gridPoint p init k ≤ tp.toInt

/-- The six counts of a period -/
def counts (p : TimePeriod) : List Int64 := [p.years, p.months, p.days, p.hours, p.minutes, p.seconds]

/-- No count is negative, and a single one is positive. -/
structure Single (p : TimePeriod) : Prop where
  nonneg : Nonneg p
  single : (counts p).countP (0 < ·) = 1

/-! ## The grid -/

section grid
variable {p : TimePeriod} {cur init : Int64}

/-- The first point of the grid is the next point. -/
lemma gridPoint_one (p : TimePeriod) (t : Int64) : gridPoint p t 1 = nextPoint p t := by
  unfold gridPoint nextPoint movedDate
  rw [Nat.cast_one, one_mul, one_mul, one_mul]

/-- A point of the grid, by its month, its day and its seconds -/
lemma gridPoint_eq (p : TimePeriod) (t : Int64) (k : Nat) :
    gridPoint p t k =
      nanosPerDay * (firstDay ((dateOf t).monthNumber + k * (12 * p.years.toInt + p.months.toInt)) +
        ((dateOf t).day - 1)) + t.toInt % nanosPerDay + 1000000000 * (k * total p) := by
  unfold gridPoint
  rw [sysDays_datePlus, mul_add (k : Int), mul_left_comm]

/-- The grid begins at the time itself. -/
lemma gridPoint_zero (p : TimePeriod) (t : Int64) : gridPoint p t 0 = t.toInt := by
  have split := Int.mul_ediv_add_emod t.toInt nanosPerDay
  rw [gridPoint_eq, Nat.cast_zero, zero_mul, zero_mul, add_zero, mul_zero, add_zero, ← day_eq, split]

/-- The points of the grid follow one another. -/
lemma gridPoint_mono (nonneg : Nonneg p) (t : Int64) {k k' : Nat} (le : k ≤ k') :
    gridPoint p t k ≤ gridPoint p t k' := by
  obtain ⟨years, months, days, hours, minutes, seconds⟩ := nonneg
  have sum : 0 ≤ total p := by
    unfold total
    omega
  have further : (k : Int) ≤ k' := Int.ofNat_le.mpr le
  have step : (k : Int) * (12 * p.years.toInt + p.months.toInt) ≤ k' * (12 * p.years.toInt + p.months.toInt) :=
    mul_le_mul_of_nonneg_right further (by omega)
  have rest : (k : Int) * total p ≤ k' * total p := mul_le_mul_of_nonneg_right further sum
  have later := firstDay_le (Int.add_le_add_left step (dateOf t).monthNumber)
  rw [gridPoint_eq, gridPoint_eq]
  unfold nanosPerDay
  omega

/-- The initial point is the aligned one exactly where the next one is later than the current one. -/
lemma initial_last_iff (nonneg : Nonneg p) (later : init.toInt < nextPoint p init) :
    (∀ k, gridPoint p init k ≤ cur.toInt → gridPoint p init k ≤ init.toInt) ↔ cur.toInt < nextPoint p init := by
  constructor
  · intro last
    by_contra reached
    have first := last 1 (by rw [gridPoint_one]; omega)
    rw [gridPoint_one] at first
    omega
  · intro before k reached
    cases k with
    | zero => rw [gridPoint_zero]
    | succ k =>
      have further := gridPoint_mono nonneg init (Nat.le_add_left 1 k)
      rw [gridPoint_one] at further
      omega

end grid

/-! ## Periods of one unit -/

section single
variable {p : TimePeriod} {cur init : Int64}

/-- A period of months has no other unit. -/
lemma Single.months_only (single : Single p) (some : p.months ≠ 0) :
    p.years = 0 ∧ p.days = 0 ∧ p.hours = 0 ∧ p.minutes = 0 ∧ p.seconds = 0 := by
  obtain ⟨⟨years, months, days, hours, minutes, seconds⟩, one⟩ := single
  simp only [counts, List.countP_cons, List.countP_nil, decide_eq_true_eq, Int64.lt_iff_toInt_lt,
    Int64.toInt_zero] at one
  rw [ne_eq, eq_zero_iff] at some
  simp only [eq_zero_iff]
  split_ifs at one <;> omega

/-- Where the seconds are the unit, the years are not. -/
lemma Single.yearBlock (single : Single p) : yearBlock p cur init = .ok none := by
  have zero : 0 < p.seconds → p.years = 0 := by
    obtain ⟨⟨years, -⟩, one⟩ := single
    simp only [counts, List.countP_cons, List.countP_nil, decide_eq_true_eq, Int64.lt_iff_toInt_lt,
      Int64.toInt_zero] at one
    simp only [Int64.lt_iff_toInt_lt, Int64.toInt_zero, eq_zero_iff]
    intro pos
    split_ifs at one <;> omega
  unfold TimePeriod.yearBlock
  split
  case isTrue pos => rw [if_neg (by rw [zero pos]; exact not_not_intro rfl)]; rfl
  case isFalse => rfl

/-- The date that the days, and the result, are counted from ends the function where it is not held, or where a local
    has no value. -/
lemma initialPlus_cases (init : Int64) (year month : Option Int64) :
    initialPlus init year month = .error .undefined ∨ (year ≠ none ∧ ∃ ymd, initialPlus init year month = .ok ymd) := by
  cases year with
  | none => exact .inl rfl
  | some year =>
    cases month with
    | none => exact .inl rfl
    | some month =>
      unfold initialPlus
      dsimp only [readLocal, bind, Except.bind]
      cases heldDate ((dateOf init).addYears year.toInt) with
      | none => exact .inl rfl
      | some ymd =>
        dsimp only
        cases heldDate (ymd.addMonths month.toInt) with
        | none => exact .inl rfl
        | some ymd => exact .inr ⟨Option.some_ne_none _, ymd, rfl⟩

/-- A local without a value is read behind the block of the months: the years where that block gave them none, or the
    days where there are none. -/
lemma alignedTp_unread {year month : Option Int64} (years : yearBlock p cur init = .ok none)
    (months : monthBlock p cur init none = .ok (year, month)) (unread : year = none ∨ p.days = 0) :
    alignedTp p cur init = .error .undefined := by
  unfold alignedTp
  rw [years]
  dsimp only [bind, Except.bind]
  rw [months]
  dsimp only
  rcases initialPlus_cases init year month with undefined | ⟨valued, ymd, date⟩
  · unfold dayBlock
    dsimp only [bind, Except.bind]
    rw [undefined]
    by_cases days : 0 < p.days
    · rw [if_pos days]
    · rw [if_neg days]
      rfl
  · have zero : p.days = 0 := unread.resolve_left valued
    have skipped : dayBlock p cur init year month = .ok none := by
      unfold dayBlock
      rw [zero, if_neg (by decide)]
      rfl
    rw [skipped, date]
    rfl

/-- The months decide where the years leave it open. -/
lemma alignedTp_stops {ending : Ending} (years : yearBlock p cur init = .ok none)
    (months : monthBlock p cur init none = .error ending) : alignedTp p cur init = .error ending := by
  unfold alignedTp
  rw [years]
  dsimp only [bind, Except.bind]
  rw [months]

/-! ## Months -/

/-- A number that is held is not out of range. -/
lemma checked_eq {n : Int} {x : Int64} (same : x.toInt = n) : checked n = .ok x := by
  rw [checked, held_eq_some_iff.mpr same]
  rfl

/-- The whole units of a span, where neither is negative -/
lemma wholeUnits_eq {span unit : Int64} (nonneg : 0 ≤ span.toInt) (pos : 0 < unit.toInt) :
    ∃ whole : Int64, wholeUnits span unit = .ok whole ∧ whole.toInt = span.toInt / unit.toInt * unit.toInt := by
  have bound := Int64.toInt_lt span
  have some : unit ≠ 0 := by
    rintro rfl
    exact absurd pos (by decide)
  have quotient : 0 ≤ span.toInt / unit.toInt ∧ span.toInt / unit.toInt ≤ span.toInt :=
    ⟨Int.ediv_nonneg nonneg (Int.le_of_lt pos), Int.ediv_le_self _ nonneg⟩
  have product : 0 ≤ span.toInt / unit.toInt * unit.toInt ∧ span.toInt / unit.toInt * unit.toInt ≤ span.toInt :=
    ⟨Int.mul_nonneg quotient.1 (Int.le_of_lt pos), Int.ediv_mul_le _ (Int.ne_of_gt pos)⟩
  obtain ⟨number, divided⟩ := exists_held_iff.mpr
    (show -2 ^ 63 ≤ span.toInt / unit.toInt ∧ span.toInt / unit.toInt < 2 ^ 63 by omega)
  obtain ⟨whole, multiplied⟩ := exists_held_iff.mpr
    (show -2 ^ 63 ≤ span.toInt / unit.toInt * unit.toInt ∧ span.toInt / unit.toInt * unit.toInt < 2 ^ 63 by omega)
  refine ⟨whole, ?_, multiplied⟩
  unfold wholeUnits
  rw [if_neg some, Int.tdiv_eq_ediv_of_nonneg nonneg, checked_eq divided]
  dsimp only [bind, Except.bind]
  rw [divided, checked_eq multiplied]

/-- The function returns the initial point where a span has no whole unit. -/
lemma wholeOrInitial_cases {span unit : Int64} (nonneg : 0 ≤ span.toInt) (pos : 0 < unit.toInt) (init : Int64) :
    (span.toInt < unit.toInt ∧ wholeOrInitial init span unit = .error (.returns init)) ∨
      (unit.toInt ≤ span.toInt ∧ ∃ whole, wholeOrInitial init span unit = .ok whole) := by
  obtain ⟨whole, units, value⟩ := wholeUnits_eq nonneg pos
  unfold wholeOrInitial
  rw [units]
  dsimp only [bind, Except.bind]
  rcases Int.lt_or_le span.toInt unit.toInt with short | long
  · have zero : whole = 0 := by rw [eq_zero_iff, value, Int.ediv_eq_zero_of_lt nonneg short, Int.zero_mul]
    exact .inl ⟨short, by rw [if_pos zero]; rfl⟩
  · have some : whole ≠ 0 := by
      have one : 1 ≤ span.toInt / unit.toInt := (Int.le_ediv_iff_mul_le pos).mpr (by rwa [Int.one_mul])
      rw [ne_eq, eq_zero_iff, value]
      exact Int.ne_of_gt (Int.mul_pos one pos)
    exact .inr ⟨long, whole, by rw [if_neg some]; rfl⟩

/-- The months between two dates, in the year -/
lemma monthsBetween_eq (ymdCurrent ymdInitial : YearMonthDay) :
    (monthsBetween ymdCurrent ymdInitial).toInt = (ymdCurrent.month - ymdInitial.month) % 12 := by
  unfold monthsBetween
  exact Int64.toInt_ofInt_of_le (by omega) (by omega)

/-- What the block of the months does for a number of months and no years -/
lemma monthBlock_months (years : p.years = 0) (pos : 0 < p.months.toInt) :
    monthBlock p cur init none =
      if 11 < p.months.toInt then
        (wholeOrInitial init (monthsBetween (dateOf cur) (dateOf init)) (p.months % 12)).map fun month =>
          (some (p.months / 12), some month)
      else .error .undefined := by
  have some : p.months ≠ 0 := by
    rw [ne_eq, eq_zero_iff]
    omega
  have year : checked (0 + p.months.toInt.tdiv 12) = .ok (p.months / 12) := by
    apply checked_eq
    rw [toInt_div (n := 12) (by decide) (by decide) (Int.le_of_lt pos), Int.zero_add,
      Int.tdiv_eq_ediv_of_nonneg (Int.le_of_lt pos)]
  unfold monthBlock
  rw [if_pos some]
  unfold splitMonths yearsOfMonths
  rw [years, Int64.toInt_zero, year]
  simp only [Int64.lt_iff_toInt_lt, show (11 : Int64).toInt = 11 from by decide]
  by_cases large : 11 < p.months.toInt
  · rw [if_pos large, if_pos large]
    dsimp only [bind, Except.bind, pure, Except.pure, readLocal]
    rw [if_neg (not_not_intro rfl)]
    dsimp only
    cases wholeOrInitial init (monthsBetween (dateOf cur) (dateOf init)) (p.months % 12) with
    | error ending => rfl
    | ok month => rfl
  · rw [if_neg large, if_neg large]
    dsimp only [bind, Except.bind, pure, Except.pure, readLocal]
    rw [if_neg (not_not_intro rfl)]

/-- What a period of one unit comes to: the initial point for a number of months that is more than a year, no number of
    years, and of whose months there are more than from the month of the initial point to that of the current one. -/
lemma getNullAlignedTp_single (single : Single p) :
    getNullAlignedTp p cur init =
      if p.months.toInt ≤ 11 then .undefined
      else if p.months.toInt % 12 = 0 then .divisionByZero
      else if ((dateOf cur).month - (dateOf init).month) % 12 < p.months.toInt % 12 then .returns init
      else .undefined := by
  have nonneg := single.nonneg.months
  have skipped : yearBlock p cur init = .ok none := single.yearBlock
  unfold getNullAlignedTp
  by_cases zero : p.months = 0
  -- without months, the years have no value where the date is made of them
  · have months : monthBlock p cur init none = .ok (none, none) := by
      unfold monthBlock
      rw [if_neg (not_not_intro zero)]
      rfl
    rw [alignedTp_unread skipped months (.inl rfl), zero, if_pos (by decide)]
  · obtain ⟨years, days, -⟩ := single.months_only zero
    rw [eq_zero_iff] at zero
    have pos : 0 < p.months.toInt := by omega
    have block := @monthBlock_months p cur init years pos
    by_cases small : p.months.toInt ≤ 11
    · rw [if_neg (by omega)] at block
      rw [alignedTp_stops skipped block, if_pos small]
    · rw [if_pos (by omega)] at block
      rw [if_neg small]
      obtain ⟨ofYear, rest⟩ := toInt_mod (x := p.months) (k := 12) (n := 12) (by decide) (by decide) nonneg
      have between := monthsBetween_eq (dateOf cur) (dateOf init)
      by_cases whole : p.months.toInt % 12 = 0
      -- the months of whole years come to zero, and divide
      · have divisor : p.months % 12 = 0 := by rw [eq_zero_iff, ofYear, whole]
        rw [if_pos whole]
        rw [divisor] at block
        rw [alignedTp_stops skipped block]
      · rw [if_neg whole, ← ofYear, ← between]
        rcases @wholeOrInitial_cases (monthsBetween (dateOf cur) (dateOf init)) (p.months % 12) (by omega) (by omega)
          init with ⟨short, ends⟩ | ⟨long, month, ends⟩
        · rw [ends] at block
          rw [if_pos short, alignedTp_stops skipped block]
        · rw [ends] at block
          rw [if_neg (Int.not_lt.mpr long), alignedTp_unread skipped block (.inr days)]

end single

/-- For a period of one unit, the function returns the last point of the grid that is not later than the current one
    exactly for more than a year of months, which is no number of years, where the months of the year from the initial
    point to the current one are fewer than those behind the years, and the second point of the grid is later. -/
theorem getNullAlignedTp_aligns_iff {p : TimePeriod} {cur init : Int64} (single : Single p) (le : init ≤ cur) :
    Aligns p cur init ↔
      11 < p.months.toInt ∧ p.months.toInt % 12 ≠ 0 ∧
        ((dateOf cur).month - (dateOf init).month) % 12 < p.months.toInt % 12 ∧ cur.toInt < nextPoint p init := by
  have ends := @getNullAlignedTp_single p cur init single
  have later (months : 11 < p.months.toInt) : init.toInt < nextPoint p init := by
    have moved := movedDate_later single.nonneg init
    have split := Int.mul_ediv_add_emod init.toInt nanosPerDay
    obtain ⟨years, -, days, hours, minutes, seconds⟩ := single.nonneg
    unfold nextPoint total
    unfold nanosPerDay at *
    omega
  have returned : getNullAlignedTp p cur init = .returns init ↔
      11 < p.months.toInt ∧ p.months.toInt % 12 ≠ 0 ∧
        ((dateOf cur).month - (dateOf init).month) % 12 < p.months.toInt % 12 := by
    rw [ends]
    split_ifs with small whole short
    · exact iff_of_false (by simp) fun large => absurd large.1 (Int.not_lt.mpr small)
    · exact iff_of_false (by simp) fun part => part.2.1 whole
    · exact iff_of_true rfl ⟨Int.lt_of_not_ge small, whole, short⟩
    · exact iff_of_false (by simp) fun part => short part.2.2
  constructor
  · rintro ⟨tp, result, -, -, last⟩
    have first : tp = init := by
      rw [ends] at result
      split_ifs at result
      exact (Ending.returns.inj result).symm
    rw [first] at result last
    obtain ⟨large, whole, short⟩ := returned.mp result
    exact ⟨large, whole, short, (initial_last_iff single.nonneg (later large)).mp last⟩
  · rintro ⟨large, whole, short, before⟩
    exact ⟨init, returned.mpr ⟨large, whole, short⟩, ⟨0, (gridPoint_zero p init).symm⟩, le,
      (initial_last_iff single.nonneg (later large)).mpr before⟩

/-- A day, ten days behind the beginning: the years are read without a value. Two years of months: the division is by
    zero. -/
theorem getNullAlignedTp_undefined :
    getNullAlignedTp { days := 1 } 864000000000000 0 = .undefined ∧
      getNullAlignedTp { months := 24 } 864000000000000 0 = .divisionByZero ∧
      ¬Aligns { days := 1 } 864000000000000 0 := by
  have undefined : getNullAlignedTp { days := 1 } 864000000000000 0 = .undefined := by decide +kernel
  refine ⟨undefined, by decide +kernel, ?_⟩
  rintro ⟨tp, result, -⟩
  rw [undefined] at result
  cases result

/-- Thirteen months, ten days behind the beginning -/
theorem getNullAlignedTp_aligns_months :
    Aligns { months := 13 } 864000000000000 0 ↔
      11 < (13 : Int64).toInt ∧ (13 : Int64).toInt % 12 ≠ 0 ∧
        ((dateOf 864000000000000).month - (dateOf 0).month) % 12 < (13 : Int64).toInt % 12 ∧
        (864000000000000 : Int64).toInt < nextPoint { months := 13 } 0 :=
  getNullAlignedTp_aligns_iff
    ⟨⟨by decide, by decide, by decide, by decide, by decide, by decide⟩, by decide⟩ (by decide)

end OsterLib.Types.TimePeriod
