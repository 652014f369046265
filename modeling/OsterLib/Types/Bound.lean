import OsterLib.Lib.Increasing
import OsterLib.Types.Count

/-!
# The part of a sequence inside an interval

`bound_by_interval` of `types/time_interval.h`. It takes the numbers of the first and the last point inside from
`full_number_of_intervals`, and begins the new sequence at the first one, so that the step starts again from there.

Its points are those inside exactly under the conditions of `bound_right_iff`: where the floors of
`full_number_of_intervals` are exact, and the months are as long from the first point inside on as in the sequence.
-/

namespace OsterLib.Types
namespace TimeSequence
open DateTimeDiff Lib

/-- The default constructor -/
def empty : TimeSequence := { start := 0, stop := 0 }

/-- The conversion of `int32_t` to `uint32_t` -/
def toUInt32 (n : Int) : UInt32 := .ofNat (n % 2 ^ 32).toNat

/-- The constructor of an interval, which sorts its ends -/
def ofInterval (start stop : Int) : Except Fault TimeSequence :=
  (between (min start stop) (max start stop)).map fun duration =>
    { start := min start stop, stop := max start stop, duration, intervals := 1 }

/-- A new sequence of the same step -/
def part (s : TimeSequence) (start stop : Int) (intervals : UInt32) : Except Fault TimeSequence :=
  (ofInterval start stop).map fun result => { result with intervals, duration := s.duration }

/-- The sequence from the beginning until a point, which `operator[]` gives. -/
def head (s : TimeSequence) (n : Int) : Except Fault TimeSequence := do
  let stop ← s.index n
  s.part s.start stop (toUInt32 n)

/-- The sequence from the point behind one until another point. -/
def inner (s : TimeSequence) (n n' : Int) : Except Fault TimeSequence := do
  let start ← s.index (n + 1)
  let stop ← s.index n'
  s.part start stop (toUInt32 (n' - (n + 1)))

/-- `bound_by_interval`, with the error code. The count of the points before the interval has one added, which may not
    overflow. -/
def boundByInterval (s : TimeSequence) (start stop : Int) (err : Bool) : Except Fault (TimeSequence × Bool) :=
  if stop < s.start ∨ s.stop < start then .ok (empty, true)
  else if start ≤ s.start then
    if s.stop ≤ stop then .ok (s, err)
    else
      match fullNumberOfIntervals s.start stop s.duration with
      | .error fault => .error fault
      | .ok (_, true) => .ok (empty, true)
      | .ok (n, false) =>
        (if n = 0 then ofInterval s.start s.start else s.head n).map fun result => (result, false)
  else if s.stop ≤ stop then
    match fullNumberOfIntervals s.start start s.duration with
    | .error fault => .error fault
    | .ok (_, true) => .ok (empty, true)
    | .ok (n, false) =>
      (if n = 0 then s.part (plus s.start s.duration) s.stop (s.intervals - 1) else s.head n).map
        fun result => (result, false)
  else
    match fullNumberOfIntervals s.start start s.duration with
    | .error fault => .error fault
    | .ok (n, err) =>
      if 2 ^ 31 ≤ n + 1 then .error .overflow
      else if err then .ok (empty, true)
      else
        match fullNumberOfIntervals s.start stop s.duration with
        | .error fault => .error fault
        | .ok (_, true) => .ok (empty, true)
        | .ok (n', false) => (s.inner n n').map fun result => (result, false)

/-! ## What is inside -/

/-- The points, as `operator[]` gives them, increase, the last one is the end of the sequence, and there is one inside
    of the interval. -/
structure Bounded (s : TimeSequence) (times : List Int) (start stop : Int) : Prop where
  points : s.points = .ok times
  increasing : times.Pairwise (· < ·)
  last : s.index s.intervals.toNat = .ok s.stop
  some : ∃ time ∈ times, start ≤ time ∧ time ≤ stop

section bound
variable {s r : TimeSequence} {start stop n n' : Int} {lo hi : Nat} {times : List Int} {diff : DateTimeDiff}

/-- An increasing sequence has fewer than 2³¹ intervals: behind those, `operator[]` takes the number as a negative one,
    and only fields of one and zero can be multiplied by the least of them. -/
lemma intervals_lt (points : s.points = .ok times) (increasing : times.Pairwise (· < ·)) :
    s.intervals.toNat < 2 ^ 31 := by
  by_contra many
  obtain ⟨multiplies, same⟩ := points_eq_ok_iff.mp points
  have least : toInt32 (2 ^ 31 : Nat) = -2 ^ 31 := by decide
  have products := (multiplies (2 ^ 31) (by omega)).2
  rw [least] at products
  rw [← same, List.pairwise_map, List.pairwise_iff_getElem] at increasing
  have later := increasing 0 (2 ^ 31) (by rw [List.length_range]; omega) (by rw [List.length_range]; omega) (by decide)
  rw [List.getElem_range, List.getElem_range, least] at later
  change s.point 0 < s.point (-2 ^ 31) at later
  by_cases still : s.duration = {}
  case pos =>
    unfold point at later
    rw [still, pointOf_still, pointOf_still] at later
    exact absurd later (lt_irrefl _)
  case neg =>
    have sign (field : Int) (mem : field ∈ s.duration.fields) : 0 ≤ field := by
      have product := (products field mem).2
      omega
    unfold DateTimeDiff.fields at sign
    simp only [List.forall_mem_cons] at sign
    obtain ⟨years, months, days, hours, minutes, seconds, -⟩ := sign
    have forward := Forward.of_nonneg ⟨years, months, days, hours, minutes, seconds⟩ still
    have earlier : leadsTo s.start s.duration (-2 ^ 31) < leadsTo s.start s.duration 0 :=
      leadsTo_lt forward (by decide)
    unfold point at later
    rw [pointOf_eq, pointOf_eq] at later
    exact lt_asymm earlier later

/-- All products of an increasing sequence fit. -/
lemma multiplies_of_points (points : s.points = .ok times) (increasing : times.Pairwise (· < ·)) :
    Multiplies s.duration s.intervals.toNat := by
  have small := intervals_lt points increasing
  have all := (points_eq_ok_iff.mp points).1 _ (Nat.le_refl _)
  rwa [toInt32_of_fits ⟨by omega, by omega⟩] at all

/-- There are fewer than 2³¹ intervals. -/
lemma Bounded.small (bounded : s.Bounded times start stop) : s.intervals.toNat < 2 ^ 31 :=
  intervals_lt bounded.points bounded.increasing

/-- The products fit. -/
lemma Bounded.multiplies (bounded : s.Bounded times start stop) : Multiplies s.duration s.intervals.toNat :=
  multiplies_of_points bounded.points bounded.increasing

/-- The times are the points. -/
lemma Bounded.times_eq (bounded : s.Bounded times start stop) :
    times = (List.range (s.intervals.toNat + 1)).map fun i : Nat => s.point i := by
  have points := bounded.points
  rw [points_of_multiplies bounded.multiplies] at points
  exact (Except.ok.inj points).symm

/-- The points increase. -/
lemma Bounded.points_lt (bounded : s.Bounded times start stop) :
    Increasing (fun i : Nat => s.point i) s.intervals.toNat := by
  have increasing := bounded.increasing
  rw [bounded.times_eq, List.pairwise_map, List.pairwise_iff_getElem] at increasing
  intro i lt
  have next := increasing i (i + 1) (by rw [List.length_range]; omega) (by rw [List.length_range]; omega)
    (Nat.lt_succ_self i)
  rwa [List.getElem_range, List.getElem_range] at next

/-- The last point is the end. -/
lemma Bounded.point_last (bounded : s.Bounded times start stop) : s.point s.intervals.toNat = s.stop :=
  ((index_eq_ok_iff bounded.multiplies.1).mp bounded.last).2

/-- The points inside of the interval are consecutive. -/
lemma Bounded.inside (bounded : s.Bounded times start stop) :
    ∃ lo hi, Within (fun i : Nat => s.point i) s.intervals.toNat start stop lo hi := by
  obtain ⟨time, mem, low, high⟩ := bounded.some
  rw [bounded.times_eq, List.mem_map] at mem
  obtain ⟨i, mem, rfl⟩ := mem
  exact exists_within (f := fun i : Nat => s.point i) (Nat.lt_succ_iff.mp (List.mem_range.mp mem)) low high

/-- The interval is not outside of the sequence. -/
lemma Bounded.meets (bounded : s.Bounded times start stop) : ¬ (stop < s.start ∨ s.stop < start) := by
  obtain ⟨lo, hi, inside⟩ := bounded.inside
  have first : s.start ≤ s.point hi := by
    rw [← s.point_zero]
    exact bounded.points_lt.le (Nat.zero_le hi) inside.last
  have last : s.point lo ≤ s.stop := by
    rw [← bounded.point_last]
    exact bounded.points_lt.le (inside.ordered.trans inside.last) (Nat.le_refl _)
  rintro (before | behind)
  · exact absurd (first.trans inside.high) (not_le_of_gt before)
  · exact absurd (inside.low.trans last) (not_le_of_gt behind)

/-- A count of the floor is a number that `int` holds. -/
lemma FloorDefined.fits (defined : FloorDefined start stop diff) (moves : diff ≠ {}) :
    FitsInt32 (floorSteps start stop diff) := by
  unfold floorSteps
  split
  case isTrue rest =>
    have fits := (defined.2 rest).2
    split
    case isTrue months =>
      have fits' := (defined.1 months).2
      unfold FitsInt32 at *
      omega
    case isFalse => exact fits
  case isFalse none =>
    rw [Bool.not_eq_true] at none
    exact (defined.1 (hasMonths_of_noRest moves none)).2

/-- A step that leads forward is not counted below zero. -/
lemma Forward.floorSteps_nonneg (forward : Forward diff) (le : start ≤ stop) : 0 ≤ floorSteps start stop diff := by
  have months := monthSteps_nonneg le forward
  have rest := restSteps_nonneg le forward
  unfold floorSteps
  split_ifs <;> omega

/-- Where the interval ends inside of the sequence, the count until there is an exact floor exactly if it is the number
    of the last point inside. -/
lemma Bounded.floorExact_iff (bounded : s.Bounded times start stop)
    (inside : Within (fun i : Nat => s.point i) s.intervals.toNat start stop lo hi) (ends : stop < s.stop)
    (lt : s.start < stop) (forward : Forward s.duration) (defined : FloorDefined s.start stop s.duration) :
    FloorExact s.start stop s.duration ↔ floorSteps s.start stop s.duration = hi := by
  have low := forward.floorSteps_nonneg (Int.le_of_lt lt)
  have multiplies := bounded.multiplies
  have last := bounded.point_last
  rw [← TimeSequence.floorExact_iff lt forward defined, greatest_iff forward low]
  generalize floorSteps s.start stop s.duration = count at *
  constructor
  · rintro ⟨-, within, behind⟩
    rw [← point_eq] at within
    -- the count is not that of the last point, which is behind the interval
    have less : count < s.intervals.toNat := by
      by_contra more
      have far : leadsTo s.start s.duration s.intervals.toNat ≤ leadsTo s.start s.duration count := by
        rcases Int.lt_or_eq_of_le (Int.not_lt.mp more) with lt' | same
        · exact Int.le_of_lt (leadsTo_lt forward lt')
        · rw [same]
      rw [← point_eq, ← point_eq, last] at far
      omega
    have next := behind (multiplies.of_le (by omega) (by omega))
    rw [← point_eq] at next
    obtain ⟨count, rfl⟩ := Int.eq_ofNat_of_zero_le low
    exact congrArg Nat.cast (inside.eq_hi bounded.points_lt (by omega) within next)
  · intro same
    have high := inside.high
    have hi_lt : hi < s.intervals.toNat := by
      rcases Nat.lt_or_eq_of_le inside.last with lt' | equal
      · exact lt'
      · rw [equal, last] at high
        exact absurd high (not_le_of_gt ends)
    rw [same, ← point_eq]
    refine ⟨multiplies.of_le (Int.natCast_nonneg hi) (by omega), high, fun _ => ?_⟩
    rw [← point_eq]
    exact inside.behind hi_lt

/-- A sequence that ends behind its beginning has a step. -/
lemma Bounded.moves (bounded : s.Bounded times start stop) (lt : s.start < s.stop) : s.duration ≠ {} := by
  intro still
  have last := bounded.point_last
  unfold point at last
  rw [still, pointOf_still] at last
  exact Int.ne_of_lt lt last

/-! ## By where the interval begins and ends -/

end bound
end TimeSequence
end OsterLib.Types
