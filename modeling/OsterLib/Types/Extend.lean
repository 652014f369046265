import OsterLib.Types.Bound

/-!
# Extending a sequence

`extend_by_interval`, `extend_by_sequence` and `extendable_by` of `types/time_interval.h`. Both extensions put the two
intervals together and count again, and the first one is only refused when there is an error and the sequence cannot be
extended.

The points of both are points of the extended sequence exactly under the conditions of `extend_right_iff`.
-/

namespace OsterLib.Types

/-- `__time_interval__` -/
structure Interval where
  start : Int
  stop : Int
  ordered : start ≤ stop

/-- The constructor, which sorts the ends -/
def Interval.of (start stop : Int) : Interval :=
  { start := min start stop, stop := max start stop, ordered := by omega }

namespace TimeSequence
open DateTimeDiff

/-- The constructor of two ends and a step. Whether the error code is cleared before or behind the count, is not
    specified: both are arguments of one call. -/
def ofStep (clearedFirst : Bool) (start stop : Int) (diff : DateTimeDiff) : Except Fault (TimeSequence × Bool) :=
  if start = stop then ofIntervals start stop 0 false
  else
    match computeNumberOfIntervals (min start stop) (max start stop) diff with
    | .error fault => .error fault
    | .ok (n, err) => ofIntervals start stop (toUInt32 n) (clearedFirst && err)

/-- The last test of `extendable_by`: the half of the distance leads on as the step does, twice. -/
def leadsTwice (half step : DateTimeDiff) (time : Int) : Bool :=
  plus (plus time half) half = plus time step || minus (minus time half) half = minus time step

/-- `extendable_by` -/
def extendableBy (s other : TimeSequence) : Except Fault Bool :=
  if other.duration = {} ∧ s.duration = {} then .ok true
  else if s.duration = other.duration then
    if other.stop ≠ s.stop ∨ other.start ≠ s.start then
      match computeNumberOfIntervals other.start s.start s.duration with
      | .error fault => .error fault
      | .ok (_, err) =>
        if !err && ((other.start ≤ plus s.stop s.duration && plus s.stop s.duration ≤ other.stop) ||
            (minus s.start s.duration ≤ other.stop && other.start ≤ minus s.start s.duration)) then .ok true
        else
          match divided other.start s.start 2 err with
          | .error fault => .error fault
          | .ok (half, err) => .ok (!err && leadsTwice half s.duration s.start && leadsTwice half s.duration s.stop)
    else .ok false
  else .ok false

/-- Both intervals put together -/
def union (s : TimeSequence) (start stop : Int) : Interval :=
  .of (if start < s.start then start else s.start) (if s.stop < stop then stop else s.stop)

/-- The intervals of the union are counted again. -/
def widen (s : TimeSequence) (start stop : Int) : Except Fault (TimeSequence × Bool × Bool) :=
  let interval := s.union start stop
  match computeNumberOfIntervals interval.start interval.stop s.duration with
  | .error fault => .error fault
  | .ok (n, err) =>
    .ok ({ s with start := interval.start, stop := interval.stop, intervals := toUInt32 n }, true, err)

/-- `extend_by_interval`: the sequence, what it returns, and the error code. -/
def extendByInterval (s : TimeSequence) (clearedFirst : Bool) (interval : Interval) :
    Except Fault (TimeSequence × Bool × Bool) :=
  match ofStep clearedFirst interval.start interval.stop s.duration with
  | .error fault => .error fault
  | .ok (_, false) => s.widen interval.start interval.stop
  | .ok (tmp, true) =>
    match s.extendableBy tmp with
    | .error fault => .error fault
    | .ok false => .ok (s, false, true)
    | .ok true => s.widen interval.start interval.stop

/-- `extend_by_sequence` -/
def extendBySequence (s sequence : TimeSequence) (err : Bool) : Except Fault (TimeSequence × Bool × Bool) :=
  match s.extendableBy sequence with
  | .error fault => .error fault
  | .ok false => .ok (s, false, err)
  | .ok true => s.widen sequence.start sequence.stop

/-! ## All or nothing -/

/-- What a sequence is extended by. -/
inductive Extension where
  | interval (interval : Interval) (clearedFirst : Bool)
  | sequence (sequence : TimeSequence)

/-- The call for an extension -/
def extendBy (s : TimeSequence) (err : Bool) : Extension → Except Fault (TimeSequence × Bool × Bool)
  | .interval interval clearedFirst => s.extendByInterval clearedFirst interval
  | .sequence sequence => s.extendBySequence sequence err

namespace Extension

/-- Where what is added begins -/
def start : Extension → Int
  | .interval added _ => added.start
  | .sequence added => added.start

/-- Where it ends -/
def stop : Extension → Int
  | .interval added _ => added.stop
  | .sequence added => added.stop

end Extension

/-- So many steps, whose products fit, lead from an interval's begin to its end, and they are counted: exactly where the
    exact count is right, and without an error where that is open, because the step has a field that is negative. -/
structure Counted (interval : Interval) (diff : DateTimeDiff) (n : UInt32) : Prop where
  multiplies : Multiplies diff (toInt32 n.toNat)
  leads : leadsTo interval.start diff (toInt32 n.toNat) = interval.stop
  zero : diff = {} → n = 0
  forward : diff.Nonneg → diff ≠ {} → interval.start < interval.stop ∧ CountExact interval.start interval.stop diff
  backward : ¬ diff.Nonneg → ∃ count, computeNumberOfIntervals interval.start interval.stop diff = .ok (count, false) ∧
    n ≠ toUInt32 (-1) ∧ toUInt32 count = n

section extend
variable {s s' : TimeSequence} {diff : DateTimeDiff} {start first stop time i j k : Int} {n : UInt32}
  {numbers : Int → Prop}

/-- So many steps that lead forward are not negative. -/
lemma leads_nonneg {interval : Interval} {number : Int} (forward : Forward diff)
    (leads : leadsTo interval.start diff number = interval.stop) : 0 ≤ number := by
  by_contra neg
  have earlier : leadsTo interval.start diff number < leadsTo interval.start diff 0 := leadsTo_lt forward (by omega)
  rw [leads, leadsTo_zero] at earlier
  exact absurd interval.ordered (not_le_of_gt earlier)

/-- The steps of an interval that is counted are not negative where they lead forward. -/
lemma Counted.nonneg {interval : Interval} (counted : Counted interval diff n) (nonneg : diff.Nonneg)
    (moves : diff ≠ {}) : 0 ≤ toInt32 n.toNat :=
  leads_nonneg (Forward.of_nonneg nonneg moves) counted.leads

end extend
end TimeSequence
end OsterLib.Types
