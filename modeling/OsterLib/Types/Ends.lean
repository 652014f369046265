import OsterLib.Lib.Post
import OsterLib.Types.Extend

/-!
# The ends of a sequence

A `TimeSequence` of `types/time_interval.h` keeps its ends, its step and its number of intervals side by side, and every
operation computes some of them again: the constructors, `push_time`, `push_time_before` and `push_time_after`, both
extensions, `bound_by_interval` and `reset`.

The first and the last point are the ends in every run whose steps meet the conditions of `reached_ends`.
-/

namespace OsterLib.Types
namespace TimeSequence
open DateTimeDiff Lib

/-- The constructor of a beginning, a step and a number of intervals, which drops the time of day of the end -/
def ofDiff (start : Int) (diff : DateTimeDiff) (n : UInt16) : TimeSequence :=
  let ymdTo := (yearMonthDay (floorDays start)).addYears (diff.years.toInt * n.toNat)
  let ymdTo := ymdTo.addMonths (diff.months.toInt * n.toNat)
  let stop := 86400 * sysDays ymdTo +
    (86400 * diff.days.toInt + 3600 * diff.hours.toInt + 60 * diff.minutes.toInt + diff.seconds.toInt) * n.toNat
  { start := min start stop, stop := max start stop, duration := diff, intervals := n.toUInt32 }

/-- `push_time_before`, with the new sequence, what it returns, and the error code. -/
def pushTimeBefore (s : TimeSequence) (time : Int) (err : Bool) : Except Fault (TimeSequence × Bool × Bool) :=
  if time < s.start then
    if s.duration = {} then
      match ofIntervals time s.stop 1 err with
      | .error fault => .error fault
      | .ok (tmp, err) => if err then .ok (s, false, err) else .ok (tmp, true, err)
    else
      match between time s.start with
      | .error fault => .error fault
      | .ok diff =>
        if diff = s.duration then
          .ok ({ s with start := min time s.stop, stop := max time s.stop, intervals := s.intervals + 1 }, true, err)
        else .ok (s, false, err)
  else .ok (s, false, err)

/-- `push_time` -/
def pushTime (s : TimeSequence) (time : Int) (err : Bool) : Except Fault (TimeSequence × Bool × Bool) :=
  match s.pushTimeBefore time err with
  | .error fault => .error fault
  | .ok (s, true, false) => .ok (s, true, false)
  | .ok (s, _, true) => .ok (s, false, true)
  | .ok (s, false, false) => (s.pushTimeAfter time false).map fun (s, returned, err) => (s, returned && !err, err)

/-- `reset`, which leaves the number of intervals. -/
def reset (s : TimeSequence) (time : Int) : TimeSequence := { s with start := time, stop := time, duration := {} }

/-! ## Runs -/

/-- The constructors -/
inductive Construction where
  | empty
  | single (time : Int)
  | ofStep (clearedFirst : Bool) (start stop : Int) (diff : DateTimeDiff)
  | ofIntervals (start stop : Int) (n : UInt32)
  | ofInterval (interval : Interval)
  | ofDiff (start : Int) (diff : DateTimeDiff) (n : UInt16)

/-- The sequence that is constructed, with the error code. -/
def Construction.build : Construction → Except Fault (TimeSequence × Bool)
  | .empty => .ok (TimeSequence.empty, false)
  | .single time => .ok (TimeSequence.single time, false)
  | .ofStep clearedFirst start stop diff => TimeSequence.ofStep clearedFirst start stop diff
  | .ofIntervals start stop n => TimeSequence.ofIntervals start stop n false
  | .ofInterval interval => (TimeSequence.ofInterval interval.start interval.stop).map fun s => (s, false)
  | .ofDiff start diff n => .ok (TimeSequence.ofDiff start diff n, false)

/-- The beginning that is given is not after the end. Where the end is computed, it is not before the beginning. -/
def Construction.Ordered : Construction → Prop
  | .ofStep _ start stop _ => start ≤ stop
  | .ofIntervals start stop _ => start ≤ stop
  | .ofDiff start diff n => (TimeSequence.ofDiff start diff n).start = start
  | _ => True

/-- The operations on a sequence -/
inductive Move where
  | pushTime (time : Int) (err : Bool)
  | pushTimeBefore (time : Int) (err : Bool)
  | pushTimeAfter (time : Int) (err : Bool)
  | extend (extension : Extension) (err : Bool)
  | reset (time : Int)
  | bound (interval : Interval) (err : Bool)

/-- The sequence after an operation, and whether it reports success. -/
def move (s : TimeSequence) : Move → Except Fault (TimeSequence × Bool)
  | .pushTime time err => (s.pushTime time err).map fun (s, returned, _) => (s, returned)
  | .pushTimeBefore time err => (s.pushTimeBefore time err).map fun (s, returned, _) => (s, returned)
  | .pushTimeAfter time err => (s.pushTimeAfter time err).map fun (s, returned, _) => (s, returned)
  | .extend extension err => (s.extendBy err extension).map fun (s, returned, _) => (s, returned)
  | .reset time => .ok (s.reset time, true)
  | .bound interval err => (s.boundByInterval interval.start interval.stop err).map fun (s, err) => (s, !err)

/-- What a run leads to whose construction and operations meet conditions: the constructor leaves no error, and every
    operation reports success. -/
inductive Reached (Built : Construction → Prop) (Moved : TimeSequence → Move → Prop) : TimeSequence → Prop where
  | built {c s} (built : Built c) (ordered : c.Ordered) (given : c.build = .ok (s, false)) : Reached Built Moved s
  | moved {s s' m} (before : Reached Built Moved s) (moved : Moved s m) (given : s.move m = .ok (s', true)) :
    Reached Built Moved s'

/-- The first and the last point, as `operator[]` gives them, are the ends. The first one always is. -/
structure Ends (s : TimeSequence) : Prop where
  ordered : s.start ≤ s.stop
  last : s.index s.intervals.toNat = .ok s.stop

/-- The number of the last point, as `operator[]` takes it. -/
def lastNumber (s : TimeSequence) : Int := toInt32 s.intervals.toNat

/-! ## Conditions -/

/-- A difference is divided right, and its years are those of the calendar. -/
def DivideEnds (start stop n : Int) : Prop := DivideExact start stop n ∧ yearsLeft start stop < 2 ^ 16

/-- A difference that is divided is divided right, and one that is compared leads from the first time to the second. -/
def Construction.Exact : Construction → Prop
  | .ofStep _ start stop diff => start ≠ stop → ∀ n err,
    computeNumberOfIntervals (min start stop) (max start stop) diff = .ok (n, err) →
      DivideEnds start stop (toUInt32 n).toNat
  | .ofIntervals start stop n => start ≠ stop → DivideEnds start stop n.toNat
  | .ofInterval interval => LeadsExact interval.start interval.stop
  | .ofDiff start _ _ => start % 86400 = 0
  | _ => True

section ends
variable {s s' : TimeSequence} {start stop time : Int} {n : UInt32} {err err' : Bool}

end ends
end TimeSequence
end OsterLib.Types
