import OsterLib.Lib.Plane
import Mathlib.Algebra.Order.Field.Rat
import Mathlib.Data.Rat.Lemmas

/-!
# Lines

`cross` and `on_segment` of `algorithms.h`, and `intersects` and `intersections` of two lines of `Line.h`. A
`BasicLine` is a segment between two points. Coordinates are rational, and arithmetic on them is exact.

`intersects` is exact (`intersects_exact`), also for lines of a single point and for two lines on top of each other.
`intersections` finds the common point of two lines that are not nearly parallel.
-/

namespace OsterLib.Geometry
open OsterLib.Lib

/-- A point of the plane -/
abbrev Point := ℚ × ℚ

/-- `BasicLine` -/
structure Line where
  first : Point
  second : Point
  deriving DecidableEq

/-- The segment between the points of a line, with its ends -/
def Line.points (l : Line) : Set Point := segment ℚ l.first l.second

/-- `cross` -/
def cross (a b c : Point) : ℚ := (b.1 - a.1) * (c.2 - a.2) - (b.2 - a.2) * (c.1 - a.1)

/-- `on_segment`, which compares with the bounding box only -/
def onSegment (first second toCheck : Point) : Bool :=
  (min first.1 second.1 ≤ toCheck.1 && toCheck.1 ≤ max first.1 second.1) &&
    (min first.2 second.2 ≤ toCheck.2 && toCheck.2 ≤ max first.2 second.2)

/-- `intersects` -/
def intersects (l1 l2 : Line) : Bool :=
  let d1 := cross l1.first l1.second l2.first
  let d2 := cross l1.first l1.second l2.second
  let d3 := cross l2.first l2.second l1.first
  let d4 := cross l2.first l2.second l1.second
  if ((d1 > 0 ∧ d2 < 0) ∨ (d1 < 0 ∧ d2 > 0)) ∧ ((d3 > 0 ∧ d4 < 0) ∨ (d3 < 0 ∧ d4 > 0)) then true
  else if d1 = 0 ∧ onSegment l1.first l1.second l2.first then true
  else if d2 = 0 ∧ onSegment l1.first l1.second l2.second then true
  else if d3 = 0 ∧ onSegment l2.first l2.second l1.first then true
  else if d4 = 0 ∧ onSegment l2.first l2.second l1.second then true
  else false

/-- The cross product is the orientation. -/
lemma cross_eq (a b c : Point) : cross a b c = orient a b c := rfl

/-- The test of the bounding box is made on the points of the line only. -/
lemma onSegment_iff {first second toCheck : Point} :
    cross first second toCheck = 0 ∧ onSegment first second toCheck = true ↔
      toCheck ∈ segment ℚ first second := by
  rw [mem_segment_iff, cross_eq, onSegment]
  simp only [Bool.and_eq_true, decide_eq_true_eq, InBox]

/-- The segments of two lines have a common point. -/
def Meet (l1 l2 : Line) : Prop := (l1.points ∩ l2.points).Nonempty

/-- A branch that returns `true`, or what follows it -/
lemma or_else_iff {p : Prop} [Decidable p] {b : Bool} : (if p then true else b) = true ↔ p ∨ b = true := by
  rw [Bool.if_true_left, Bool.or_eq_true, decide_eq_true_iff]

/-- The code finds an intersection exactly where the segments meet. -/
lemma intersects_iff {l1 l2 : Line} : intersects l1 l2 = true ↔ Meet l1 l2 := by
  unfold Meet Line.points intersects
  rw [segments_meet_iff, ← onSegment_iff, ← onSegment_iff, ← onSegment_iff, ← onSegment_iff]
  rw [or_else_iff, or_else_iff, or_else_iff, or_else_iff, or_else_iff, or_assoc]
  rw [or_iff_left Bool.false_ne_true]
  rfl

/-- `intersects` is true exactly where the closed segments have a common point. -/
theorem intersects_exact (l1 l2 : Line) :
    intersects l1 l2 = true ↔ ∃ p, p ∈ segment ℚ l1.first l1.second ∧ p ∈ segment ℚ l2.first l2.second :=
  intersects_iff

/-! ## Common points -/

/-- A common point, with the segments of both that it is on -/
structure Intersection where
  point : Point
  firstElemId : Nat
  secondElemId : Nat
  deriving DecidableEq

namespace Line
variable {first second : Line}

/-- The scale against which lines are nearly parallel -/
def scale (first second : Line) : ℚ :=
  max |first.second.1 - first.first.1| |first.second.2 - first.first.2| *
    max |second.second.1 - second.first.1| |second.second.2 - second.first.2|

/-- The denominator of the parameters -/
def denominator (first second : Line) : ℚ :=
  (second.second.2 - second.first.2) * (first.second.1 - first.first.1) -
    (second.second.1 - second.first.1) * (first.second.2 - first.first.2)

/-- What `intersections` takes for parallel -/
def NearlyParallel (first second : Line) : Prop :=
  scale first second = 0 ∨ |denominator first second| < 1 / 1000000000000 * scale first second

instance (first second : Line) : Decidable (NearlyParallel first second) :=
  inferInstanceAs (Decidable (_ ∨ _))

/-- `intersections` of two lines, which are two objects -/
def intersections (first second : Line) : List Intersection :=
  if NearlyParallel first second then []
  else
    let uA := ((second.second.1 - second.first.1) * (first.first.2 - second.first.2) -
      (second.second.2 - second.first.2) * (first.first.1 - second.first.1)) / denominator first second
    [⟨(first.first.1 + uA * (first.second.1 - first.first.1), first.first.2 + uA * (first.second.2 - first.first.2)),
      0, 0⟩]

/-- The common point of the straight lines through two lines -/
def meeting (first second : Line) : Point := Lib.meeting first.first first.second second.first second.second

/-- The side of a line on which a point is: positive to the left of it, and zero on it -/
def side (line : Line) (p : Point) : ℚ := cross line.first line.second p

/-- Two lines cross: each has its ends on different sides of the other. -/
def Cross (first second : Line) : Prop :=
  Across (first.side second.first) (first.side second.second) ∧
    Across (second.side first.first) (second.side first.second)

/-- The denominator is the skew of both directions. -/
lemma denominator_eq : denominator first second = skew first.first first.second second.first second.second := by
  unfold denominator skew orient
  ring

/-- Lines that are not nearly parallel meet in one point. -/
lemma intersections_eq (crossing : ¬NearlyParallel first second) :
    intersections first second = [⟨meeting first second, 0, 0⟩] := by
  rw [intersections, if_neg crossing, denominator_eq]
  rfl

/-- Lines that are not nearly parallel have a denominator. -/
lemma denominator_ne_zero (crossing : ¬NearlyParallel first second) : denominator first second ≠ 0 := by
  intro zero
  obtain ⟨notZero, far⟩ := not_or.mp crossing
  have pos : 0 < scale first second := by
    apply lt_of_le_of_ne _ (Ne.symm notZero)
    exact mul_nonneg (le_max_of_le_left (abs_nonneg _)) (le_max_of_le_left (abs_nonneg _))
  rw [zero, abs_zero] at far
  exact far (mul_pos (by norm_num) pos)

/-- The common point that is found is on the second line. -/
lemma side_meeting (crossing : ¬NearlyParallel first second) : second.side (meeting first second) = 0 :=
  orient_meeting (denominator_eq ▸ denominator_ne_zero crossing)

/-- The point of a crossing is on both segments. -/
lemma Cross.meeting_mem (cross : first.Cross second) : meeting first second ∈ first.points ∩ second.points := by
  obtain ⟨apart, apart'⟩ := cross
  constructor
  · exact Lib.meeting_mem apart'
  · unfold meeting points
    rw [meeting_comm apart'.sub_ne_zero]
    exact Lib.meeting_mem apart

/-- Lines with both ends on one side of another have no common point with it. -/
lemma not_meet_of_side {s : Bool} (one : decide (0 < second.side first.first) = s)
    (other : decide (0 < second.side first.second) = s) (off : second.side first.first ≠ 0)
    (off' : second.side first.second ≠ 0) : ¬Meet first second := by
  rintro ⟨p, on, on'⟩
  obtain ⟨t, low, high, rfl⟩ := mem_segment_iff_along.mp on
  have zero : (1 - t) * second.side first.first + t * second.side first.second = 0 := by
    have line := (mem_segment_iff.mp on').1
    rwa [orient_along] at line
  cases s with
  | true =>
    have pos := weighted_pos low high (of_decide_eq_true one) (of_decide_eq_true other)
    linarith
  | false =>
    have neg := lt_of_le_of_ne (not_lt.mp (of_decide_eq_false one)) off
    have neg' := lt_of_le_of_ne (not_lt.mp (of_decide_eq_false other)) off'
    have pos := weighted_pos low high (neg_pos.mpr neg) (neg_pos.mpr neg')
    linarith

end Line

end OsterLib.Geometry
