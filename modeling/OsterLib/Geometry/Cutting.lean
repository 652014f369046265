import OsterLib.Geometry.Polyline
import OsterLib.Lib.Run

/-!
# Lines and polylines against each other

`cut` of two lines of `Line.h`, and `intersections` and `cut` of two polylines of `Polyline.h`.

Of a line, `cut` keeps the part on one side of the other line, unless no point is there, the lines are nearly parallel,
or the line goes from a point on the other one to the right of it (`cut_halfPlane_iff`). `intersections` of two
polylines finds every common point of two segments that are not nearly parallel, and no other point, in the order of
the segments (`intersections_between`). What `cut` makes of them are points of the polyline in their order. Each piece
ends with a crossing, and what is behind the last one is in no piece (`cut_in_order`).
-/

namespace OsterLib.Geometry
open OsterLib.Lib

/-! ## Two lines -/

namespace Line
variable {first second cutted cutting : Line} {leftForward : Bool}

/-- `cut` of two lines -/
def cut (cutted cutting : Line) (leftForward : Bool) : List Line :=
  match intersections cutted cutting with
  | [] => [cutted]
  | front :: _ =>
    if !onSegment cutted.first cutted.second front.point then [cutted]
    else
      let side := cross cutting.first cutting.second cutted.first
      if leftForward then
        if side > 0 then [⟨front.point, cutted.first⟩] else [⟨cutted.second, front.point⟩]
      else if side > 0 then [⟨cutted.second, front.point⟩]
      else [⟨front.point, cutted.first⟩]

/-- The point is on the side of the line that the call keeps, or on the line. -/
def Keeps (cutting : Line) (leftForward : Bool) (p : Point) : Prop :=
  if leftForward then 0 ≤ cutting.side p else cutting.side p ≤ 0

/-- The pieces have the points of the line that are to be kept, and no others. -/
def Halves (cutted cutting : Line) (leftForward : Bool) : Prop :=
  ∀ p, (∃ piece ∈ cut cutted cutting leftForward, p ∈ piece.points) ↔
    p ∈ cutted.points ∧ Keeps cutting leftForward p

/-- Lines that are not nearly parallel are not parallel. -/
lemma skew_ne_zero (crossing : ¬NearlyParallel first second) :
    skew first.first first.second second.first second.second ≠ 0 :=
  denominator_eq ▸ denominator_ne_zero crossing

/-- Lines that are not nearly parallel have one common point at most, which is found. -/
lemma eq_meeting (crossing : ¬NearlyParallel first second) {p : Point} (on : p ∈ first.points)
    (on' : p ∈ second.points) : p = meeting first second := by
  obtain ⟨t, -, -, rfl⟩ := mem_segment_iff_along.mp on
  exact Lib.eq_meeting (skew_ne_zero crossing) (mem_segment_iff.mp on').1

/-- How far on the way the common point is -/
def reach (cutted cutting : Line) : ℚ :=
  cutting.side cutted.first / (cutting.side cutted.first - cutting.side cutted.second)

/-- The ends of a line that crosses are at different distances from the other one. -/
lemma side_ne (crossing : ¬NearlyParallel cutted cutting) :
    cutting.side cutted.first - cutting.side cutted.second ≠ 0 :=
  skew_ne_zero crossing

/-- A line that crosses has a length. -/
lemma ends_ne (crossing : ¬NearlyParallel cutted cutting) : cutted.first ≠ cutted.second := by
  intro same
  apply side_ne crossing
  rw [same, sub_self]

/-- The crossing is at its place along the line. -/
lemma meeting_along (cutted cutting : Line) :
    meeting cutted cutting = along cutted.first cutted.second (reach cutted cutting) := rfl

/-- The common point is on the line where the ends are on different sides, or one of them is on the other line. -/
lemma onSegment_meeting (crossing : ¬NearlyParallel cutted cutting) :
    onSegment cutted.first cutted.second (meeting cutted cutting) = true ↔
      0 ≤ reach cutted cutting ∧ reach cutted cutting ≤ 1 := by
  have line : cross cutted.first cutted.second (meeting cutted cutting) = 0 := by
    rw [cross_eq, meeting_along, orient_along, orient_first, orient_second, mul_zero, mul_zero, add_zero]
  have between := along_mem_iff (ends_ne crossing) (s := 0) (r := 1) (t := reach cutted cutting)
  rw [along_zero, along_one, min_eq_left zero_le_one, max_eq_right zero_le_one, ← meeting_along,
    ← onSegment_iff] at between
  rw [← between]
  exact (and_iff_right line).symm

/-- The side changes linearly along the line. -/
lemma side_along (t : ℚ) : cutting.side (along cutted.first cutted.second t) =
    (1 - t) * cutting.side cutted.first + t * cutting.side cutted.second :=
  orient_along t

/-- The points of a line are those at places from zero to one. -/
lemma mem_points_iff {p : Point} : p ∈ cutted.points ↔ ∃ t, 0 ≤ t ∧ t ≤ 1 ∧ p = along cutted.first cutted.second t :=
  mem_segment_iff_along

/-- All of a line is kept exactly if both of its ends are to be kept. -/
lemma halves_whole (whole : cut cutted cutting leftForward = [cutted]) :
    Halves cutted cutting leftForward ↔
      Keeps cutting leftForward cutted.first ∧ Keeps cutting leftForward cutted.second := by
  unfold Halves
  rw [whole]
  simp only [List.mem_singleton, exists_eq_left]
  constructor
  · intro halves
    exact ⟨((halves _).mp (left_mem_segment ℚ _ _)).2, ((halves _).mp (right_mem_segment ℚ _ _)).2⟩
  · rintro ⟨first, second⟩ p
    refine ⟨fun on => ⟨on, ?_⟩, And.left⟩
    obtain ⟨t, low, high, rfl⟩ := mem_points_iff.mp on
    have rest : 0 ≤ 1 - t := sub_nonneg.mpr high
    unfold Keeps at first second ⊢
    rw [side_along]
    cases leftForward with
    | true =>
      rw [if_pos rfl] at first second ⊢
      exact add_nonneg (mul_nonneg rest first) (mul_nonneg low second)
    | false =>
      rw [if_neg Bool.false_ne_true] at first second ⊢
      exact add_nonpos (mul_nonpos_of_nonneg_of_nonpos rest first) (mul_nonpos_of_nonneg_of_nonpos low second)

/-- A part of a line, between two of its points -/
lemma halves_part {s r : ℚ} (crossing : ¬NearlyParallel cutted cutting)
    (part : cut cutted cutting leftForward =
      [⟨along cutted.first cutted.second s, along cutted.first cutted.second r⟩])
    (low : 0 ≤ min s r) (high : max s r ≤ 1) :
    Halves cutted cutting leftForward ↔ ∀ t, 0 ≤ t → t ≤ 1 →
      ((min s r ≤ t ∧ t ≤ max s r) ↔ Keeps cutting leftForward (along cutted.first cutted.second t)) := by
  have differ := ends_ne crossing
  unfold Halves
  rw [part]
  simp only [List.mem_singleton, exists_eq_left, points]
  constructor
  · intro halves t low' high'
    rw [← along_mem_iff differ, halves]
    exact and_iff_right (mem_segment_iff_along.mpr ⟨t, low', high', rfl⟩)
  · intro parts p
    constructor
    · intro on
      obtain ⟨u, -, -, rfl⟩ := mem_segment_iff_along.mp on
      rw [along_along] at on ⊢
      have between := (along_mem_iff differ).mp on
      have low' := le_trans low between.1
      have high' := le_trans between.2 high
      exact ⟨mem_segment_iff_along.mpr ⟨_, low', high', rfl⟩, (parts _ low' high').mp between⟩
    · rintro ⟨on, keeps⟩
      obtain ⟨t, low', high', rfl⟩ := mem_segment_iff_along.mp on
      exact (along_mem_iff differ).mpr ((parts t low' high').mpr keeps)

/-- Where the common point is out of reach, both ends are on the same side. -/
lemma same_side (crossing : ¬NearlyParallel cutted cutting)
    (out : ¬(0 ≤ reach cutted cutting ∧ reach cutted cutting ≤ 1)) (leftForward : Bool) :
    cutting.side cutted.first ≠ 0 ∧
      (Keeps cutting leftForward cutted.first ↔ Keeps cutting leftForward cutted.second) := by
  have differ := side_ne crossing
  unfold reach at out
  unfold Keeps
  generalize cutting.side cutted.first = x at out differ ⊢
  generalize cutting.side cutted.second = y at out differ ⊢
  rcases lt_trichotomy x 0 with neg | rfl | pos
  · have neg' : y < 0 := by
      by_contra other
      have le := not_lt.mp other
      exact out ⟨div_nonneg_of_nonpos neg.le (by linarith), (div_le_one_of_neg (by linarith)).mpr (by linarith)⟩
    refine ⟨neg.ne, ?_⟩
    cases leftForward with
    | true => exact iff_of_false (not_le.mpr neg) (not_le.mpr neg')
    | false => exact iff_of_true neg.le neg'.le
  · rw [zero_div] at out
    exact absurd ⟨le_rfl, zero_le_one⟩ out
  · have pos' : 0 < y := by
      by_contra other
      have le := not_lt.mp other
      exact out ⟨div_nonneg pos.le (by linarith), (div_le_one (by linarith)).mpr (by linarith)⟩
    refine ⟨pos.ne', ?_⟩
    cases leftForward with
    | true => exact iff_of_true pos.le pos'.le
    | false => exact iff_of_false (not_le.mpr pos) (not_le.mpr pos')

/-- The side of a point, by its place before or behind the crossing -/
lemma side_reach (crossing : ¬NearlyParallel cutted cutting) (t : ℚ) :
    cutting.side (along cutted.first cutted.second t) =
      (cutting.side cutted.first - cutting.side cutted.second) * (reach cutted cutting - t) := by
  have differ := side_ne crossing
  rw [side_along]
  unfold reach
  field_simp
  ring

/-- Where it is within reach, they are not. -/
lemma reached_signs (crossing : ¬NearlyParallel cutted cutting)
    (within : 0 ≤ reach cutted cutting ∧ reach cutted cutting ≤ 1) :
    cutting.side cutted.first * cutting.side cutted.second ≤ 0 := by
  have first := side_reach crossing 0
  have second := side_reach crossing 1
  rw [along_zero, sub_zero] at first
  rw [along_one] at second
  generalize cutting.side cutted.first - cutting.side cutted.second = difference at first second
  rw [first, second, mul_mul_mul_comm]
  refine mul_nonpos_of_nonneg_of_nonpos (mul_self_nonneg _) (mul_nonpos_of_nonneg_of_nonpos within.1 ?_)
  exact sub_nonpos.mpr within.2

/-- What is returned where the common point is within reach -/
lemma cut_eq (crossing : ¬NearlyParallel cutted cutting)
    (within : 0 ≤ reach cutted cutting ∧ reach cutted cutting ≤ 1) (leftForward : Bool) :
    cut cutted cutting leftForward =
      if leftForward = decide (0 < cutting.side cutted.first) then [⟨meeting cutted cutting, cutted.first⟩]
      else [⟨cutted.second, meeting cutted cutting⟩] := by
  have on := (onSegment_meeting crossing).mpr within
  unfold cut
  rw [intersections_eq crossing]
  dsimp only
  rw [on, Bool.not_true, if_neg Bool.false_ne_true]
  change (if leftForward = true then if cutting.side cutted.first > 0 then _ else _
    else if cutting.side cutted.first > 0 then _ else _) = _
  by_cases pos : 0 < cutting.side cutted.first
  · rw [if_pos pos, if_pos pos, decide_eq_true pos]
  · rw [if_neg pos, if_neg pos, decide_eq_false pos]
    cases leftForward with
    | true => rfl
    | false => rfl

/-- A negative factor turns the sign round. -/
lemma mul_signs {x : ℚ} (neg : x < 0) (y : ℚ) : (0 ≤ x * y ↔ y ≤ 0) ∧ (x * y ≤ 0 ↔ 0 ≤ y) := by
  have pos : 0 < -x := neg_pos.mpr neg
  constructor
  · rw [← neg_mul_neg, mul_nonneg_iff_of_pos_left pos, neg_nonneg]
  · rw [← neg_nonneg, ← neg_mul, mul_nonneg_iff_of_pos_left pos]

/-- The half of a line that crosses the other one, or comes from it. -/
lemma halves_reached (crossing : ¬NearlyParallel cutted cutting)
    (within : 0 ≤ reach cutted cutting ∧ reach cutted cutting ≤ 1) :
    Halves cutted cutting leftForward ↔ (cutting.side cutted.first = 0 → 0 < cutting.side cutted.second) := by
  have differ := side_ne crossing
  have returned := cut_eq crossing within leftForward
  have first : cutted.first = along cutted.first cutted.second 0 := along_zero.symm
  have second : cutted.second = along cutted.first cutted.second 1 := along_one.symm
  obtain ⟨low, high⟩ := within
  have front (kept : cut cutted cutting leftForward = [⟨meeting cutted cutting, cutted.first⟩]) :
      Halves cutted cutting leftForward ↔ ∀ t, 0 ≤ t → t ≤ 1 → (t ≤ reach cutted cutting ↔
        Keeps cutting leftForward (along cutted.first cutted.second t)) := by
    rw [halves_part (s := reach cutted cutting) (r := 0) crossing (by rw [kept, ← meeting_along, along_zero])
      (le_min low le_rfl) (max_le high zero_le_one), min_eq_right low, max_eq_left low]
    exact forall₃_congr fun t low' _ => by rw [and_iff_right low']
  have back (kept : cut cutted cutting leftForward = [⟨cutted.second, meeting cutted cutting⟩]) :
      Halves cutted cutting leftForward ↔ ∀ t, 0 ≤ t → t ≤ 1 → (reach cutted cutting ≤ t ↔
        Keeps cutting leftForward (along cutted.first cutted.second t)) := by
    rw [halves_part (s := 1) (r := reach cutted cutting) crossing (by rw [kept, ← meeting_along, along_one])
      (le_min zero_le_one low) (max_le le_rfl high), min_eq_right high, max_eq_left high]
    exact forall₃_congr fun t _ high' => by rw [and_iff_left high']
  unfold Keeps at front back
  simp only [side_reach crossing] at front back
  rcases lt_trichotomy (cutting.side cutted.first) 0 with neg | zero | pos
  · -- the line comes from the right
    have negative : cutting.side cutted.first - cutting.side cutted.second < 0 := by
      refine lt_of_le_of_ne (not_lt.mp fun positive => ?_) differ
      exact absurd low (not_le.mpr (div_neg_of_neg_of_pos neg positive))
    rw [iff_true_right fun zero => absurd zero neg.ne]
    rw [decide_eq_false (not_lt.mpr neg.le)] at returned
    cases leftForward with
    | true =>
      rw [back returned]
      intro t _ _
      rw [if_pos rfl, (mul_signs negative _).1, sub_nonpos]
    | false =>
      rw [front returned]
      intro t _ _
      rw [if_neg Bool.false_ne_true, (mul_signs negative _).2, sub_nonneg]
  · -- the line comes from a point on the other one
    have start : reach cutted cutting = 0 := by rw [reach, zero, zero_div]
    rw [decide_eq_false (not_lt.mpr zero.le)] at returned
    rw [zero, zero_sub] at differ front back
    rw [start] at front back
    rw [forall_prop_of_true zero]
    cases leftForward with
    | true =>
      rw [back returned]
      constructor
      · intro halves
        have last := (halves 1 zero_le_one le_rfl).mp zero_le_one
        rw [if_pos rfl] at last
        exact lt_of_le_of_ne (by linarith) (Ne.symm (neg_ne_zero.mp differ))
      · intro pos t low' _
        rw [if_pos rfl, (mul_signs (neg_lt_zero.mpr pos) _).1, zero_sub, neg_nonpos]
    | false =>
      rw [front returned]
      constructor
      · intro halves
        by_contra other
        have last := (halves 1 zero_le_one le_rfl).mpr (by rw [if_neg Bool.false_ne_true]; linarith)
        linarith
      · intro pos t low' _
        rw [if_neg Bool.false_ne_true, (mul_signs (neg_lt_zero.mpr pos) _).2, sub_nonneg]
  · -- the line comes from the left
    have positive : cutting.side cutted.first - cutting.side cutted.second < 0 → False := fun negative =>
      absurd low (not_le.mpr (div_neg_of_pos_of_neg pos negative))
    have positive := lt_of_le_of_ne (not_lt.mp positive) (Ne.symm differ)
    have opposite := mul_signs (neg_lt_zero.mpr positive)
    rw [iff_true_right fun zero => absurd zero pos.ne']
    rw [decide_eq_true pos] at returned
    cases leftForward with
    | true =>
      rw [front returned]
      intro t _ _
      rw [if_pos rfl, mul_nonneg_iff_of_pos_left positive, sub_nonneg]
    | false =>
      rw [back returned]
      intro t _ _
      rw [if_neg Bool.false_ne_true, ← neg_nonneg, ← neg_mul, (opposite _).1, sub_nonpos]

/-- `cut` keeps the points of one half plane exactly if the line has an end there, or both ends where it is nearly
    parallel to the other line, and does not come from a point on the other line to the right of it. -/
theorem cut_halfPlane_iff (cutted cutting : Line) (leftForward : Bool) :
    Halves cutted cutting leftForward ↔
      (Keeps cutting leftForward cutted.first ∨ Keeps cutting leftForward cutted.second) ∧
        if NearlyParallel cutted cutting then
          Keeps cutting leftForward cutted.first ∧ Keeps cutting leftForward cutted.second
        else cutting.side cutted.first = 0 → 0 < cutting.side cutted.second := by
  by_cases parallel : NearlyParallel cutted cutting
  · have whole : cut cutted cutting leftForward = [cutted] := by
      unfold cut
      rw [intersections, if_pos parallel]
    rw [if_pos parallel, halves_whole whole]
    exact ⟨fun both => ⟨.inl both.1, both⟩, And.right⟩
  · rw [if_neg parallel]
    by_cases within : 0 ≤ reach cutted cutting ∧ reach cutted cutting ≤ 1
    · rw [halves_reached parallel within]
      refine (and_iff_right ?_).symm
      have product := reached_signs parallel within
      unfold Keeps
      by_contra none
      cases leftForward with
      | true =>
        rw [if_pos rfl, if_pos rfl, not_or, not_le, not_le] at none
        exact absurd product (not_le.mpr (mul_pos_of_neg_of_neg none.1 none.2))
      | false =>
        rw [if_neg Bool.false_ne_true, if_neg Bool.false_ne_true, not_or, not_le, not_le] at none
        exact absurd product (not_le.mpr (mul_pos none.1 none.2))
    · have whole : cut cutted cutting leftForward = [cutted] := by
        unfold cut
        rw [intersections_eq parallel]
        dsimp only
        rw [if_pos (by rw [Bool.not_eq_true', ← Bool.not_eq_true, onSegment_meeting parallel]; exact within)]
      obtain ⟨away, same⟩ := same_side parallel within leftForward
      rw [halves_whole whole, same, and_self, or_self]
      exact (and_iff_left fun zero => absurd zero away).symm

end Line

/-! ## The common points of two polylines -/

namespace Polyline

/-- Segment `i` of a polyline -/
def segment (pl : Polyline) (i : Nat) : Line := ⟨pl.vertices.getD i 0, pl.vertices.getD (i + 1) 0⟩

/-- A turn of the inner loop of `intersections`, for segment `i` of one polyline and segment `j` of the other -/
def collect (pl1 pl2 : Polyline) (i : Nat) (result : List Intersection) (j : Nat) : List Intersection :=
  let l1 := pl1.segment i
  let l2 := pl2.segment j
  if intersects l1 l2 then
    match l1.intersections l2 with
    | [] => result
    | found :: _ =>
      match result.getLast?, result.head? with
      | some back, some front =>
        if back.point ≠ found.point ∧ front.point ≠ found.point then result ++ [⟨found.point, i, j⟩] else result
      | _, _ => result ++ [⟨found.point, i, j⟩]
  else result

/-- `intersections` of two polylines, before they are sorted -/
def collectAll (pl1 pl2 : Polyline) : List Intersection :=
  countedLoop (fun result i => countedLoop (collect pl1 pl2 i) pl2.numberSegments result) pl1.numberSegments []

/-- The comparison that the crossings are sorted by -/
def inFront (lhs rhs : Intersection) : Bool :=
  if lhs.firstElemId = rhs.firstElemId then lhs.secondElemId < rhs.secondElemId else lhs.firstElemId < rhs.firstElemId

/-- `intersections` of two polylines -/
def intersectionsBetween (pl1 pl2 : Polyline) : List Intersection :=
  if pl2.vertices = [] ∨ pl1.vertices = [] then []
  else (collectAll pl1 pl2).mergeSort fun lhs rhs => !inFront rhs lhs

variable {pl1 pl2 : Polyline} {i j : Nat} {p : Point} {result : List Intersection}

/-- Segments `i` and `j` are not nearly parallel, and `p` is a point of both. -/
structure Common (pl1 pl2 : Polyline) (i j : Nat) (p : Point) : Prop where
  first : i < pl1.numberSegments
  second : j < pl2.numberSegments
  crossing : ¬(pl1.segment i).NearlyParallel (pl2.segment j)
  on : p ∈ (pl1.segment i).points ∩ (pl2.segment j).points

/-- The crossings are common points of segments with the property, in the order of the segments, and each such common
    point is the point of one of them, at these segments or before. -/
structure Finds (pl1 pl2 : Polyline) (P : Nat → Nat → Prop) (result : List Intersection) : Prop where
  sorted : result.Pairwise fun lhs rhs => inFront lhs rhs = true
  sound : ∀ is ∈ result, Common pl1 pl2 is.firstElemId is.secondElemId is.point ∧ P is.firstElemId is.secondElemId
  complete : ∀ i j p, P i j → Common pl1 pl2 i j p → ∃ is ∈ result, is.point = p ∧ inFront ⟨p, i, j⟩ is = false

/-- One intersection is in front of another by its segments. -/
lemma inFront_iff (lhs rhs : Intersection) : inFront lhs rhs = true ↔
    lhs.firstElemId < rhs.firstElemId ∨ (lhs.firstElemId = rhs.firstElemId ∧ lhs.secondElemId < rhs.secondElemId) := by
  unfold inFront
  split
  · rw [decide_eq_true_iff]
    omega
  · rw [decide_eq_true_iff]
    omega

/-- A turn adds the common point of its segments, unless a crossing has it. -/
lemma collect_cases (pl1 pl2 : Polyline) (i j : Nat) (result : List Intersection) :
    (collect pl1 pl2 i result j = result ∧ ∀ p, Common pl1 pl2 i j p → ∃ is ∈ result, is.point = p) ∨
      (Meet (pl1.segment i) (pl2.segment j) ∧ ¬(pl1.segment i).NearlyParallel (pl2.segment j) ∧
        collect pl1 pl2 i result j = result ++ [⟨(pl1.segment i).meeting (pl2.segment j), i, j⟩]) := by
  unfold collect
  dsimp only
  by_cases meets : intersects (pl1.segment i) (pl2.segment j) = true
  · rw [if_pos meets]
    have meet := intersects_iff.mp meets
    by_cases parallel : (pl1.segment i).NearlyParallel (pl2.segment j)
    · rw [Line.intersections, if_pos parallel]
      exact .inl ⟨rfl, fun p common => absurd parallel common.crossing⟩
    · rw [Line.intersections_eq parallel]
      dsimp only
      have at_ {p : Point} (common : Common pl1 pl2 i j p) : (pl1.segment i).meeting (pl2.segment j) = p :=
        (Line.eq_meeting parallel common.on.1 common.on.2).symm
      cases back : result.getLast? with
      | none => exact .inr ⟨meet, parallel, rfl⟩
      | some last =>
        cases front : result.head? with
        | none => exact .inr ⟨meet, parallel, rfl⟩
        | some first =>
          dsimp only
          split
          · exact .inr ⟨meet, parallel, rfl⟩
          · rename_i known
            refine .inl ⟨rfl, fun p common => ?_⟩
            rw [at_ common] at known
            by_cases same : last.point = p
            · exact ⟨last, List.mem_of_getLast? back, same⟩
            · exact ⟨first, List.mem_of_head? front, not_not.mp fun other => known ⟨same, other⟩⟩
  · rw [if_neg meets]
    exact .inl ⟨rfl, fun p common => absurd (intersects_iff.mpr ⟨p, common.on⟩) meets⟩

/-- The segments that the loops have been at before segments `i` and `j` -/
def Before (i j i' j' : Nat) : Prop := i' < i ∨ (i' = i ∧ j' < j)

/-- What is found before is in front. -/
lemma Before.inFront {is : Intersection} (before : Before i j is.firstElemId is.secondElemId) :
    Polyline.inFront is ⟨p, i, j⟩ = true :=
  (inFront_iff _ _).mpr before

/-- What is found later is not in front of it. -/
lemma Before.not_behind {is : Intersection} (before : Before i j is.firstElemId is.secondElemId) :
    Polyline.inFront ⟨p, i, j⟩ is = false := by
  rw [← Bool.not_eq_true, inFront_iff]
  cases before with
  | inl less => exact fun front => front.elim (Nat.lt_asymm less) fun same => Nat.ne_of_gt less same.1
  | inr same => exact fun front => front.elim (Nat.ne_of_gt · same.1) fun less => Nat.lt_asymm same.2 less.2

/-- One more pair of segments is before. -/
lemma before_succ {i' j' : Nat} : Before i (j + 1) i' j' ↔ Before i j i' j' ∨ (i' = i ∧ j' = j) := by
  unfold Before
  omega

/-- A turn of the loop finds the crossing of its pair of segments. -/
lemma Finds.turn (finds : Finds pl1 pl2 (Before i j) result) (first : i < pl1.numberSegments)
    (second : j < pl2.numberSegments) : Finds pl1 pl2 (Before i (j + 1)) (collect pl1 pl2 i result j) := by
  rcases collect_cases pl1 pl2 i j result with ⟨same, known⟩ | ⟨⟨q, on, on'⟩, crossing, new⟩
  · rw [same]
    refine ⟨finds.sorted, fun is mem => ?_, fun i' j' p before common => ?_⟩
    · obtain ⟨common, before⟩ := finds.sound is mem
      exact ⟨common, before_succ.mpr (.inl before)⟩
    · cases before_succ.mp before with
      | inl before => exact finds.complete i' j' p before common
      | inr here =>
        obtain ⟨rfl, rfl⟩ := here
        obtain ⟨is, mem, found⟩ := known p common
        exact ⟨is, mem, found, (finds.sound is mem).2.not_behind⟩
  · have meeting : q = (pl1.segment i).meeting (pl2.segment j) := Line.eq_meeting crossing on on'
    subst meeting
    rw [new]
    refine ⟨?_, fun is mem => ?_, fun i' j' p before common => ?_⟩
    · refine List.pairwise_append.mpr ⟨finds.sorted, List.pairwise_singleton _ _, fun is mem last last_mem => ?_⟩
      rw [List.mem_singleton.mp last_mem]
      exact (finds.sound is mem).2.inFront
    · cases List.mem_append.mp mem with
      | inl mem =>
        obtain ⟨common, before⟩ := finds.sound is mem
        exact ⟨common, before_succ.mpr (.inl before)⟩
      | inr mem =>
        rw [List.mem_singleton.mp mem]
        exact ⟨⟨first, second, crossing, on, on'⟩, before_succ.mpr (.inr ⟨rfl, rfl⟩)⟩
    · cases before_succ.mp before with
      | inl before =>
        obtain ⟨is, mem, found⟩ := finds.complete i' j' p before common
        exact ⟨is, List.mem_append_left _ mem, found⟩
      | inr here =>
        obtain ⟨rfl, rfl⟩ := here
        refine ⟨_, List.mem_append_right _ (List.mem_singleton_self _), ?_, ?_⟩
        · exact (Line.eq_meeting crossing common.on.1 common.on.2).symm
        · rw [← Bool.not_eq_true, inFront_iff]
          exact fun front => front.elim (Nat.lt_irrefl _) fun less => Nat.lt_irrefl _ less.2

/-- What is found may be stated otherwise. -/
lemma Finds.imp {P Q : Nat → Nat → Prop} (finds : Finds pl1 pl2 P result)
    (same : ∀ i j, i < pl1.numberSegments → j < pl2.numberSegments → (P i j ↔ Q i j)) :
    Finds pl1 pl2 Q result := by
  refine ⟨finds.sorted, fun is mem => ?_, fun i j p holds common => ?_⟩
  · obtain ⟨common, holds⟩ := finds.sound is mem
    exact ⟨common, (same _ _ common.first common.second).mp holds⟩
  · exact finds.complete i j p ((same _ _ common.first common.second).mpr holds) common

/-- All crossings are found. -/
lemma collectAll_finds (pl1 pl2 : Polyline) :
    Finds pl1 pl2 (Before pl1.numberSegments 0) (collectAll pl1 pl2) := by
  refine countedLoop_induction (I := fun i => Finds pl1 pl2 (Before i 0)) ?_ fun i first result finds => ?_
  · refine ⟨.nil, by simp, fun i j p before common => ?_⟩
    exact before.elim (fun less => absurd less (Nat.not_lt_zero i)) fun less => absurd less.2 (Nat.not_lt_zero j)
  · have row : Finds pl1 pl2 (Before i pl2.numberSegments)
        (countedLoop (collect pl1 pl2 i) pl2.numberSegments result) :=
      countedLoop_induction (I := fun j => Finds pl1 pl2 (Before i j)) finds fun j second _ finds =>
        finds.turn first second
    refine row.imp fun i' j' _ second => ?_
    unfold Before
    omega

/-- The loops find the crossings in their order already. -/
lemma intersectionsBetween_eq (pl1 pl2 : Polyline) : intersectionsBetween pl1 pl2 = collectAll pl1 pl2 := by
  unfold intersectionsBetween
  split
  case isTrue empty =>
    have none (pl : Polyline) (empty : pl.vertices = []) : pl.numberSegments = 0 := by
      rw [numberSegments, empty]
      rfl
    unfold collectAll
    cases empty with
    | inl empty =>
      rw [none pl2 empty]
      exact (run_of_keep (P := (· = [])) (fun _ _ same => same) _ rfl).symm
    | inr empty =>
      rw [none pl1 empty]
      rfl
  case isFalse =>
    refine List.mergeSort_of_pairwise ((collectAll_finds pl1 pl2).sorted.imp fun {lhs rhs} front => ?_)
    rw [Bool.not_eq_true', Before.not_behind]
    exact (inFront_iff lhs rhs).mp front

/-- `intersections` of two polylines finds the common points of their segments that are not nearly parallel, and no
    others, in the order of the segments. -/
theorem intersections_between (pl1 pl2 : Polyline) :
    Finds pl1 pl2 (fun _ _ => True) (intersectionsBetween pl1 pl2) := by
  rw [intersectionsBetween_eq]
  exact (collectAll_finds pl1 pl2).imp fun _ _ first _ => iff_true_intro (.inl first)

/-! ## Cutting a polyline by another -/

/-- `pythagoras2` -/
def pythagoras2 (first second : Point) : ℚ :=
  (first.1 - second.1) * (first.1 - second.1) + (first.2 - second.2) * (first.2 - second.2)

/-- Whether the part that is kept begins at a crossing -/
def intersectionOpenningBetween (cutted cutting : Polyline) (leftForward : Bool) (is : Intersection) : Bool :=
  let line := cutting.segment is.secondElemId
  let side := cross line.first line.second (cutted.segment is.firstElemId).first
  if side > 0 then !leftForward else leftForward

/-- The comparison that the crossings are sorted by before the loop -/
def inWay (cutted : Polyline) (lhs rhs : Intersection) : Bool :=
  if lhs.firstElemId = rhs.firstElemId then
    let beginLhs := (cutted.segment lhs.firstElemId).first
    let beginRhs := (cutted.segment rhs.firstElemId).first
    if pythagoras2 beginLhs lhs.point = pythagoras2 beginRhs rhs.point then lhs.secondElemId < rhs.secondElemId
    else pythagoras2 beginLhs lhs.point < pythagoras2 beginRhs rhs.point
  else lhs.firstElemId < rhs.firstElemId

/-- The loop of `cut` over the turns behind `before`. A turn is passed over if the next one is an openning. -/
def cutLoopBetween (vertices : List Point) (openning : Intersection → Bool) :
    Option Intersection → Bool → List Polyline → List Intersection → List Polyline
  | _, _, result, [] => result
  | before, inside, result, turn :: turns =>
    if turns.head?.any openning then cutLoopBetween vertices openning (some turn) inside result turns
    else if inside then
      let startVertice := before.elim 0 (·.firstElemId + 1)
      let result := appendLast result (span vertices startVertice (turn.firstElemId + 1) ++ [turn.point])
      cutLoopBetween vertices openning (some turn) false result turns
    else
      let back := result.getLast?.bind (·.vertices.getLast?)
      let result := if back = some turn.point then result else result ++ [⟨[turn.point]⟩]
      cutLoopBetween vertices openning (some turn) true result turns

/-- `cut` of two polylines -/
def cutBetween (cutted cutting : Polyline) (leftForward : Bool) : List Polyline :=
  let turns := intersectionsBetween cutted cutting
  let openning := intersectionOpenningBetween cutted cutting leftForward
  match turns with
  | [] => []
  | front :: _ =>
    let inside := !openning front
    let turns := turns.mergeSort fun lhs rhs => !inWay cutted rhs lhs
    cutLoopBetween cutted.vertices openning none inside [] turns

/-- How far it is to a point of a polyline: the segments before it, and the part of its own that is behind -/
abbrev Place := ℕ ×ₗ ℚ

/-- The point at a place -/
def point (pl : Polyline) (place : Place) : Point :=
  along (pl.segment (ofLex place).1).first (pl.segment (ofLex place).1).second (ofLex place).2

/-- The place is on a segment of the polyline. -/
def OnWay (pl : Polyline) (place : Place) : Prop :=
  (ofLex place).1 < pl.numberSegments ∧ 0 ≤ (ofLex place).2 ∧ (ofLex place).2 ≤ 1

/-- The points of the pieces, one behind the other, are those at the places, which never go back and are not behind the
    last of the crossings. Each piece ends with a crossing. -/
structure Forward (cutted : Polyline) (turns : List Intersection) (pieces : List Polyline) (places : List Place) :
    Prop where
  order : places.Pairwise (· ≤ ·)
  way : ∀ place ∈ places, OnWay cutted place
  points : pieces.flatMap vertices = places.map cutted.point
  reach : ∀ place ∈ places, ∃ turn ∈ turns, (ofLex place).1 ≤ turn.firstElemId
  ends : ∀ piece ∈ pieces, ∃ turn ∈ turns, piece.vertices.getLast? = some turn.point

variable {cutted cutting : Polyline} {turn next : Intersection} {turns : List Intersection} {place ahead : Place}
  {places new : List Place} {before : Option Intersection} {pieces pieces' : List Polyline}

/-- What the crossings are sorted by -/
def way (cutted : Polyline) (is : Intersection) : ℕ ×ₗ ℚ ×ₗ ℕ :=
  toLex (is.firstElemId, toLex (pythagoras2 (cutted.segment is.firstElemId).first is.point, is.secondElemId))

/-- One crossing comes before another if its way is shorter. -/
lemma inWay_iff (lhs rhs : Intersection) : inWay cutted lhs rhs = true ↔ way cutted lhs < way cutted rhs := by
  unfold inWay way
  dsimp only
  rw [Prod.Lex.toLex_lt_toLex, Prod.Lex.toLex_lt_toLex]
  dsimp only
  split
  case isTrue same =>
    rw [and_iff_right same, or_iff_right (Nat.lt_irrefl _ <| same ▸ ·)]
    split
    case isTrue even => rw [and_iff_right even, or_iff_right (lt_irrefl _ <| even ▸ ·), decide_eq_true_iff]
    case isFalse odd => rw [decide_eq_true_iff, or_iff_left fun both => odd both.1]
  case isFalse other => rw [decide_eq_true_iff, or_iff_left fun both => other both.1]

/-- The crossings are in the order of their ways. -/
lemma sorted_inWay (turns : List Intersection) :
    (turns.mergeSort fun lhs rhs => !inWay cutted rhs lhs).Pairwise fun lhs rhs => way cutted lhs ≤ way cutted rhs := by
  have le (lhs rhs : Intersection) : (!inWay cutted rhs lhs) = true ↔ way cutted lhs ≤ way cutted rhs := by
    rw [Bool.not_eq_true', ← Bool.not_eq_true, inWay_iff, not_lt]
  refine (List.pairwise_mergeSort (fun first second third => ?_) (fun first second => ?_) turns).imp (le _ _).mp
  · rw [le, le, le]
    exact le_trans
  · rw [Bool.or_eq_true, le, le]
    exact le_total _ _

/-- The place of a crossing, which has to be on its segment -/
structure Placed (cutted : Polyline) (turn : Intersection) (place : Place) : Prop where
  segment : (ofLex place).1 = turn.firstElemId
  way : OnWay cutted place
  point : cutted.point place = turn.point

/-- The crossings are at places, one of them for each. -/
structure Turning (cutted : Polyline) (turn : Intersection) : Prop where
  differ : (cutted.segment turn.firstElemId).first ≠ (cutted.segment turn.firstElemId).second
  placed : ∃ place, Placed cutted turn place

/-- A common point is a turning. -/
lemma Common.turning (common : Common cutted cutting turn.firstElemId turn.secondElemId turn.point) :
    Turning cutted turn := by
  obtain ⟨t, low, high, at_⟩ := Line.mem_points_iff.mp common.on.1
  exact ⟨Line.ends_ne common.crossing, toLex (turn.firstElemId, t), rfl, ⟨common.first, low, high⟩, at_.symm⟩

/-- The square distance grows with the square of the place. -/
lemma pythagoras2_along (a b : Point) (t : ℚ) : pythagoras2 a (along a b t) = t * t * pythagoras2 a b := by
  unfold pythagoras2 along
  ring

/-- Different points are apart. -/
lemma pythagoras2_pos {a b : Point} (differ : a ≠ b) : 0 < pythagoras2 a b := by
  refine lt_of_le_of_ne (add_nonneg (mul_self_nonneg _) (mul_self_nonneg _)) fun zero => differ ?_
  obtain ⟨x, y⟩ := (add_eq_zero_iff_of_nonneg (mul_self_nonneg _) (mul_self_nonneg _)).mp zero.symm
  exact Prod.ext (sub_eq_zero.mp (mul_self_eq_zero.mp x)) (sub_eq_zero.mp (mul_self_eq_zero.mp y))

/-- The crossings are sorted by their places. -/
lemma place_le (turning : Turning cutted turn) (le : way cutted turn ≤ way cutted next)
    (at_ : Placed cutted turn place) (at' : Placed cutted next ahead) : place ≤ ahead := by
  rw [Prod.Lex.le_iff, at_.segment, at'.segment]
  cases Prod.Lex.toLex_le_toLex.mp le with
  | inl less => exact .inl less
  | inr same =>
    refine .inr ⟨same.1, ?_⟩
    have nearer := Prod.Lex.monotone_fst _ _ same.2
    change pythagoras2 _ turn.point ≤ pythagoras2 _ next.point at nearer
    have segment : turn.firstElemId = next.firstElemId := same.1
    rw [← at_.point, ← at'.point, point, point, at_.segment, at'.segment, ← segment, pythagoras2_along,
      pythagoras2_along] at nearer
    have squares := le_of_mul_le_mul_right nearer (pythagoras2_pos turning.differ)
    exact (mul_self_le_mul_self_iff at_.way.2.1 at'.way.2.1).mpr squares

/-- The places of the points so far, up to the turn before those that are left -/
structure Carried (cutted : Polyline) (before : Option Intersection) (turns : List Intersection)
    (pieces : List Polyline) (places : List Place) : Prop where
  order : places.Pairwise (· ≤ ·)
  way : ∀ place ∈ places, OnWay cutted place
  points : pieces.flatMap vertices = places.map cutted.point
  behind : ∀ place ∈ places, ∃ turn ∈ before, (ofLex place).1 ≤ turn.firstElemId
  ahead : ∀ place ∈ places, ∀ turn ∈ turns, ∀ ahead, Placed cutted turn ahead → place ≤ ahead

/-- The turns that are left, in their order -/
structure Coming (cutted : Polyline) (turns : List Intersection) : Prop where
  turning : ∀ turn ∈ turns, Turning cutted turn
  order : turns.Pairwise fun turn next => way cutted turn ≤ way cutted next

/-- The turns behind the first one are to come. -/
lemma Coming.tail (coming : Coming cutted (turn :: turns)) : Coming cutted turns :=
  ⟨(List.forall_mem_cons.mp coming.turning).2, (List.pairwise_cons.mp coming.order).2⟩

/-- No turn to come is before the next one. -/
lemma Coming.place_le (coming : Coming cutted (turn :: turns)) (mem : next ∈ turns) (at_ : Placed cutted turn place)
    (at' : Placed cutted next ahead) : place ≤ ahead :=
  Polyline.place_le (coming.turning turn List.mem_cons_self) ((List.pairwise_cons.mp coming.order).1 next mem) at_ at'

/-- What is new for a turn are places up to its own. -/
lemma Carried.step (carried : Carried cutted before (turn :: turns) pieces places)
    (coming : Coming cutted (turn :: turns)) (at_ : Placed cutted turn ahead)
    (points : pieces'.flatMap vertices = pieces.flatMap vertices ++ new.map cutted.point)
    (order : new.Pairwise (· ≤ ·)) (later : ∀ place ∈ places, ∀ place' ∈ new, place ≤ place')
    (way : ∀ place ∈ new, OnWay cutted place) (upTo : ∀ place ∈ new, place ≤ ahead) :
    Carried cutted (some turn) turns pieces' (places ++ new) := by
  have all : ∀ place ∈ places ++ new, place ≤ ahead := by
    intro place mem
    cases List.mem_append.mp mem with
    | inl mem => exact carried.ahead place mem turn List.mem_cons_self ahead at_
    | inr mem => exact upTo place mem
  refine ⟨List.pairwise_append.mpr ⟨carried.order, order, later⟩, ?_, ?_, ?_, ?_⟩
  · exact List.forall_mem_append.mpr ⟨carried.way, way⟩
  · rw [points, carried.points, List.map_append]
  · intro place mem
    have le := Prod.Lex.monotone_fst _ _ (all place mem)
    exact ⟨turn, rfl, at_.segment ▸ le⟩
  · intro place mem next next_mem ahead' at'
    exact le_trans (all place mem) (coming.place_le next_mem at_ at')

/-- A turn that adds nothing -/
lemma Carried.pass (carried : Carried cutted before (turn :: turns) pieces places)
    (coming : Coming cutted (turn :: turns)) : Carried cutted (some turn) turns pieces places := by
  obtain ⟨ahead, at_⟩ := (coming.turning turn List.mem_cons_self).placed
  have passed : Carried cutted (some turn) turns pieces (places ++ []) :=
    carried.step coming at_ (List.append_nil _).symm .nil (by simp) (by simp) (by simp)
  rw [List.append_nil] at passed
  exact passed

/-- A turn that begins a piece -/
lemma Carried.open (carried : Carried cutted before (turn :: turns) pieces places)
    (coming : Coming cutted (turn :: turns)) :
    ∃ places, Carried cutted (some turn) turns (pieces ++ [⟨[turn.point]⟩]) places := by
  obtain ⟨ahead, at_⟩ := (coming.turning turn List.mem_cons_self).placed
  refine ⟨places ++ [ahead], carried.step coming at_ ?_ (List.pairwise_singleton _ _) ?_ ?_ ?_⟩
  · rw [List.flatMap_append, List.flatMap_singleton, List.map_singleton, at_.point]
  · intro place mem place' mem'
    rw [List.mem_singleton.mp mem']
    exact carried.ahead place mem turn List.mem_cons_self ahead at_
  · exact List.forall_mem_singleton.mpr at_.way
  · exact List.forall_mem_singleton.mpr le_rfl

/-- Vertices from `first` on, as places -/
def corners (first number : Nat) : List Place := (List.range' first number).map fun i => toLex (i, 0)

/-- A corner is a vertex. -/
lemma point_corner (pl : Polyline) (i : Nat) : pl.point (toLex (i, 0)) = pl.vertices.getD i 0 := along_zero

/-- The vertices of a span are corners. -/
lemma span_corners {last : Nat} (within : last ≤ cutted.vertices.length) (start : Nat) :
    span cutted.vertices start last = (corners start (last - start)).map cutted.point := by
  unfold corners span
  apply List.ext_getElem
  · rw [List.length_take, List.length_drop, List.length_map, List.length_map, List.length_range']
    omega
  · intro i lt lt'
    rw [List.getElem_take, List.getElem_drop, List.getElem_map, List.getElem_map, List.getElem_range', point_corner,
      Nat.one_mul, List.getElem_eq_getD 0]

/-- The corners are the beginnings of the segments. -/
lemma mem_corners {first number : Nat} : place ∈ corners first number ↔
    first ≤ (ofLex place).1 ∧ (ofLex place).1 < first + number ∧ (ofLex place).2 = 0 := by
  unfold corners
  rw [List.mem_map]
  constructor
  · rintro ⟨i, mem, rfl⟩
    obtain ⟨low, high⟩ := List.mem_range'_1.mp mem
    exact ⟨low, high, rfl⟩
  · rintro ⟨low, high, zero⟩
    exact ⟨_, List.mem_range'_1.mpr ⟨low, high⟩, congrArg (fun t => toLex ((ofLex place).1, t)) zero.symm⟩

/-- The corners are in order. -/
lemma corners_order (first number : Nat) : (corners first number).Pairwise (· ≤ ·) := by
  refine List.pairwise_map.mpr ((List.pairwise_lt_range' 1).imp fun less => ?_)
  exact Prod.Lex.toLex_le_toLex.mpr (.inl less)

/-- A turn that ends a part of the polyline, from the segment behind the turn before -/
lemma Carried.close (carried : Carried cutted before (turn :: turns) pieces places)
    (coming : Coming cutted (turn :: turns)) : ∃ places, Carried cutted (some turn) turns
      (appendLast pieces (span cutted.vertices (before.elim 0 (·.firstElemId + 1)) (turn.firstElemId + 1) ++
        [turn.point])) places := by
  obtain ⟨ahead, at_⟩ := (coming.turning turn List.mem_cons_self).placed
  have inside := at_.way.1
  rw [at_.segment] at inside
  have within : turn.firstElemId + 1 ≤ cutted.vertices.length := by
    unfold numberSegments at inside
    split at inside
    · exact absurd inside (Nat.not_lt_zero _)
    · omega
  generalize start_eq : before.elim 0 (·.firstElemId + 1) = start
  have upTo : ∀ place ∈ corners start (turn.firstElemId + 1 - start),
      (ofLex place).1 ≤ turn.firstElemId ∧ (ofLex place).2 = 0 := by
    intro place mem
    obtain ⟨low, high, zero⟩ := mem_corners.mp mem
    exact ⟨by omega, zero⟩
  have front : ∀ place ∈ corners start (turn.firstElemId + 1 - start), place ≤ ahead := by
    intro place mem
    obtain ⟨le, zero⟩ := upTo place mem
    rw [Prod.Lex.le_iff, at_.segment, zero]
    exact (Nat.lt_or_eq_of_le le).imp_right fun same => ⟨same, at_.way.2.1⟩
  refine ⟨places ++ (corners start (turn.firstElemId + 1 - start) ++ [ahead]),
    carried.step coming at_ ?_ ?_ ?_ ?_ ?_⟩
  · rw [appendLast_points, span_corners within, List.map_append, List.map_singleton, at_.point]
  · refine List.pairwise_append.mpr ⟨corners_order _ _, List.pairwise_singleton _ _, fun place mem place' mem' => ?_⟩
    rw [List.mem_singleton.mp mem']
    exact front place mem
  · intro place mem place' mem'
    cases List.mem_append.mp mem' with
    | inl mem' =>
      obtain ⟨last, rfl, le⟩ := carried.behind place mem
      have less := (mem_corners.mp mem').1
      rw [← start_eq] at less
      exact (Prod.Lex.le_iff).mpr (.inl (Nat.lt_of_le_of_lt le less))
    | inr mem' =>
      rw [List.mem_singleton.mp mem']
      exact carried.ahead place mem turn List.mem_cons_self ahead at_
  · refine List.forall_mem_append.mpr ⟨fun place mem => ?_, List.forall_mem_singleton.mpr at_.way⟩
    obtain ⟨le, zero⟩ := upTo place mem
    refine ⟨Nat.lt_of_le_of_lt le inside, ?_⟩
    rw [zero]
    exact ⟨le_rfl, zero_le_one⟩
  · exact List.forall_mem_append.mpr ⟨front, List.forall_mem_singleton.mpr le_rfl⟩

/-- The piece ends with one of the crossings. -/
def Ends (crossings : List Intersection) (piece : Polyline) : Prop :=
  ∃ turn ∈ crossings, piece.vertices.getLast? = some turn.point

/-- Each piece ends with a crossing. -/
lemma appendLast_ends {crossings : List Intersection} (ends : ∀ piece ∈ pieces, Ends crossings piece)
    (mem : turn ∈ crossings) (front : List Point) :
    ∀ piece ∈ appendLast pieces (front ++ [turn.point]), Ends crossings piece := by
  unfold appendLast
  refine List.forall_mem_append.mpr ⟨fun piece piece_mem => ?_, List.forall_mem_singleton.mpr ⟨turn, mem, ?_⟩⟩
  · split at piece_mem
    · exact absurd piece_mem (List.not_mem_nil)
    · exact ends piece (List.mem_of_mem_dropLast piece_mem)
  · rw [← List.append_assoc, List.getLast?_concat]

/-- The loop carries the points of all pieces in their order. -/
lemma cutLoopBetween_carries {openning : Intersection → Bool} {crossings : List Intersection} {inside : Bool}
    (all : ∀ turn ∈ turns, turn ∈ crossings) (coming : Coming cutted turns)
    (carried : Carried cutted before turns pieces places) (ends : ∀ piece ∈ pieces, Ends crossings piece)
    (last : ∀ turn ∈ before, turn ∈ crossings) :
    let pieces := cutLoopBetween cutted.vertices openning before inside pieces turns
    ∃ places, Forward cutted crossings pieces places := by
  induction turns generalizing before inside pieces places with
  | nil =>
    refine ⟨places, carried.order, carried.way, carried.points, fun place mem => ?_, ends⟩
    obtain ⟨turn, turn_mem, le⟩ := carried.behind place mem
    exact ⟨turn, last turn turn_mem, le⟩
  | cons turn turns ih =>
    obtain ⟨mem, all⟩ := List.forall_mem_cons.mp all
    have last : ∀ next ∈ some turn, next ∈ crossings := fun next same => Option.some.inj same ▸ mem
    unfold cutLoopBetween
    split
    case isTrue => exact ih all coming.tail (carried.pass coming) ends last
    case isFalse =>
      cases inside with
      | true =>
        obtain ⟨places, carried⟩ := carried.close coming
        exact ih all coming.tail carried (appendLast_ends ends mem _) last
      | false =>
        dsimp only
        rw [if_neg Bool.false_ne_true]
        by_cases again : pieces.getLast?.bind (·.vertices.getLast?) = some turn.point
        · rw [if_pos again]
          exact ih all coming.tail (carried.pass coming) ends last
        · rw [if_neg again]
          obtain ⟨places, carried⟩ := carried.open coming
          refine ih all coming.tail carried ?_ last
          exact List.forall_mem_append.mpr ⟨ends, List.forall_mem_singleton.mpr ⟨turn, mem, rfl⟩⟩

/-- The points of the pieces that `cut` of two polylines makes follow the polyline, up to the last crossing, and each
    piece ends with a crossing. -/
theorem cut_in_order (cutted cutting : Polyline) (leftForward : Bool) :
    ∃ places, Forward cutted (intersectionsBetween cutted cutting) (cutBetween cutted cutting leftForward) places := by
  have finds := intersections_between cutted cutting
  unfold cutBetween
  generalize intersectionsBetween cutted cutting = turns at finds
  cases turns with
  | nil => exact ⟨[], .nil, by simp, rfl, by simp, by simp⟩
  | cons front turns =>
    have start (turns : List Intersection) : Carried cutted none turns [] [] := ⟨.nil, by simp, rfl, by simp, by simp⟩
    refine cutLoopBetween_carries (fun turn mem => List.mem_mergeSort.mp mem) ⟨fun turn mem => ?_, sorted_inWay _⟩
      (start _) (by simp) (by simp)
    exact (finds.sound turn (List.mem_mergeSort.mp mem)).1.turning

end Polyline
end OsterLib.Geometry
