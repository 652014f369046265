import Mathlib.Analysis.Convex.Segment
import Mathlib.Tactic.FieldSimp
import Mathlib.Tactic.Linarith

/-!
# Segments in the plane

Points are pairs over an ordered field, and a segment is the set `segment K a b`.

`orient` is twice the signed area of a triangle, which tells on which side of a line a point is. A point is on a segment
exactly where it is on its line and in its bounding box (`mem_segment_iff`). Two segments have a common point exactly
where the ends of each are on different sides of the other, or where an end of one of them is on the other
(`segments_meet_iff`).
-/

namespace OsterLib.Lib

section Plane
variable {K : Type*} [Field K] {a b c d p : K × K}

/-- Twice the signed area of the triangle, positive where `c` is to the left of the way from `a` to `b` -/
def orient (a b c : K × K) : K := (b.1 - a.1) * (c.2 - a.2) - (b.2 - a.2) * (c.1 - a.1)

/-- The point of the line through `a` and `b` at `t` -/
def along (a b : K × K) (t : K) : K × K := (a.1 + t * (b.1 - a.1), a.2 + t * (b.2 - a.2))

/-- The side changes linearly along a segment. -/
lemma orient_along (t : K) : orient a b (along c d t) = (1 - t) * orient a b c + t * orient a b d := by
  unfold orient along
  ring

/-- The first point of a line is on it. -/
@[simp] lemma orient_first : orient a b a = 0 := by
  unfold orient
  ring

/-- The second point of a line is on it. -/
@[simp] lemma orient_second : orient a b b = 0 := by
  unfold orient
  ring

/-- Every point is on a line of length zero. -/
lemma orient_same : orient a a c = 0 := by
  unfold orient
  ring

/-- A part of a part of a segment is a part of the segment. -/
lemma along_along (s r t : K) : along (along a b s) (along a b r) t = along a b ((1 - t) * s + t * r) := by
  unfold along
  apply Prod.ext
  · dsimp only
    ring
  · dsimp only
    ring

/-- The place zero is the first end. -/
@[simp] lemma along_zero : along a b 0 = a := by
  unfold along
  rw [zero_mul, zero_mul, add_zero, add_zero]

/-- The place one is the second end. -/
@[simp] lemma along_one : along a b 1 = b := by
  unfold along
  rw [one_mul, one_mul, add_sub_cancel, add_sub_cancel]

/-- A point of a segment that has a length has one place. -/
lemma along_injective (differ : a ≠ b) {s t : K} (same : along a b s = along a b t) : s = t := by
  obtain ⟨x, y⟩ := Prod.ext_iff.mp same
  simp only [along, add_right_inj] at x y
  by_contra other
  have first : b.1 - a.1 = 0 := by
    by_contra nonzero
    exact other (mul_right_cancel₀ nonzero x)
  have second : b.2 - a.2 = 0 := by
    by_contra nonzero
    exact other (mul_right_cancel₀ nonzero y)
  exact differ (Prod.ext (sub_eq_zero.mp first).symm (sub_eq_zero.mp second).symm)

/-- What is on the line of two points is reached from one of them on the way to the other. -/
lemma exists_along (differ : a ≠ b) (line : orient a b c = 0) : ∃ t, c = along a b t := by
  unfold orient at line
  by_cases x : b.1 - a.1 = 0
  · have y : b.2 - a.2 ≠ 0 := by
      intro y
      exact differ (Prod.ext (sub_eq_zero.mp x).symm (sub_eq_zero.mp y).symm)
    rw [x, zero_mul, zero_sub, neg_eq_zero] at line
    have left := (mul_eq_zero.mp line).resolve_left y
    refine ⟨(c.2 - a.2) / (b.2 - a.2), Prod.ext ?_ ?_⟩
    · simp only [along]
      rw [x, mul_zero, add_zero, sub_eq_zero.mp left]
    · simp only [along]
      rw [div_mul_cancel₀ _ y, add_sub_cancel]
  · refine ⟨(c.1 - a.1) / (b.1 - a.1), Prod.ext ?_ ?_⟩
    · simp only [along]
      rw [div_mul_cancel₀ _ x, add_sub_cancel]
    · simp only [along]
      field_simp
      linear_combination line

/-- How the lines of two pairs of points lie to each other, which is zero where they are parallel -/
def skew (a b c d : K × K) : K := orient c d a - orient c d b

/-- The common point of the lines of two pairs of points -/
def meeting (a b c d : K × K) : K × K := along a b (orient c d a / skew a b c d)

/-- The other order of the segments changes the sign. -/
lemma skew_swap : skew c d a b = -skew a b c d := by
  unfold skew orient
  ring

/-- The common point is on both lines alike. -/
lemma meeting_comm (cross : skew a b c d ≠ 0) : meeting a b c d = meeting c d a b := by
  have other : skew c d a b ≠ 0 := by
    rw [skew_swap]
    exact neg_ne_zero.mpr cross
  unfold meeting along
  apply Prod.ext
  · dsimp only
    field_simp
    unfold skew orient
    ring
  · dsimp only
    field_simp
    unfold skew orient
    ring

/-- Where two lines are not parallel, they meet on the second one. -/
lemma orient_meeting (cross : skew a b c d ≠ 0) : orient c d (meeting a b c d) = 0 := by
  unfold meeting
  rw [orient_along]
  field_simp
  unfold skew
  ring

/-- It is the only point of the one that is on the other. -/
lemma eq_meeting (cross : skew a b c d ≠ 0) {t : K} (line : orient c d (along a b t) = 0) :
    along a b t = meeting a b c d := by
  rw [orient_along] at line
  have reached : t * skew a b c d = orient c d a := by
    unfold skew
    linear_combination -line
  rw [meeting, eq_div_of_mul_eq cross reached]

section order
variable [LinearOrder K] [IsStrictOrderedRing K]

/-- The point is in the bounding box of two others. -/
def InBox (a b p : K × K) : Prop :=
  (min a.1 b.1 ≤ p.1 ∧ p.1 ≤ max a.1 b.1) ∧ (min a.2 b.2 ≤ p.2 ∧ p.2 ≤ max a.2 b.2)

/-- The values are on different sides of zero. -/
def Across (x y : K) : Prop := (0 < x ∧ y < 0) ∨ (x < 0 ∧ 0 < y)

/-- The points of a segment are those at places from zero to one. -/
lemma mem_segment_iff_along : p ∈ segment K a b ↔ ∃ t, 0 ≤ t ∧ t ≤ 1 ∧ p = along a b t := by
  rw [segment_eq_image']
  constructor
  · rintro ⟨t, ⟨low, high⟩, rfl⟩
    exact ⟨t, low, high, rfl⟩
  · rintro ⟨t, low, high, rfl⟩
    exact ⟨t, ⟨low, high⟩, rfl⟩

/-- Between two numbers is what is reached from one of them on the way to the other. -/
lemma between_iff {x y z : K} (t : K) (at_ : z = x + t * (y - x)) (low : 0 ≤ t) (high : t ≤ 1) :
    min x y ≤ z ∧ z ≤ max x y := by
  rcases le_total x y with le | le
  · rw [min_eq_left le, max_eq_right le]
    constructor
    · nlinarith
    · nlinarith
  · rw [min_eq_right le, max_eq_left le]
    constructor
    · nlinarith
    · nlinarith

/-- How far on the way from one number to the other a number between them is -/
lemma exists_of_between {x y z : K} (differ : x ≠ y) (between : min x y ≤ z ∧ z ≤ max x y) :
    0 ≤ (z - x) / (y - x) ∧ (z - x) / (y - x) ≤ 1 := by
  rcases lt_or_gt_of_ne differ with lt | gt
  · rw [min_eq_left lt.le, max_eq_right lt.le] at between
    have pos : 0 < y - x := sub_pos.mpr lt
    exact ⟨div_nonneg (by linarith) pos.le, (div_le_one pos).mpr (by linarith)⟩
  · rw [min_eq_right gt.le, max_eq_left gt.le] at between
    have neg : y - x < 0 := sub_neg.mpr gt
    exact ⟨div_nonneg_of_nonpos (by linarith) neg.le, (div_le_one_of_neg neg).mpr (by linarith)⟩

/-- The segment between two points of a line -/
lemma along_mem_iff (differ : a ≠ b) {s r t : K} :
    along a b t ∈ segment K (along a b s) (along a b r) ↔ min s r ≤ t ∧ t ≤ max s r := by
  rw [mem_segment_iff_along]
  constructor
  · rintro ⟨u, low, high, same⟩
    rw [along_along] at same
    exact between_iff u (by rw [along_injective differ same]; ring) low high
  · intro between
    by_cases same : s = r
    · rw [same, min_self, max_self] at between
      refine ⟨0, le_rfl, zero_le_one, ?_⟩
      rw [along_zero, same, le_antisymm between.2 between.1]
    · obtain ⟨low, high⟩ := exists_of_between same between
      have nonzero : r - s ≠ 0 := sub_ne_zero.mpr (Ne.symm same)
      refine ⟨_, low, high, ?_⟩
      rw [along_along]
      congr 1
      field_simp
      ring

/-- A point is on a segment exactly where it is on its line and in its bounding box. -/
lemma mem_segment_iff : p ∈ segment K a b ↔ orient a b p = 0 ∧ InBox a b p := by
  rw [mem_segment_iff_along]
  constructor
  · rintro ⟨t, low, high, rfl⟩
    refine ⟨?_, between_iff t rfl low high, between_iff t rfl low high⟩
    rw [orient_along, orient_first, orient_second, mul_zero, mul_zero, add_zero]
  · rintro ⟨line, boxX, boxY⟩
    unfold orient at line
    by_cases x : a.1 = b.1
    · rw [x, min_self, max_self] at boxX
      have left : p.1 = a.1 := by linarith [boxX.1, boxX.2]
      by_cases y : a.2 = b.2
      · rw [y, min_self, max_self] at boxY
        refine ⟨0, le_rfl, zero_le_one, Prod.ext ?_ ?_⟩
        · simpa [along] using left
        · simpa [along] using (by linarith [boxY.1, boxY.2] : p.2 = a.2)
      · obtain ⟨low, high⟩ := exists_of_between y boxY
        have nonzero : b.2 - a.2 ≠ 0 := sub_ne_zero.mpr (Ne.symm y)
        refine ⟨_, low, high, Prod.ext ?_ ?_⟩
        · simp only [along]
          rw [← x, sub_self, mul_zero, add_zero, left]
        · simp only [along]
          rw [div_mul_cancel₀ _ nonzero, add_sub_cancel]
    · obtain ⟨low, high⟩ := exists_of_between x boxX
      have nonzero : b.1 - a.1 ≠ 0 := sub_ne_zero.mpr (Ne.symm x)
      refine ⟨_, low, high, Prod.ext ?_ ?_⟩
      · simp only [along]
        rw [div_mul_cancel₀ _ nonzero, add_sub_cancel]
      · simp only [along]
        field_simp
        linarith

/-- A mean of two positive numbers is positive. -/
lemma weighted_pos {x y t : K} (low : 0 ≤ t) (high : t ≤ 1) (x_pos : 0 < x) (y_pos : 0 < y) :
    0 < (1 - t) * x + t * y := by
  rcases low.eq_or_lt with rfl | inside
  · linarith
  · exact add_pos_of_nonneg_of_pos (mul_nonneg (sub_nonneg.mpr high) x_pos.le) (mul_pos inside y_pos)

/-- What the ends of a segment say about a line that has one of its points -/
lemma weighted_zero {x y t : K} (low : 0 ≤ t) (high : t ≤ 1) (zero : (1 - t) * x + t * y = 0) :
    Across x y ∨ t = 0 ∨ t = 1 ∨ (x = 0 ∧ y = 0) := by
  rcases low.eq_or_lt with first | inside
  · exact .inr (.inl first.symm)
  rcases high.eq_or_lt with second | inside'
  · exact .inr (.inr (.inl second))
  have rest : 0 < 1 - t := sub_pos.mpr inside'
  rcases lt_trichotomy x 0 with neg | rfl | pos
  · refine .inl (.inr ⟨neg, ?_⟩)
    by_contra other
    have := mul_neg_of_pos_of_neg rest neg
    have := mul_nonpos_of_nonneg_of_nonpos low (not_lt.mp other)
    linarith
  · rw [mul_zero, zero_add] at zero
    exact .inr (.inr (.inr ⟨rfl, (mul_eq_zero.mp zero).resolve_left inside.ne'⟩))
  · refine .inl (.inl ⟨pos, ?_⟩)
    by_contra other
    have := mul_pos rest pos
    have := mul_nonneg low (not_lt.mp other)
    linarith

/-- Two numbers outside of the unit interval with a number of it between them are on different sides of it. -/
lemma apart_of_between {s r t : K} (low : 0 ≤ t) (high : t ≤ 1) (low' : 0 ≤ (1 - t) * s + t * r)
    (high' : (1 - t) * s + t * r ≤ 1) (s_out : ¬(0 ≤ s ∧ s ≤ 1)) (r_out : ¬(0 ≤ r ∧ r ≤ 1)) :
    (s < 0 ∧ 1 < r) ∨ (1 < s ∧ r < 0) := by
  by_cases s_low : 0 ≤ s
  · have s_high : 1 < s := lt_of_not_ge fun le => s_out ⟨s_low, le⟩
    refine .inr ⟨s_high, ?_⟩
    by_contra r_low
    have r_high : 1 < r := lt_of_not_ge fun le => r_out ⟨not_lt.mp r_low, le⟩
    have above := weighted_pos low high (sub_pos.mpr s_high) (sub_pos.mpr r_high)
    linarith
  · have s_neg := lt_of_not_ge s_low
    refine .inl ⟨s_neg, ?_⟩
    by_contra r_high
    have r_neg : r < 0 := lt_of_not_ge fun le => r_out ⟨le, not_lt.mp r_high⟩
    have below := weighted_pos low high (neg_pos.mpr s_neg) (neg_pos.mpr r_neg)
    linarith

/-- Of two segments on one line that have a common point, one has an end of the other. -/
lemma end_of_collinear (c_line : orient a b c = 0) (d_line : orient a b d = 0)
    (first : p ∈ segment K a b) (second : p ∈ segment K c d) :
    (c ∈ segment K a b ∨ d ∈ segment K a b) ∨ (a ∈ segment K c d ∨ b ∈ segment K c d) := by
  by_cases differ : a = b
  · rw [← differ, segment_same, Set.mem_singleton_iff] at first
    exact .inr (.inl (first ▸ second))
  obtain ⟨s, rfl⟩ := exists_along differ c_line
  obtain ⟨r, rfl⟩ := exists_along differ d_line
  obtain ⟨u, u_low, u_high, rfl⟩ := mem_segment_iff_along.mp first
  obtain ⟨t, low, high, same⟩ := mem_segment_iff_along.mp second
  rw [along_along] at same
  have weighted := along_injective differ same
  by_cases c_in : 0 ≤ s ∧ s ≤ 1
  · exact .inl (.inl (mem_segment_iff_along.mpr ⟨s, c_in.1, c_in.2, rfl⟩))
  by_cases d_in : 0 ≤ r ∧ r ≤ 1
  · exact .inl (.inr (mem_segment_iff_along.mpr ⟨r, d_in.1, d_in.2, rfl⟩))
  -- `c` and `d` are on different sides of the first segment, so all of it is in the second
  have apart := apart_of_between low high (weighted ▸ u_low) (weighted ▸ u_high) c_in d_in
  refine .inr (.inl (mem_segment_iff_along.mpr ⟨s / (s - r), ?_, ?_, ?_⟩))
  · rcases apart with ⟨neg, pos⟩ | ⟨pos, neg⟩
    · exact div_nonneg_of_nonpos neg.le (by linarith)
    · exact div_nonneg (by linarith) (by linarith)
  · rcases apart with ⟨neg, pos⟩ | ⟨pos, neg⟩
    · exact (div_le_one_of_neg (by linarith)).mpr (by linarith)
    · exact (div_le_one (by linarith)).mpr (by linarith)
  · have nonzero : s - r ≠ 0 := by
      rcases apart with ⟨neg, pos⟩ | ⟨pos, neg⟩
      · exact ne_of_lt (by linarith)
      · exact ne_of_gt (by linarith)
    have zero : (1 - s / (s - r)) * s + s / (s - r) * r = 0 := by
      field_simp
      ring
    rw [along_along, zero, along_zero]

/-- The point that divides the way between the ends of a segment that are on different sides -/
lemma Across.divides {x y : K} (apart : Across x y) : 0 ≤ x / (x - y) ∧ x / (x - y) ≤ 1 := by
  rcases apart with ⟨pos, neg⟩ | ⟨neg, pos⟩
  · exact ⟨div_nonneg pos.le (by linarith), (div_le_one (by linarith)).mpr (by linarith)⟩
  · exact ⟨div_nonneg_of_nonpos neg.le (by linarith), (div_le_one_of_neg (by linarith)).mpr (by linarith)⟩

/-- Numbers on two sides of zero are different. -/
lemma Across.sub_ne_zero {x y : K} (apart : Across x y) : x - y ≠ 0 := by
  rcases apart with ⟨pos, neg⟩ | ⟨neg, pos⟩
  · exact ne_of_gt (by linarith)
  · exact ne_of_lt (by linarith)

/-- Where the ends are on different sides, the common point of the lines is one of the segment. -/
lemma meeting_mem (apart : Across (orient c d a) (orient c d b)) : meeting a b c d ∈ segment K a b := by
  obtain ⟨low, high⟩ := apart.divides
  exact mem_segment_iff_along.mpr ⟨_, low, high, rfl⟩

/-- Two segments have a common point exactly where the ends of each are on different sides of the other, or where an
    end of one of them is on the other. -/
theorem segments_meet_iff :
    (segment K a b ∩ segment K c d).Nonempty ↔
      (Across (orient a b c) (orient a b d) ∧ Across (orient c d a) (orient c d b)) ∨
        (c ∈ segment K a b ∨ d ∈ segment K a b) ∨ (a ∈ segment K c d ∨ b ∈ segment K c d) := by
  constructor
  · rintro ⟨p, first, second⟩
    obtain ⟨u, u_low, u_high, on_first⟩ := mem_segment_iff_along.mp first
    obtain ⟨t, low, high, on_second⟩ := mem_segment_iff_along.mp second
    have c_d : (1 - t) * orient a b c + t * orient a b d = 0 := by
      rw [← orient_along, ← on_second, (mem_segment_iff.mp first).1]
    have a_b : (1 - u) * orient c d a + u * orient c d b = 0 := by
      rw [← orient_along, ← on_first, (mem_segment_iff.mp second).1]
    rcases weighted_zero low high c_d with apart | rfl | rfl | ⟨c_line, d_line⟩
    · rcases weighted_zero u_low u_high a_b with apart' | rfl | rfl | ⟨a_line, b_line⟩
      · exact .inl ⟨apart, apart'⟩
      · rw [along_zero] at on_first
        exact .inr (.inr (.inl (on_first ▸ second)))
      · rw [along_one] at on_first
        exact .inr (.inr (.inr (on_first ▸ second)))
      · exact .inr (end_of_collinear a_line b_line second first).symm
    · rw [along_zero] at on_second
      exact .inr (.inl (.inl (on_second ▸ first)))
    · rw [along_one] at on_second
      exact .inr (.inl (.inr (on_second ▸ first)))
    · exact .inr (end_of_collinear c_line d_line first second)
  · rintro (⟨apart, apart'⟩ | (c_in | d_in) | (a_in | b_in))
    · refine ⟨meeting a b c d, meeting_mem apart', ?_⟩
      rw [meeting_comm apart'.sub_ne_zero]
      exact meeting_mem apart
    · exact ⟨c, c_in, left_mem_segment K c d⟩
    · exact ⟨d, d_in, right_mem_segment K c d⟩
    · exact ⟨a, left_mem_segment K a b, a_in⟩
    · exact ⟨b, right_mem_segment K a b, b_in⟩

end order

end Plane

end OsterLib.Lib
