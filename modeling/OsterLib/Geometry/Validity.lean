import OsterLib.Geometry.Line
import OsterLib.Lib.Walk

/-!
# Polygons without self-intersections

What `Polygon::is_valid` of `Polygon.h` computes from the vertices when the answer is not kept. Its loops skip equal
vertices and read the vertices by index. They all end, inside of the vertices (`validWalk_ends`): vertex `last` differs
from the one before it, so that no run of equal vertices is skipped beyond it.
-/

namespace OsterLib.Geometry.Polygon
open OsterLib.Lib OsterLib.Lib.Walk

section walk
variable (vertices : List Point)

/-- `while(guard(i) && vertices_[left(i)]==vertices_[right(i)]) ++i` -/
def skipEqual (guard : Nat → Bool) (left right : Nat → Nat) : Nat → Nat → Walk Nat :=
  skip (fun i => if guard i then same vertices (left i) (right i) else return false) (· + 1)

/-- The last side that has a length, as `is_valid` looks for it -/
def lastSegment (fuel : Nat) : Walk Nat :=
  let size := vertices.length
  skip (fun last =>
    if last > 1 then do
      if ← same vertices last ((last - 1 + size) % size) then return true
      else same vertices last 0
    else return false) (· - 1) fuel (size - 1)

/-- The first side that has a length, as `is_valid` looks for it -/
def firstSegment (last fuel : Nat) : Walk Nat :=
  skipEqual vertices (· < last) (fun first => first) (fun first => first + 1) fuel 0

/-- The loop over `j`, which looks for a segment that `initLine` meets -/
def apart (initLine : Line) (last jLast : Nat) : Nat → Nat → Walk Bool :=
  let size := vertices.length
  loop fun fuel j =>
    if j ≤ jLast then do
      let j ← skipEqual vertices (· ≤ last) (fun j => j) (fun j => (j + 1) % size) fuel j
      if j > last then return .inr true
      else
        let line : Line := ⟨← read vertices j, ← read vertices ((j + 1) % size)⟩
        if intersects initLine line then return .inr false else return .inl (j + 1)
    else return .inr true

/-- The loop over `i` -/
def simple (first last : Nat) : Nat → Nat → Walk Bool :=
  loop fun fuel i =>
    if i ≤ last then do
      let i ← skipEqual vertices (· ≤ last) (fun i => i) (fun i => i + 1) fuel i
      if i > last then return .inr true
      else
        let jLast := if i = first then last - 1 else last
        let j ← skipEqual vertices (· ≤ jLast) (fun _ => i + 1) (fun j => j) fuel (i + 2)
        if j > jLast then return .inr true
        else
          let initLine : Line := ⟨← read vertices i, ← read vertices (i + 1)⟩
          if ← apart vertices initLine last jLast fuel j then return .inl (i + 1) else return .inr false
    else return .inr true

/-- `is_valid` -/
def validWalk (fuel : Nat) : Walk Bool :=
  if vertices.length < 3 then return false
  else do
    let last ← lastSegment vertices fuel
    if last < 2 then return false
    else
      let first ← firstSegment vertices last fuel
      simple vertices first last fuel first

/-- Fuel enough for `validWalk` -/
def validFuel : Nat := 3 * vertices.length + 3

/-- The answer of `is_valid` -/
def valid : Bool := validWalk vertices (validFuel vertices) = .ended true

end walk

variable {vertices : List Point}

/-! ## The loops end -/

/-- A loop over equal vertices ends inside if its guard is bounded. -/
lemma skipEqual_ends {guard : Nat → Bool} {left right : Nat → Nat} {I : Nat → Prop} (bound : Nat)
    (bounded : ∀ i, guard i = true → i < bound)
    (inside : ∀ i, I i → guard i = true → left i < vertices.length ∧ right i < vertices.length)
    (keep : ∀ i, I i → guard i = true → vertices[left i]? = vertices[right i]? → I (i + 1)) {i : Nat} (init : I i) :
    Ends (skipEqual vertices guard left right · i) (bound + 1)
      (fun i => I i ∧ (guard i = true → vertices[left i]? ≠ vertices[right i]?)) := by
  refine Ends.mono (Ends.skip (fun i => bound - i) (fun i inv => ?_) init) (by omega)
  by_cases more : guard i = true
  · obtain ⟨lt, lt'⟩ := inside i inv more
    have below := bounded i more
    rw [if_pos more, same_eq lt lt']
    by_cases equal : vertices[left i]? = vertices[right i]?
    · exact .inl ⟨by rw [decide_eq_true equal], keep i inv more equal, by omega⟩
    · exact .inr ⟨by rw [decide_eq_false equal], inv, fun _ => equal⟩
  · rw [if_neg more]
    exact .inr ⟨rfl, inv, fun more' => absurd more' more⟩

/-- Vertex `last` differs from the one before it. -/
lemma lastSegment_ends (some : vertices.length ≠ 0) :
    Ends (lastSegment vertices) (vertices.length + 1)
      (fun last => last < vertices.length ∧ (2 ≤ last → vertices[last]? ≠ vertices[last - 1]?)) := by
  refine Ends.mono (Ends.skip (I := fun last => last < vertices.length) id (fun last lt => ?_) (by omega))
    (by simp only [id]; omega)
  by_cases more : last > 1
  · have before : (last - 1 + vertices.length) % vertices.length = last - 1 := by
      rw [Nat.add_mod_right, Nat.mod_eq_of_lt (by omega)]
    rw [if_pos more, before, same_eq lt (by omega), ended_bind]
    by_cases equal : vertices[last]? = vertices[last - 1]?
    · exact .inl ⟨by rw [decide_eq_true equal]; rfl, by omega, by simp only [id]; omega⟩
    · rw [decide_eq_false equal, if_neg Bool.false_ne_true, same_eq lt (by omega)]
      by_cases closed : vertices[last]? = vertices[0]?
      · exact .inl ⟨by rw [decide_eq_true closed], by omega, by simp only [id]; omega⟩
      · exact .inr ⟨by rw [decide_eq_false closed], lt, fun _ => equal⟩
  · rw [if_neg more]
    exact .inr ⟨rfl, lt, fun more' => absurd more' more⟩

/-- A side of length zero is not the last one. -/
lemma succ_lt_last {last i : Nat} (turned : vertices[last]? ≠ vertices[last - 1]?) (below : i < last)
    (equal : vertices[i]? = vertices[i + 1]?) : i + 1 < last := by
  refine lt_of_le_of_ne below fun reached => turned ?_
  rw [← reached, Nat.add_sub_cancel]
  exact equal.symm

/-- The search for the first side ends before the last one. -/
lemma firstSegment_ends {last : Nat} (lt : last < vertices.length) (some : last ≠ 0)
    (turned : vertices[last]? ≠ vertices[last - 1]?) :
    Ends (firstSegment vertices last) (last + 1) (fun first => first < last) := by
  refine Ends.imp (skipEqual_ends (I := fun first => first < last) last ?_ ?_ ?_ (by omega)) fun first holds => holds.1
  · intro i more
    exact of_decide_eq_true more
  · intro i below _
    omega
  · intro i below _ equal
    exact succ_lt_last turned below equal

/-- The loop over the other sides ends. -/
lemma apart_ends {initLine : Line} {last jLast j : Nat} (lt : last < vertices.length) (le : jLast ≤ last) :
    Ends (apart vertices initLine last jLast · j) (2 * vertices.length + 2) (fun _ => True) := by
  refine Ends.mono (Ends.loop (I := fun _ => True) (k := vertices.length + 1) (fun j => jLast + 1 - j) (fun j _ => ?_)
    trivial) (by omega)
  by_cases more : j ≤ jLast
  · simp only [if_pos more]
    apply Ends.bind
    · refine Ends.mono (skipEqual_ends (I := fun i => j ≤ i) (last + 1) ?_ ?_ ?_ (Nat.le_refl j)) (by omega)
      · intro i more
        exact Nat.lt_succ_of_le (of_decide_eq_true more)
      · intro i _ more
        exact ⟨Nat.lt_of_le_of_lt (of_decide_eq_true more) lt, Nat.mod_lt _ (Nat.zero_lt_of_lt lt)⟩
      · intro i le' _ _
        exact Nat.le_succ_of_le le'
    · rintro i ⟨le', -⟩
      by_cases beyond : i > last
      · simp only [if_pos beyond]
        exact Ends.const trivial
      · have here := List.getElem?_eq_getElem (Nat.lt_of_le_of_lt (Nat.le_of_not_lt beyond) lt)
        have there := List.getElem?_eq_getElem (Nat.mod_lt (i + 1) (Nat.zero_lt_of_lt lt))
        simp only [if_neg beyond, read_eq here, read_eq there, ended_bind]
        split
        · exact Ends.const trivial
        · exact Ends.const ⟨trivial, by dsimp only; omega⟩
  · simp only [if_neg more]
    exact Ends.const trivial

/-- Since vertex `last` differs from the one before it, the loop over `i` stays in front of it. -/
lemma simple_ends {first last i : Nat} (lt : last < vertices.length) (turned : vertices[last]? ≠ vertices[last - 1]?)
    (below : i < last) :
    Ends (simple vertices first last · i) (validFuel vertices) (fun _ => True) := by
  refine Ends.mono (Ends.loop (I := fun i => i < last) (k := 2 * vertices.length + 2) (fun i => last - i)
    (fun i below => ?_) below) (by unfold validFuel; omega)
  simp only [if_pos (Nat.le_of_lt below)]
  apply Ends.bind
  · refine Ends.mono (skipEqual_ends (I := fun i' => i ≤ i' ∧ i' < last) (last + 1) ?_ ?_ ?_
      ⟨Nat.le_refl i, below⟩) (by omega)
    · intro i' more
      exact Nat.lt_succ_of_le (of_decide_eq_true more)
    · intro i' inv _
      omega
    · intro i' inv _ equal
      exact ⟨Nat.le_succ_of_le inv.1, succ_lt_last turned inv.2 equal⟩
  · rintro i' ⟨⟨le, below'⟩, -⟩
    have jLast_le : (if i' = first then last - 1 else last) ≤ last := by split <;> omega
    generalize (if i' = first then last - 1 else last) = jLast at jLast_le
    simp only [if_neg (Nat.not_lt_of_lt below')]
    apply Ends.bind
    · refine Ends.mono (skipEqual_ends (I := fun j => i' + 2 ≤ j) (jLast + 1) ?_ ?_ ?_
        (Nat.le_refl (i' + 2))) (by omega)
      · intro j more
        exact Nat.lt_succ_of_le (of_decide_eq_true more)
      · intro j _ more
        have le' := of_decide_eq_true more
        omega
      · intro j le' _ _
        exact Nat.le_succ_of_le le'
    · rintro j ⟨ahead, -⟩
      by_cases beyond : j > jLast
      · simp only [if_pos beyond]
        exact Ends.const trivial
      · have here := List.getElem?_eq_getElem (Nat.lt_trans below' lt)
        have there := List.getElem?_eq_getElem (show i' + 1 < vertices.length by omega)
        simp only [if_neg beyond, read_eq here, read_eq there, ended_bind]
        apply Ends.bind
        · exact apart_ends lt jLast_le
        · intro none _
          cases none
          · exact Ends.const trivial
          · exact Ends.const ⟨by omega, by dsimp only; omega⟩

/-- `is_valid` ends for all vertices, and never reads one that is not there. -/
lemma validWalk_ends (vertices : List Point) :
    ∀ fuel ≥ validFuel vertices, validWalk vertices fuel = .ended (valid vertices) := by
  have ends : Ends (validWalk vertices) (validFuel vertices) (fun _ => True) := by
    unfold validWalk
    by_cases few : vertices.length < 3
    · simp only [if_pos few]
      exact Ends.const trivial
    · simp only [if_neg few]
      apply Ends.bind
      · exact Ends.mono (lastSegment_ends (by omega)) (by unfold validFuel; omega)
      · rintro last ⟨lt, turned⟩
        by_cases short : last < 2
        · simp only [if_pos short]
          exact Ends.const trivial
        · have turned := turned (by omega)
          simp only [if_neg short]
          apply Ends.bind
          · exact Ends.mono (firstSegment_ends lt (by omega) turned) (by unfold validFuel; omega)
          · intro first below
            exact simple_ends lt turned below
  obtain ⟨answer, ended, -⟩ := ends
  have here : valid vertices = answer := by
    rw [valid, ended (validFuel vertices) (Nat.le_refl _)]
    cases answer <;> rfl
  rw [here]
  exact ended

end OsterLib.Geometry.Polygon
