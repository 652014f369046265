import OsterLib.Geometry.Polyline
import OsterLib.Geometry.Queries
import OsterLib.Lib.Stretch

/-!
# Equivalent polygons and polylines

`Polygon::equivalent` of `Polygon.h` and `equivalent` of two polylines of `Polyline.h`. Both look for the first vertex
in the other list and compare, from there on, the stretches of equal vertices of the two lists.

A polygon whose vertices are all equal is walked around for ever. Of a polygon whose last two vertices are equal, and of
every polyline, a vertex behind the last one is read when the last stretch is reached. `walks_end_iff` says for which
arguments the functions end inside of the lists.
-/

namespace OsterLib.Geometry
open OsterLib.Lib OsterLib.Lib.Walk

section model
variable (vertices other : List Point)

/-- The loop that skips equal vertices, `i_loc` being the index behind `i` -/
def skipOwn (last : Nat) : Nat → Nat × Nat → Walk (Nat × Nat) :=
  skip (fun (i, iLoc) => do return (← same vertices i iLoc) && i < last) fun (i, iLoc) => (i + 1, iLoc + 1)

/-- The walk of the other polygon over equal vertices -/
def skipOther (next : Nat → Nat) : Nat → Nat → Walk Nat := skip (fun j => same other j (next j)) next

/-- A turn of the loop of both functions, where `locOf` is what `i_loc` is at first, and `next` what comes behind `j` -/
def compareTurn (last : Nat) (locOf next : Nat → Nat) (fuel : Nat) : Nat × Nat → Walk ((Nat × Nat) ⊕ Bool)
  | (i, j) =>
    if i ≤ last then do
      let j ← skipOther other next fuel j
      let (i, _) ← skipOwn vertices last fuel (i, locOf i)
      if (← read vertices i) ≠ (← read other j) then return .inr false
      else return .inl (i + 1, next j)
    else return .inr true

/-- The walk over both polygons, vertex by vertex -/
def compareVertices (last : Nat) (locOf next : Nat → Nat) : Nat → Nat × Nat → Walk Bool :=
  loop (compareTurn vertices other last locOf next)

/-- `||` of several tests -/
def anyOf : List (Walk Bool) → Walk Bool
  | [] => return false
  | test :: tests => do
    if ← test then return true else anyOf tests

end model

namespace Polygon
variable {R : Type}

/-- The vertex after `j` in either direction, which `other_inc` says -/
def turn (size : Nat) (forward : Bool) (j : Nat) : Nat :=
  if forward then (j + 1 + size) % size else (j + size - 1) % size

/-- The loop of `Polygon::equivalent` -/
def compareAround (vertices other : List Point) (forward : Bool) : Nat → Nat × Nat → Walk Bool :=
  let size := vertices.length
  compareVertices vertices other (size - 1) (fun i => (i + 1 + size) % size) (turn other.length forward)

/-- Whether the extreme coordinates of two polygons differ, for one of the four lists of each -/
def extremeDiffers (values : List ℚ) (indices : List Nat) (values' : List ℚ) (indices' : List Nat) : Walk Bool :=
  if indices.isEmpty then return false
  else do
    let extreme ← ofOption (frontOf values indices)
    let extreme' ← ofOption (frontOf values' indices')
    return extreme ≠ extreme'

/-- `Polygon::equivalent`. The orientations that it makes the polygons keep are left out. -/
def equivalent (pg other : Polygon ℚ R) (fuel : Nat) : Walk Bool := do
  let (clockwise, _) ← ofOption pg.isClockwise
  let (clockwise', _) ← ofOption other.isClockwise
  if ← anyOf [extremeDiffers pg.xs pg.maxX other.xs other.maxX, extremeDiffers pg.ys pg.maxY other.ys other.maxY,
      extremeDiffers pg.xs pg.minX other.xs other.minX, extremeDiffers pg.ys pg.minY other.ys other.minY] then
    return false
  else
    let front ← read pg.vertices 0
    let iter := other.vertices.idxOf front
    if iter = other.vertices.length then return false
    else compareAround pg.vertices other.vertices (clockwise = clockwise') fuel (0, iter)

end Polygon

namespace Polyline

/-- `equivalent` of two polylines, with `at` for every vertex -/
def equivalent (first second : Polyline) (fuel : Nat) : Walk Bool := do
  let front ← read first.vertices 0
  let iter := second.vertices.idxOf front
  if iter = second.vertices.length then return false
  else
    compareVertices first.vertices second.vertices first.numberSegments (fun i => i + 1) (fun j => j + 1) fuel (0, iter)

end Polyline

/-! ## A turn of the loop -/

section turns
variable {vertices other : List Point} {last : Nat} {locOf next : Nat → Nat} {i j e f iLoc : Nat} {p q : Point}

/-- The walk over equal vertices ends behind their stretch. -/
lemma own_stretch (whole : last + 1 = vertices.length) (stretch : StretchEnd vertices (· + 1) i p e) :
    Comes (skipOwn vertices last · (i, i + 1)) (.ended (e, e + 1)) := by
  induction stretch with
  | stop here there ne =>
    apply Comes.skip_done
    simp only [same, read_eq here, read_eq there, ended_bind, pure_eq, decide_eq_false ne, Bool.false_and]
  | @stay i e p here stretch ih =>
    have lt : i < last := by
      have lt := (List.getElem?_eq_some_iff.mp stretch.head).1
      omega
    apply Comes.skip_next
    · simp only [same, read_eq here, read_eq stretch.head, ended_bind, pure_eq, decide_true, Bool.true_and,
        decide_eq_true lt]
    · exact ih

/-- From a stretch without an end, `i_loc` leaves the vertices. -/
lemma own_outside (whole : last + 1 = vertices.length) (le : i ≤ last)
    (all : ∀ k, i ≤ k → k < vertices.length → vertices[k]? = some p) :
    Comes (skipOwn vertices last · (i, i + 1)) .outside := by
  have here := all i (Nat.le_refl i) (by omega)
  induction left : last - i generalizing i with
  | zero =>
    apply Comes.skip_outside
    simp only [same, read_eq here, read_outside (show vertices.length ≤ i + 1 by omega), ended_bind, outside_bind]
  | succ left ih =>
    have there := all (i + 1) (Nat.le_succ i) (by omega)
    apply Comes.skip_next
    · simp only [same, read_eq here, read_eq there, ended_bind, pure_eq, decide_true, Bool.true_and]
      rw [decide_eq_true (by omega)]
    · exact ih (by omega) (fun k le' => all k (by omega)) there (by omega)

/-- At the last vertex, the loop is left whatever vertex `i_loc` is. -/
lemma own_last (here : vertices[last]? = some p) (there : vertices[iLoc]? = some q) :
    Comes (skipOwn vertices last · (last, iLoc)) (.ended (last, iLoc)) := by
  apply Comes.skip_done
  simp only [same, read_eq here, read_eq there, ended_bind, pure_eq, Nat.lt_irrefl, decide_false, Bool.and_false]

/-- The last stretch of a list is left behind the last vertex. -/
lemma other_outside (lt : j < other.length) (all : ∀ k, j ≤ k → k < other.length → other[k]? = some q) :
    Comes (skipOther other (· + 1) · j) .outside := by
  have here := all j (Nat.le_refl j) lt
  induction left : other.length - (j + 1) generalizing j with
  | zero =>
    apply Comes.skip_outside
    simp only [same, read_eq here, read_outside (show other.length ≤ j + 1 by omega), ended_bind, outside_bind]
  | succ left ih =>
    have there := all (j + 1) (Nat.le_succ j) (by omega)
    apply Comes.skip_next
    · simp only [same, read_eq here, read_eq there, ended_bind, pure_eq, decide_true]
    · exact ih (by omega) (fun k le' => all k (by omega)) there (by omega)

/-- There is no end of equal vertices all around. -/
lemma other_running (keep : ∀ j, j < other.length → next j < other.length) (lt : j < other.length)
    (equal : ∀ p ∈ other, ∀ q ∈ other, p = q) : Comes (skipOther other next · j) .running := by
  refine Comes.skip_forever (I := (· < other.length)) (fun j lt => ⟨?_, keep j lt⟩) lt
  have here := equal _ (List.getElem_mem lt) _ (List.getElem_mem (keep j lt))
  rw [same_eq lt (keep j lt), List.getElem?_eq_getElem lt, List.getElem?_eq_getElem (keep j lt), here]
  exact congrArg Walk.ended (decide_eq_true rfl)

/-- A turn of the comparison -/
lemma turn_eq (le : i ≤ last) (fuel : Nat) :
    compareTurn vertices other last locOf next fuel (i, j) =
      skipOther other next fuel j >>= fun j =>
        skipOwn vertices last fuel (i, locOf i) >>= fun (i, _) => do
          if (← read vertices i) ≠ (← read other j) then return .inr false
          else return .inl (i + 1, next j) :=
  if_pos le

/-- Both stretches have an end. -/
lemma turn_of_ends (le : i ≤ last) (first : Comes (skipOther other next · j) (.ended f))
    (second : Comes (skipOwn vertices last · (i, locOf i)) (.ended (e, iLoc))) (here : vertices[e]? = some p)
    (there : other[f]? = some q) :
    Comes (compareTurn vertices other last locOf next · (i, j))
      (.ended (if p ≠ q then .inr false else .inl (e + 1, next f))) := by
  simp only [turn_eq le]
  refine first.bind _ (second.bind _ ?_)
  simp only [read_eq here, read_eq there, ended_bind, pure_eq]
  split <;> exact Comes.const _

/-- The walk is stuck in the other list. -/
lemma compare_other_outside (le : i ≤ last) (first : Comes (skipOther other next · j) .outside) :
    Comes (compareVertices vertices other last locOf next · (i, j)) .outside := by
  apply Comes.loop_outside
  simp only [turn_eq le]
  exact first.bind_outside _

/-- The comparison keeps running where the other walk does. -/
lemma compare_other_running (le : i ≤ last) (first : Comes (skipOther other next · j) .running) :
    Comes (compareVertices vertices other last locOf next · (i, j)) .running := by
  apply Comes.loop_running
  simp only [turn_eq le]
  exact first.bind_running _

/-- The comparison leaves the vertices where the own walk does. -/
lemma compare_own_outside (le : i ≤ last) (first : Comes (skipOther other next · j) (.ended f))
    (second : Comes (skipOwn vertices last · (i, locOf i)) .outside) :
    Comes (compareVertices vertices other last locOf next · (i, j)) .outside := by
  apply Comes.loop_outside
  simp only [turn_eq le]
  exact first.bind _ (second.bind_outside _)

/-- Behind the last vertex all were equal. -/
lemma compare_end (lt : last < i) : Comes (compareVertices vertices other last locOf next · (i, j)) (.ended true) := by
  apply Comes.loop_done
  simp only [compareTurn, if_neg (Nat.not_le_of_lt lt)]
  exact Comes.const _

/-- The vertices at the ends of two stretches are compared, and if they are equal the walk goes on behind them. -/
lemma compare_of_ends (locOf : Nat → Nat) (le : i ≤ last) (first : Comes (skipOther other next · j) (.ended f))
    (second : Comes (skipOwn vertices last · (i, locOf i)) (.ended (e, iLoc))) (here : vertices[e]? = some p)
    (there : other[f]? = some q) :
    (p ≠ q → Comes (compareVertices vertices other last locOf next · (i, j)) (.ended false)) ∧
      (p = q → ∀ outcome, Comes (compareVertices vertices other last locOf next · (e + 1, next f)) outcome →
        Comes (compareVertices vertices other last locOf next · (i, j)) outcome) := by
  have turn := turn_of_ends le first second here there
  constructor
  · intro ne
    rw [if_pos ne] at turn
    exact Comes.loop_done turn
  · intro same outcome later
    rw [if_neg (not_not_intro same)] at turn
    exact Comes.loop_next turn later

end turns

/-! ## Two polylines -/

/-- One list is the beginning of the other. -/
def Comparable (l l' : List Point) : Prop := l <+: l' ∨ l' <+: l

/-- Two lists are comparable if their first values are equal and the others comparable. -/
lemma comparable_cons_iff {p q : Point} {l l' : List Point} :
    Comparable (p :: l) (q :: l') ↔ p = q ∧ Comparable l l' := by
  unfold Comparable
  rw [List.cons_prefix_cons, List.cons_prefix_cons, eq_comm (a := q), ← and_or_left]

/-- The empty list is comparable with all. -/
lemma comparable_nil (l : List Point) : Comparable [] l := .inl ⟨l, rfl⟩

/-- Being comparable is symmetric. -/
lemma Comparable.symm {l l' : List Point} (comparable : Comparable l l') : Comparable l' l := Or.symm comparable

namespace Polyline
variable {vertices other : List Point}

/-- The polylines are compared up to a difference in front of the last stretches of both. Without such a difference, a
    vertex is read behind the last one. -/
lemma compare_outcome {last i j : Nat} (whole : last + 1 = vertices.length) (lt : i < vertices.length)
    (lt' : j < other.length) :
    (Comparable (stretches (vertices.drop i)).dropLast (stretches (other.drop j)).dropLast ∧
        Comes (compareVertices vertices other last (fun i => i + 1) (fun j => j + 1) · (i, j)) .outside) ∨
      (¬Comparable (stretches (vertices.drop i)).dropLast (stretches (other.drop j)).dropLast ∧
        Comes (compareVertices vertices other last (fun i => i + 1) (fun j => j + 1) · (i, j)) (.ended false)) := by
  induction i, lt using stretch_induction generalizing j with
  | stretch i p e lt more stretch le rest ih =>
    rcases stretch_or_rest lt' with ⟨q, f, ahead, -, rest'⟩ | ⟨q, rest', all'⟩
    · obtain ⟨q', after, -⟩ := ahead.behind
      have more' := (List.getElem?_eq_some_iff.mp after).1
      have own := own_stretch whole stretch
      obtain ⟨differ, go⟩ := compare_of_ends _ (show i ≤ last by omega) ahead.skip own stretch.last ahead.last
      rw [rest, rest', List.dropLast_cons_of_ne_nil (stretches_drop_ne_nil more),
        List.dropLast_cons_of_ne_nil (stretches_drop_ne_nil more'), comparable_cons_iff]
      by_cases same : p = q
      · rcases ih more' with ⟨comparable, off⟩ | ⟨differs, ended⟩
        · exact .inl ⟨⟨same, comparable⟩, go same _ off⟩
        · exact .inr ⟨fun both => differs both.2, go same _ ended⟩
      · exact .inr ⟨fun both => same both.1, differ same⟩
    · refine .inl ⟨?_, compare_other_outside (by omega) (other_outside lt' all')⟩
      rw [rest']
      exact (comparable_nil _).symm
  | rest i p lt rest all =>
    have own := own_outside whole (show i ≤ last by omega) all
    rw [rest]
    refine .inl ⟨comparable_nil _, ?_⟩
    rcases stretch_or_rest lt' with ⟨q, f, ahead, -, -⟩ | ⟨q, -, all'⟩
    · exact compare_own_outside (by omega) ahead.skip own
    · exact compare_other_outside (by omega) (other_outside lt' all')

end Polyline

/-! ## Two polygons -/

/-- From vertex `i` on there are two vertices or more, and the last two are equal. -/
def TwinEnd (vertices : List Point) (i : Nat) : Prop :=
  i + 1 < vertices.length ∧ vertices[vertices.length - 1]? = vertices[vertices.length - 2]?

/-- The vertices are not all equal. -/
def Varied (vertices : List Point) : Prop := ∃ p ∈ vertices, ∃ q ∈ vertices, p ≠ q

namespace Polygon

section turning
variable {vertices : List Point} {forward : Bool} {j : Nat}

/-- The next vertex on the way around is inside. -/
lemma turn_lt (forward : Bool) (j : Nat) (pos : 0 < vertices.length) :
    turn vertices.length forward j < vertices.length := by
  unfold turn
  split <;> exact Nat.mod_lt _ pos

/-- Backwards is forwards by all vertices but one. -/
lemma turn_eq {size : Nat} (pos : 0 < size) : turn size forward j = (j + if forward then 1 else size - 1) % size := by
  cases forward with
  | false =>
    rw [turn, if_neg Bool.false_ne_true, if_neg Bool.false_ne_true, Nat.add_sub_assoc pos]
  | true =>
    rw [turn, if_pos rfl, if_pos rfl, Nat.add_mod_right]

/-- The vertex that is some turns away -/
lemma turn_iterate {size : Nat} (lt : j < size) (k : Nat) :
    (turn size forward)^[k] j = (j + k * if forward then 1 else size - 1) % size := by
  induction k with
  | zero => rw [Nat.zero_mul, Nat.add_zero, Nat.mod_eq_of_lt lt]; rfl
  | succ k ih =>
    rw [Function.iterate_succ_apply', ih, turn_eq (by omega), Nat.mod_add_mod, Nat.add_assoc, Nat.succ_mul]

/-- Ahead, the next vertex is the one behind. -/
lemma turn_succ {size : Nat} (ahead : forward = true) (lt : j + 1 < size) : turn size forward j = j + 1 := by
  rw [turn, if_pos ahead, Nat.add_mod_right, Nat.mod_eq_of_lt lt]

/-- Every vertex is on the way. -/
lemma exists_turn (forward : Bool) {size : Nat} (lt : j < size) {t : Nat} (lt' : t < size) :
    ∃ k, (turn size forward)^[k] j = t := by
  cases forward with
  | true =>
    refine ⟨t + size - j, ?_⟩
    rw [turn_iterate lt, if_pos rfl, Nat.mul_one, show j + (t + size - j) = t + size by omega, Nat.add_mod_right,
      Nat.mod_eq_of_lt lt']
  | false =>
    obtain ⟨back, rfl⟩ := Nat.exists_eq_add_of_lt (Nat.zero_lt_of_lt lt)
    rw [Nat.zero_add] at lt lt' ⊢
    refine ⟨j + back - t + 1, ?_⟩
    have around : j + (j + back - t + 1) * back = t + (j + back - t) * (back + 1) := by
      rw [Nat.succ_mul, Nat.mul_succ]
      omega
    rw [turn_iterate lt, if_neg Bool.false_ne_true, Nat.add_sub_cancel, around, Nat.add_mul_mod_self_right,
      Nat.mod_eq_of_lt lt']

/-- Around vertices that are not all equal, all stretches have an end. -/
lemma stretch_ends (forward : Bool) (varied : Varied vertices) (lt : j < vertices.length) :
    ∃ p e, StretchEnd vertices (turn vertices.length forward) j p e := by
  have here := List.getElem?_eq_getElem lt
  obtain ⟨t, q, there, ne⟩ : ∃ (t : Nat) (q : Point), vertices[t]? = some q ∧ vertices[j] ≠ q := by
    obtain ⟨p, mem, q, mem', ne⟩ := varied
    obtain ⟨t, there⟩ := List.mem_iff_getElem?.mp mem
    obtain ⟨t', there'⟩ := List.mem_iff_getElem?.mp mem'
    by_cases same : vertices[j] = p
    · exact ⟨t', q, there', fun same' => ne (same.symm.trans same')⟩
    · exact ⟨t, p, there, same⟩
  obtain ⟨k, reached⟩ := exists_turn forward lt (List.getElem?_eq_some_iff.mp there).1
  have inside (k : Nat) : (turn vertices.length forward)^[k] j < vertices.length := by
    rw [turn_iterate lt]
    exact Nat.mod_lt _ (Nat.zero_lt_of_lt lt)
  obtain ⟨e, stretch⟩ := exists_stretchEnd inside here (reached ▸ there) ne
  exact ⟨vertices[j], e, stretch⟩

end turning

section around
variable {vertices other : List Point} {forward : Bool} {i j : Nat}

/-- The walk comes to an outcome if the other polygon has the given stretches from `j` on, and ends with `false` if
    not. -/
def ComesAround (vertices other : List Point) (forward : Bool) (i j : Nat) (ps : List Point) (outcome : Walk Bool) :
    Prop :=
  (Passes other (turn other.length forward) j ps ∧ Comes (compareAround vertices other forward · (i, j)) outcome) ∨
    (¬Passes other (turn other.length forward) j ps ∧
      Comes (compareAround vertices other forward · (i, j)) (.ended false))

/-- One stretch of both polygons -/
lemma ComesAround.one {e f : Nat} {p q : Point} {ps : List Point} {outcome : Walk Bool}
    (stretch : StretchEnd vertices (· + 1) i p e) (ahead : StretchEnd other (turn other.length forward) j q f)
    (later : ComesAround vertices other forward (e + 1) (turn other.length forward f) ps outcome) :
    ComesAround vertices other forward i j (p :: ps) outcome := by
  have lt := stretch.next_lt
  have loc : (i + 1 + vertices.length) % vertices.length = i + 1 := by rw [Nat.add_mod_right, Nat.mod_eq_of_lt lt]
  have own := own_stretch (Nat.sub_add_cancel (Nat.zero_lt_of_lt lt)) stretch
  rw [← loc] at own
  obtain ⟨differ, go⟩ := compare_of_ends (fun i => (i + 1 + vertices.length) % vertices.length)
    (Nat.le_sub_one_of_lt (Nat.lt_of_succ_lt lt)) ahead.skip own stretch.last ahead.last
  unfold ComesAround
  rw [passes_cons_iff ahead]
  by_cases same : p = q
  · cases later with
    | inl passes => exact .inl ⟨⟨same, passes.1⟩, go same _ passes.2⟩
    | inr fails => exact .inr ⟨fun both => fails.1 both.2, go same _ fails.2⟩
  · exact .inr ⟨fun both => same both.1, differ same⟩

/-- The last vertex -/
lemma ComesAround.last {f : Nat} {p q : Point} (whole : i + 1 = vertices.length) (here : vertices[i]? = some p)
    (ahead : StretchEnd other (turn other.length forward) j q f) :
    ComesAround vertices other forward i j [p] (.ended true) := by
  obtain rfl : i = vertices.length - 1 := by omega
  have loc : (vertices.length - 1 + 1 + vertices.length) % vertices.length < vertices.length := Nat.mod_lt _ (by omega)
  have own := own_last here (List.getElem?_eq_getElem loc)
  obtain ⟨differ, go⟩ := compare_of_ends (fun i => (i + 1 + vertices.length) % vertices.length) (Nat.le_refl _)
    ahead.skip own here ahead.last
  unfold ComesAround
  rw [passes_cons_iff ahead]
  by_cases same : p = q
  · exact .inl ⟨⟨same, .none⟩, go same _ (compare_end (Nat.lt_succ_self _))⟩
  · exact .inr ⟨fun both => same both.1, differ same⟩

/-- What the walk comes to where the last two vertices differ -/
lemma comes_around (varied : Varied other) (lt : i < vertices.length) (lt' : j < other.length)
    (single : ¬TwinEnd vertices i) :
    ComesAround vertices other forward i j (stretches (vertices.drop i)) (.ended true) := by
  induction i, lt using stretch_induction generalizing j with
  | stretch i p e lt more stretch le rest ih =>
    obtain ⟨q, f, ahead⟩ := stretch_ends forward varied lt'
    rw [rest]
    refine .one stretch ahead (ih (turn_lt forward f (Nat.zero_lt_of_lt lt')) ?_)
    rintro ⟨_, equal⟩
    exact single ⟨by omega, equal⟩
  | rest i p lt rest all =>
    obtain ⟨q, f, ahead⟩ := stretch_ends forward varied lt'
    rw [rest]
    refine .last ?_ (all i (Nat.le_refl i) lt) ahead
    by_contra more
    refine single ⟨by omega, ?_⟩
    rw [all (vertices.length - 1) (by omega) (by omega), all (vertices.length - 2) (by omega) (by omega)]

/-- What the walk comes to where they are equal -/
lemma comes_outside (varied : Varied other) (lt : i < vertices.length) (lt' : j < other.length)
    (twins : TwinEnd vertices i) :
    ComesAround vertices other forward i j (stretches (vertices.drop i)).dropLast .outside := by
  induction i, lt using stretch_induction generalizing j with
  | stretch i p e lt more stretch le rest ih =>
    obtain ⟨q, f, ahead⟩ := stretch_ends forward varied lt'
    rw [rest, List.dropLast_cons_of_ne_nil (stretches_drop_ne_nil more)]
    refine .one stretch ahead (ih (turn_lt forward f (Nat.zero_lt_of_lt lt')) ⟨?_, twins.2⟩)
    -- the end of the stretch and the vertex behind it are not the twins
    obtain ⟨p', after, ne⟩ := stretch.behind
    by_contra reached
    have last : vertices.length - 1 = e + 1 := by omega
    have before : vertices.length - 2 = e := by omega
    have equal := twins.2
    rw [last, before, after, stretch.last] at equal
    exact ne (Option.some.inj equal).symm
  | rest i p lt rest all =>
    obtain ⟨q, f, ahead⟩ := stretch_ends forward varied lt'
    have loc : (i + 1 + vertices.length) % vertices.length = i + 1 := by
      rw [Nat.add_mod_right, Nat.mod_eq_of_lt twins.1]
    have own := own_outside (Nat.sub_add_cancel (Nat.zero_lt_of_lt lt)) (Nat.le_sub_one_of_lt lt) all
    rw [← loc] at own
    rw [rest]
    exact .inl ⟨.none, compare_own_outside (Nat.le_sub_one_of_lt lt) ahead.skip own⟩

end around

/-! ## The two functions -/

variable {pg other : Polygon ℚ R}

/-- The extreme coordinates of two polygons are the same. -/
def SameExtremes (pg other : Polygon ℚ R) : Prop :=
  frontOf pg.xs pg.maxX = frontOf other.xs other.maxX ∧ frontOf pg.ys pg.maxY = frontOf other.ys other.maxY ∧
    frontOf pg.xs pg.minX = frontOf other.xs other.minX ∧ frontOf pg.ys pg.minY = frontOf other.ys other.minY

/-- `is_clockwise` has the same answer for both. -/
def forward (pg other : Polygon ℚ R) : Bool := pg.isClockwise.map Prod.fst = other.isClockwise.map Prod.fst

/-- The extremes are compared where both are known. -/
lemma extremeDiffers_eq {values values' : List ℚ} {indices indices' : List Nat} {extreme extreme' : ℚ}
    (here : frontOf values indices = some extreme) (there : frontOf values' indices' = some extreme') :
    extremeDiffers values indices values' indices' = .ended (decide (extreme ≠ extreme')) := by
  unfold extremeDiffers
  cases indices with
  | nil => cases here
  | cons front rest =>
    rw [here, there]
    rfl

/-- Answers that are known are combined. -/
lemma anyOf_ended (answers : List Bool) : anyOf (answers.map Walk.ended) = .ended (answers.any id) := by
  induction answers with
  | nil => rfl
  | cons answer answers ih =>
    cases answer with
    | false => exact ih
    | true => rfl

/-- `equivalent` of polygons with vertices -/
lemma equivalent_eq (bordered : pg.Bordered) (bordered' : other.Bordered) (some' : other.vertices ≠ []) {front : Point}
    {rest : List Point} (vertices : pg.vertices = front :: rest) (fuel : Nat) :
    (SameExtremes pg other ∧ front ∈ other.vertices → pg.equivalent other fuel =
        compareAround pg.vertices other.vertices (forward pg other) fuel (0, other.vertices.idxOf front)) ∧
      (¬(SameExtremes pg other ∧ front ∈ other.vertices) → pg.equivalent other fuel = .ended false) := by
  obtain ⟨⟨clockwise, _⟩, call⟩ := exists_isClockwise bordered
  obtain ⟨⟨clockwise', _⟩, call'⟩ := exists_isClockwise bordered'
  obtain ⟨left, right, bottom, top, minX, maxX, minY, maxY⟩ :=
    bordered.hasExtremes (by rw [vertices]; exact List.cons_ne_nil _ _)
  obtain ⟨left', right', bottom', top', minX', maxX', minY', maxY'⟩ := bordered'.hasExtremes some'
  have extremes : SameExtremes pg other ↔ right = right' ∧ top = top' ∧ left = left' ∧ bottom = bottom' := by
    unfold SameExtremes
    rw [minX, maxX, minY, maxY, minX', maxX', minY', maxY']
    simp only [Option.some.injEq]
  have orientation : forward pg other = decide (clockwise = clockwise') := by
    rw [forward, call, call']
    simp only [Option.map_some, Option.some.injEq]
  have tests := anyOf_ended [right ≠ right', top ≠ top', left ≠ left', bottom ≠ bottom']
  have front_eq : read pg.vertices 0 = .ended front := read_eq (by rw [vertices]; rfl)
  unfold equivalent
  rw [call, call', extremeDiffers_eq maxX maxX', extremeDiffers_eq maxY maxY', extremeDiffers_eq minX minX',
    extremeDiffers_eq minY minY']
  rw [List.map_cons, List.map_cons, List.map_cons, List.map_cons, List.map_nil] at tests
  rw [tests, extremes, orientation]
  simp only [ofOption_some, ended_bind, front_eq, List.idxOf_eq_length_iff, pure_eq]
  constructor
  · rintro ⟨⟨rfl, rfl, rfl, rfl⟩, mem⟩
    simp only [ne_eq, not_true_eq_false, decide_false, List.any_cons, id, List.any_nil, Bool.or_false,
      Bool.false_eq_true, if_false, mem]
  · intro fails
    split
    case isTrue => rfl
    case isFalse equal =>
      refine if_pos fun mem => fails ⟨?_, mem⟩
      simpa only [List.any_cons, List.any_nil, id, Bool.or_false, Bool.or_eq_true, decide_eq_true_iff, not_or, not_not]
        using equal

/-- Where the first vertex is found in a polygon with the same extreme coordinates, the vertices of that one are not all
    equal, and if the last two vertices are, some stretch in front of them is not found around it. -/
def EquivalentEnds (pg other : Polygon ℚ R) : Prop :=
  ∀ front ∈ pg.vertices.head?, SameExtremes pg other ∧ front ∈ other.vertices →
    Varied other.vertices ∧
      ¬(TwinEnd pg.vertices 0 ∧
        ∃ n, (stretches pg.vertices).dropLast <+: stretches
          (around other.vertices (turn other.vertices.length (forward pg other)) n (other.vertices.idxOf front)))

/-- Around equal vertices the walk goes on for ever. -/
lemma around_running {vertices other : List Point} {forward : Bool} {i j : Nat} (equal : ¬Varied other)
    (lt : i < vertices.length) (lt' : j < other.length) :
    Comes (compareAround vertices other forward · (i, j)) .running := by
  apply compare_other_running (Nat.le_sub_one_of_lt lt)
  apply other_running (fun j _ => turn_lt _ j (Nat.zero_lt_of_lt lt')) lt'
  intro p mem q mem'
  by_contra ne
  exact equal ⟨p, mem, q, mem', ne⟩

/-- The comparison of polygons ends inside exactly under the condition. -/
lemma endsInside_iff (bordered : pg.Bordered) (bordered' : other.Bordered) (some : pg.vertices ≠ [])
    (some' : other.vertices ≠ []) :
    EndsInside (pg.equivalent other) ↔ EquivalentEnds pg other := by
  obtain ⟨front, rest, vertices⟩ := List.exists_cons_of_ne_nil some
  have front_eq : pg.vertices.head? = .some front := by rw [vertices]; rfl
  have eq := equivalent_eq bordered bordered' some' vertices
  unfold EquivalentEnds
  rw [front_eq]
  simp only [Option.mem_some_iff, forall_eq']
  by_cases found : SameExtremes pg other ∧ front ∈ other.vertices
  · have walk : pg.equivalent other = _ := funext fun fuel => (eq fuel).1 found
    have lt : 0 < pg.vertices.length := List.length_pos_of_ne_nil some
    have lt' := List.idxOf_lt_length_of_mem found.2
    rw [walk, forall_prop_of_true found]
    by_cases varied : Varied other.vertices
    · have passes_iff := passes_iff (fun j lt => stretch_ends (forward pg other) varied lt)
        (fun j _ => turn_lt _ j (Nat.zero_lt_of_lt lt')) lt'
      by_cases twins : TwinEnd pg.vertices 0
      · rcases comes_outside varied lt lt' twins with ⟨passes, off⟩ | ⟨fails, ended⟩
        · exact iff_of_false (not_endsInside_of_outside off) fun right => right.2 ⟨twins, (passes_iff _).mp passes⟩
        · exact iff_of_true (.of_comes ended) ⟨varied, fun both => fails ((passes_iff _).mpr both.2)⟩
      · refine iff_of_true ?_ ⟨varied, fun both => twins both.1⟩
        rcases comes_around varied lt lt' twins with ⟨-, ended⟩ | ⟨-, ended⟩
        · exact .of_comes ended
        · exact .of_comes ended
    · exact iff_of_false (not_endsInside_of_running (around_running varied lt lt')) fun right => varied right.1
  · have walk : pg.equivalent other = fun _ => .ended false := funext fun fuel => (eq fuel).2 found
    rw [walk]
    exact iff_of_true (.of_comes (Comes.const _)) fun found' => absurd found' found

/-- A polygon is found to be equivalent to itself where its vertices are not all equal and the last two differ. -/
lemma equivalent_self_iff (bordered : pg.Bordered) (some : pg.vertices ≠ []) :
    Comes (pg.equivalent pg) (.ended true) ↔ Varied pg.vertices ∧ ¬TwinEnd pg.vertices 0 := by
  obtain ⟨front, rest, vertices⟩ := List.exists_cons_of_ne_nil some
  have mem : front ∈ pg.vertices := by
    rw [vertices]
    exact List.mem_cons_self
  have found : SameExtremes pg pg ∧ front ∈ pg.vertices := ⟨⟨rfl, rfl, rfl, rfl⟩, mem⟩
  have start : pg.vertices.idxOf front = 0 := by rw [vertices, List.idxOf_cons_self]
  have walk : pg.equivalent pg = (compareAround pg.vertices pg.vertices (forward pg pg) · (0, 0)) := by
    funext fuel
    rw [(equivalent_eq bordered bordered some vertices fuel).1 found, start]
  have lt : 0 < pg.vertices.length := List.length_pos_of_ne_nil some
  rw [walk]
  by_cases varied : Varied pg.vertices
  · by_cases twins : TwinEnd pg.vertices 0
    · refine iff_of_false (fun ended => ?_) fun right => right.2 twins
      rcases comes_outside varied lt lt twins with ⟨-, off⟩ | ⟨-, ended'⟩
      · cases ended.unique off
      · cases ended.unique ended'
    · refine iff_of_true ?_ ⟨varied, twins⟩
      rcases comes_around varied lt lt twins with ⟨-, ended⟩ | ⟨fails, -⟩
      · exact ended
      · have whole : around pg.vertices (turn pg.vertices.length (forward pg pg)) pg.vertices.length 0 =
            pg.vertices.drop 0 :=
          around_drop (fun j more => turn_succ (decide_eq_true rfl) more) (Nat.zero_add _)
        refine absurd ?_ fails
        refine (passes_iff (fun j lt => stretch_ends (forward pg pg) varied lt) (fun j _ => turn_lt _ j lt) lt _).mpr
          ⟨pg.vertices.length, ?_⟩
        rw [whole]
  · refine iff_of_false (fun ended => ?_) fun right => varied right.1
    cases ended.unique (around_running varied lt lt)

end Polygon

namespace Polyline
variable {first second : Polyline}

/-- Where the first vertex is found in the other polyline, the stretches in front of the last one of the polyline, and
    those of the other one from there on, differ somewhere. -/
def EquivalentEnds (first second : Polyline) : Prop :=
  ∀ front ∈ first.vertices.head?, front ∈ second.vertices →
    ¬Comparable (stretches first.vertices).dropLast
      (stretches (second.vertices.drop (second.vertices.idxOf front))).dropLast

/-- A polyline whose first vertex is in the other one is compared with it from there. -/
lemma equivalent_of_mem {front : Point} {rest : List Point} (vertices : first.vertices = front :: rest)
    (mem : front ∈ second.vertices) (fuel : Nat) :
    first.equivalent second fuel =
      compareVertices first.vertices second.vertices (first.vertices.length - 1) (fun i => i + 1) (fun j => j + 1) fuel
        (0, second.vertices.idxOf front) := by
  have here : read first.vertices 0 = .ended front := read_eq (by rw [vertices]; rfl)
  have last : first.numberSegments = first.vertices.length - 1 := by
    unfold numberSegments
    split <;> omega
  unfold equivalent
  rw [here, ended_bind, last]
  exact if_neg fun off => List.idxOf_eq_length_iff.mp off mem

/-- A polyline whose first vertex is not in the other one is not equivalent to it. -/
lemma equivalent_of_notMem {front : Point} {rest : List Point} (vertices : first.vertices = front :: rest)
    (off : front ∉ second.vertices) (fuel : Nat) : first.equivalent second fuel = .ended false := by
  have here : read first.vertices 0 = .ended front := read_eq (by rw [vertices]; rfl)
  unfold equivalent
  rw [here, ended_bind]
  exact if_pos (List.idxOf_eq_length_iff.mpr off)

/-- The comparison of polylines ends inside exactly under the condition. -/
lemma endsInside_iff (some : first.vertices ≠ []) :
    EndsInside (first.equivalent second) ↔ EquivalentEnds first second := by
  obtain ⟨front, rest, vertices⟩ := List.exists_cons_of_ne_nil some
  have front_eq : first.vertices.head? = .some front := by rw [vertices]; rfl
  unfold EquivalentEnds
  rw [front_eq]
  simp only [Option.mem_some_iff, forall_eq']
  by_cases mem : front ∈ second.vertices
  · have walk : first.equivalent second = _ := funext (equivalent_of_mem vertices mem)
    have whole := Nat.sub_add_cancel (List.length_pos_of_ne_nil some)
    rw [walk, forall_prop_of_true mem]
    have lt := List.length_pos_of_ne_nil some
    rcases compare_outcome whole lt (List.idxOf_lt_length_of_mem mem) with ⟨same, off⟩ | ⟨differ, ended⟩
    · exact iff_of_false (not_endsInside_of_outside off) fun differ => differ same
    · exact iff_of_true (.of_comes ended) differ
  · have walk : first.equivalent second = fun _ => .ended false := funext (equivalent_of_notMem vertices mem)
    rw [walk]
    exact iff_of_true (.of_comes (Comes.const _)) fun mem' => absurd mem' mem

/-- No polyline is found to be equivalent to itself. -/
lemma not_endsInside_self (some : first.vertices ≠ []) : ¬EndsInside (first.equivalent first) := by
  rw [endsInside_iff some]
  obtain ⟨front, rest, vertices⟩ := List.exists_cons_of_ne_nil some
  intro differ
  refine differ front (by rw [vertices]; rfl) (by rw [vertices]; exact List.mem_cons_self) ?_
  rw [vertices, List.idxOf_cons_self]
  exact .inl List.prefix_rfl

end Polyline

/-! ## Where the walks end -/

section ends
variable {R : Type} {pg other : Polygon ℚ R} {first : Polyline}

/-- `is_valid` ends inside of the vertices. `equivalent` of polygons does under a condition on the two, and says that
    a polygon is equivalent to itself where its vertices are not all equal and the last two differ. `equivalent` of
    polylines ends only at a difference, so never for a polyline and itself. -/
theorem walks_end_iff (bordered : pg.Bordered) (bordered' : other.Bordered) (some : pg.vertices ≠ [])
    (some' : other.vertices ≠ []) (someFirst : first.vertices ≠ []) (second : Polyline) :
    EndsInside (Polygon.validWalk pg.vertices) ∧
      (EndsInside (pg.equivalent other) ↔ pg.EquivalentEnds other) ∧
      (Comes (pg.equivalent pg) (.ended true) ↔ Varied pg.vertices ∧ ¬TwinEnd pg.vertices 0) ∧
      (EndsInside (first.equivalent second) ↔ first.EquivalentEnds second) ∧
      ¬EndsInside (first.equivalent first) := by
  refine ⟨?_, ?_, ?_, ?_, ?_⟩
  · exact .of_comes ⟨_, Polygon.validWalk_ends pg.vertices⟩
  · exact Polygon.endsInside_iff bordered bordered' some some'
  · exact Polygon.equivalent_self_iff bordered some
  · exact Polyline.endsInside_iff someFirst
  · exact Polyline.not_endsInside_self someFirst

/-- The vertices are appended one by one. -/
def Polygon.ofVertices (vertices : List Point) : Polygon ℚ ℚ := run (append id) new vertices

/-- A polygon of some vertices is bordered. -/
lemma Polygon.bordered_ofVertices (vertices : List Point) : (ofVertices vertices).Bordered :=
  run_of_keep (fun _ coord bordered => bordered.append coord) vertices bordered_new

/-- A triangle is found to be equivalent to itself, and a vertex behind a polyline of one segment is read. -/
theorem triangle_equivalent_self :
    Comes ((Polygon.ofVertices [(0, 0), (1, 0), (0, 1)]).equivalent (Polygon.ofVertices [(0, 0), (1, 0), (0, 1)]))
        (.ended true) ∧
      ¬EndsInside (Polyline.equivalent ⟨[(0, 0), (1, 0)]⟩ ⟨[(0, 0), (1, 0)]⟩) := by
  have bordered := Polygon.bordered_ofVertices [(0, 0), (1, 0), (0, 1)]
  have some : (Polygon.ofVertices [(0, 0), (1, 0), (0, 1)]).vertices ≠ [] := by decide +kernel
  have somePl : (⟨[(0, 0), (1, 0)]⟩ : Polyline).vertices ≠ [] := by decide
  have ends := walks_end_iff bordered bordered some some somePl ⟨[]⟩
  refine ⟨ends.2.2.1.mpr ⟨⟨(0, 0), ?_, (1, 0), ?_, ?_⟩, ?_⟩, ends.2.2.2.2⟩
  · decide +kernel
  · decide +kernel
  · decide +kernel
  · unfold TwinEnd
    decide +kernel

/-- A triangle with its last vertex twice, and a polyline of one segment, are compared with themselves. -/
theorem walks_left_behind :
    (¬∀ vertices : List Point, vertices ≠ [] →
        EndsInside ((Polygon.ofVertices vertices).equivalent (Polygon.ofVertices vertices))) ∧
      ¬∀ pl : Polyline, pl.vertices ≠ [] → EndsInside (pl.equivalent pl) := by
  constructor
  · intro ends
    have bordered := Polygon.bordered_ofVertices [(0, 0), (1, 0), (0, 1), (0, 1)]
    have some : (Polygon.ofVertices [(0, 0), (1, 0), (0, 1), (0, 1)]).vertices ≠ [] := by decide +kernel
    have inside := (Polygon.endsInside_iff bordered bordered some some).mp (ends _ (by decide)) (0, 0)
      (by decide +kernel)
    obtain ⟨-, notTwins⟩ := inside ⟨⟨rfl, rfl, rfl, rfl⟩, by decide +kernel⟩
    refine notTwins ⟨?_, 4, ?_⟩
    · unfold TwinEnd
      decide +kernel
    · decide +kernel
  · intro ends
    exact Polyline.not_endsInside_self (by decide) (ends ⟨[(0, 0), (1, 0)]⟩ (by decide))

end ends
end OsterLib.Geometry
