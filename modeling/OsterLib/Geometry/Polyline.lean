import Mathlib.Data.List.Destutter
import OsterLib.Geometry.Line

/-!
# Polylines

`intersections` of a polyline and a line of `Polyline.h`, and `cut` of a polyline by a line.

`cut` keeps the vertices on one side of the line, and a second call those on the other. Its loop takes every second of
the crossings only, and returns nothing where there is none, so both calls together leave out vertices where there are
no crossings or more than one (`not_splits_of_many`). `cut_right_iff` says where they split the polyline: where it
crosses the line exactly once, at a segment that is not nearly parallel to it, and has no vertex twice in a row behind
it.
-/

namespace OsterLib.Geometry
open OsterLib.Lib

/-- `BasicPolyline`, by its vertices -/
structure Polyline where
  vertices : List Point
  deriving DecidableEq

namespace Polyline

/-- `number_segments` -/
def numberSegments (pl : Polyline) : Nat := if pl.vertices.length < 2 then 0 else pl.vertices.length - 1

/-- `append` -/
def append (pl : Polyline) (coord : Point) : Polyline := ⟨pl.vertices ++ [coord]⟩

/-! ## Crossings -/

/-- What `intersections` makes of segment `i`, from `p` to `q` -/
def crossing (line : Line) (result : List Intersection) (i : Nat) (p q : Point) : List Intersection :=
  let currentLine : Line := ⟨p, q⟩
  if intersects currentLine line then
    match currentLine.intersections line with
    | [] => result
    | front :: _ =>
      match result.getLast? with
      | none => result ++ [⟨front.point, i, 0⟩]
      | some back => if back.point ≠ front.point then result ++ [⟨front.point, i, 0⟩] else result
  else result

/-- The loop of `intersections` over the segments of the vertices from `i` on -/
def crossings (line : Line) : Nat → List Intersection → List Point → List Intersection
  | i, result, p :: q :: rest => crossings line (i + 1) (crossing line result i p q) (q :: rest)
  | _, result, _ => result

/-- `intersections` of a polyline and a line -/
def intersections (pl : Polyline) (line : Line) : List Intersection :=
  if line.first = line.second ∨ pl.numberSegments = 0 then []
  else (crossings line 0 [] pl.vertices).mergeSort fun lhs rhs => lhs.firstElemId ≤ rhs.firstElemId

/-! ## Cutting -/

/-- Whether the part that is kept begins at a crossing -/
def intersectionOpenning (vertices : List Point) (cutting : Line) (leftForward : Bool) (is : Intersection) : Bool :=
  let side := cross cutting.first cutting.second (vertices.getD is.firstElemId (0, 0))
  if side > 0 then !leftForward else leftForward

/-- The vertices from `first` on, those from `last` on left out -/
def span (vertices : List Point) (first last : Nat) : List Point := (vertices.drop first).take (last - first)

/-- Vertices appended to a part, but for those that are its last already -/
def appendOther (last : Polyline) (vertices : List Point) : Polyline :=
  vertices.foldl (fun last vertice => if some vertice ≠ last.vertices.getLast? then last.append vertice else last) last

/-- More vertices for the last part, which is a new one where there is none -/
def appendLast (result : List Polyline) (vertices : List Point) : List Polyline :=
  let result := if result = [] then [⟨[]⟩] else result
  result.dropLast ++ [⟨(result.getLast?.getD ⟨[]⟩).vertices ++ vertices⟩]

/-- The loop of `cut` over the turns from `i` on, of which it takes two at a time -/
def cutLoop (vertices : List Point) : Nat → Bool → List Polyline → List Intersection → List Polyline
  | _, _, result, [] => result
  | i, true, result, [turn] =>
    appendLast result
      (span vertices (if i = 0 then 0 else turn.firstElemId + 1) (turn.firstElemId + 1) ++ [turn.point])
  | i, true, result, turn :: next :: turns =>
    let result := appendLast result
      (span vertices (if i = 0 then 0 else turn.firstElemId + 1) next.firstElemId ++ [next.point])
    cutLoop vertices (i + 2) false result turns
  | _, false, result, [turn] =>
    result ++ [appendOther ⟨[turn.point]⟩ (vertices.drop (turn.firstElemId + 1))]
  | i, false, result, turn :: _ :: turns => cutLoop vertices (i + 2) true (result ++ [⟨[turn.point]⟩]) turns

/-- `cut` -/
def cut (cutted : Polyline) (cutting : Line) (leftForward : Bool) : List Polyline :=
  match cutted.intersections cutting with
  | [] => []
  | front :: turns =>
    let inside := !intersectionOpenning cutted.vertices cutting leftForward front
    cutLoop cutted.vertices 0 inside [] (front :: turns)

/-! ## What cutting is for -/

variable {pl cutted piece : Polyline} {line cutting : Line}

/-- The point is on the side of the line that the call keeps. -/
def OnSide (cutting : Line) (leftForward : Bool) (p : Point) : Prop := decide (0 < cutting.side p) = leftForward

/-- The common points of the segment between two vertices and the line, where there is such a segment -/
def Between (cutting : Line) (before after : Option Point) (p : Point) : Prop :=
  ∃ first second, before = some first ∧ after = some second ∧ p ∈ (Line.mk first second).points ∩ cutting.points

/-- The piece is a connected part: vertices in a row, with the common point before the first of them and the one behind
    the last of them or without. -/
def Part (cutted : Polyline) (cutting : Line) (piece : Polyline) : Prop :=
  ∃ before vertices after start finish, cutted.vertices = before ++ vertices ++ after ∧ vertices ≠ [] ∧
    piece.vertices = start ++ vertices ++ finish ∧
    (start = [] ∨ ∃ p, start = [p] ∧ Between cutting before.getLast? vertices.head? p) ∧
    (finish = [] ∨ ∃ p, finish = [p] ∧ Between cutting vertices.getLast? after.head? p)

/-- No vertex is on the line, and every segment that has a common point with it crosses it. -/
structure Proper (cutted : Polyline) (cutting : Line) : Prop where
  off : ∀ v ∈ cutted.vertices, cutting.side v ≠ 0
  crosses : cutted.vertices.IsChain fun p q => Meet ⟨p, q⟩ cutting → (Line.mk p q).Cross cutting

/-- The points of the pieces that are not on the line, which are vertices -/
def kept (cutting : Line) (pieces : List Polyline) : List Point :=
  (pieces.flatMap vertices).filter (cutting.side · ≠ 0)

instance (leftForward : Bool) : DecidablePred (OnSide cutting leftForward) :=
  fun _ => inferInstanceAs (Decidable (_ = _))

/-- Each call keeps the vertices of its side, in their order, in connected parts. -/
def Splits (cutted : Polyline) (cutting : Line) : Prop :=
  ∀ leftForward, kept cutting (cut cutted cutting leftForward) = cutted.vertices.filter (OnSide cutting leftForward) ∧
    ∀ piece ∈ cut cutted cutting leftForward, Part cutted cutting piece

/-- The polyline crosses the line at a single segment, with all of it before on one side and all of it behind on the
    other; the segment is not nearly parallel to the line, and behind it no vertex comes twice in a row. -/
def CrossesOnce (cutted : Polyline) (cutting : Line) : Prop :=
  ∃ before p q after leftForward, cutted.vertices = before ++ p :: q :: after ∧
    Meet ⟨p, q⟩ cutting ∧ ¬(Line.mk p q).NearlyParallel cutting ∧
    (∀ v ∈ before ++ [p], OnSide cutting leftForward v) ∧ (∀ v ∈ q :: after, OnSide cutting (!leftForward) v) ∧
    (q :: after).IsChain (· ≠ ·)

/-! ## The crossings of a polyline -/

/-- A crossing at a segment of the vertices from `i` on -/
def Turn (line : Line) (i : Nat) (vertices : List Point) (turn : Intersection) : Prop :=
  ∃ before p q after, vertices = before ++ p :: q :: after ∧ turn.firstElemId = i + before.length ∧
    Meet ⟨p, q⟩ line ∧ ¬(Line.mk p q).NearlyParallel line ∧ turn.point = (Line.mk p q).meeting line

/-- A turn is counted from the vertices in front of it. -/
lemma Turn.later {i : Nat} {p : Point} {vertices : List Point} {turn : Intersection}
    (at_ : Turn line (i + 1) vertices turn) : Turn line i (p :: vertices) turn := by
  obtain ⟨before, first, second, after, rfl, id, found⟩ := at_
  refine ⟨p :: before, first, second, after, rfl, ?_, found⟩
  rw [id, List.length_cons]
  omega

/-- A crossing is behind those of the segments before it, and in front of the last vertex. -/
lemma Turn.range {i : Nat} {vertices : List Point} {turn : Intersection} (at_ : Turn line i vertices turn) :
    i ≤ turn.firstElemId ∧ turn.firstElemId + 1 < i + vertices.length := by
  obtain ⟨before, first, second, after, rfl, id, -⟩ := at_
  rw [id, List.length_append, List.length_cons, List.length_cons]
  omega

/-- A turn is on the line. -/
lemma Turn.side {i : Nat} {vertices : List Point} {turn : Intersection} (at_ : Turn line i vertices turn) :
    line.side turn.point = 0 := by
  obtain ⟨before, first, second, after, -, -, -, crossing, point⟩ := at_
  rw [point]
  exact Line.side_meeting crossing

/-- A segment adds one crossing to those before it, or none. -/
lemma crossing_cases (line : Line) (result : List Intersection) (i : Nat) (p q : Point) :
    crossing line result i p q = result ∨
      (Meet ⟨p, q⟩ line ∧ ¬(Line.mk p q).NearlyParallel line ∧
        crossing line result i p q = result ++ [⟨(Line.mk p q).meeting line, i, 0⟩]) := by
  unfold crossing
  dsimp only
  by_cases meets : intersects ⟨p, q⟩ line = true
  · rw [if_pos meets]
    by_cases parallel : (Line.mk p q).NearlyParallel line
    · rw [Line.intersections, if_pos parallel]
      exact .inl rfl
    · rw [Line.intersections_eq parallel]
      have meet := intersects_iff.mp meets
      cases result.getLast? with
      | none => exact .inr ⟨meet, parallel, rfl⟩
      | some back =>
        dsimp only
        split
        · exact .inr ⟨meet, parallel, rfl⟩
        · exact .inl rfl
  · rw [if_neg meets]
    exact .inl rfl

/-- The loop adds crossings in the order of the segments. -/
lemma crossings_spec (line : Line) (i : Nat) (result : List Intersection) (vertices : List Point) :
    ∃ turns, crossings line i result vertices = result ++ turns ∧
      turns.Pairwise (fun lhs rhs => lhs.firstElemId < rhs.firstElemId) ∧
      ∀ turn ∈ turns, Turn line i vertices turn := by
  induction vertices generalizing i result with
  | nil => exact ⟨[], (List.append_nil _).symm, .nil, by simp⟩
  | cons p rest ih =>
    cases rest with
    | nil => exact ⟨[], (List.append_nil _).symm, .nil, by simp⟩
    | cons q rest =>
      obtain ⟨turns, loop, sorted, found⟩ := ih (i + 1) (crossing line result i p q)
      have later : ∀ turn ∈ turns, Turn line i (p :: q :: rest) turn := fun turn mem => (found turn mem).later
      rw [crossings, loop]
      rcases crossing_cases line result i p q with same | ⟨meet, parallel, new⟩
      · rw [same]
        exact ⟨turns, rfl, sorted, later⟩
      · rw [new, List.append_assoc]
        refine ⟨_, rfl, List.pairwise_cons.mpr ⟨?_, sorted⟩, ?_⟩
        · intro turn mem
          exact (found turn mem).range.1
        · exact List.forall_mem_cons.mpr ⟨⟨[], p, q, rest, rfl, rfl, meet, parallel, rfl⟩, later⟩

/-- The loop finds the crossings in their order already. -/
lemma intersections_eq (pl : Polyline) (line : Line) :
    pl.intersections line =
      if line.first = line.second ∨ pl.numberSegments = 0 then [] else crossings line 0 [] pl.vertices := by
  obtain ⟨turns, loop, sorted, -⟩ := crossings_spec line 0 [] pl.vertices
  rw [intersections, loop, List.nil_append, List.mergeSort_of_pairwise]
  exact sorted.imp fun lt => decide_eq_true (Nat.le_of_lt lt)

/-- The crossings of a polyline, one at a segment at most, in their order -/
lemma intersections_spec (pl : Polyline) (line : Line) :
    (pl.intersections line).Pairwise (fun lhs rhs => lhs.firstElemId < rhs.firstElemId) ∧
      ∀ turn ∈ pl.intersections line, Turn line 0 pl.vertices turn := by
  obtain ⟨turns, loop, sorted, found⟩ := crossings_spec line 0 [] pl.vertices
  rw [intersections_eq]
  split
  case isTrue => exact ⟨.nil, by simp⟩
  case isFalse =>
    rw [loop]
    exact ⟨sorted, found⟩

/-! ## The points of the pieces -/

/-- The points that the loop appends to the pieces -/
def walked (vertices : List Point) : Nat → Bool → List Intersection → List Point
  | _, _, [] => []
  | i, true, [turn] =>
    span vertices (if i = 0 then 0 else turn.firstElemId + 1) (turn.firstElemId + 1) ++ [turn.point]
  | i, true, turn :: next :: turns =>
    span vertices (if i = 0 then 0 else turn.firstElemId + 1) next.firstElemId ++ next.point ::
      walked vertices (i + 2) false turns
  | _, false, [turn] => (vertices.drop (turn.firstElemId + 1)).destutter' (· ≠ ·) turn.point
  | i, false, turn :: _ :: turns => turn.point :: walked vertices (i + 2) true turns

/-- Vertices are appended but for those that repeat the one before. -/
lemma appendOther_eq (front : List Point) (p : Point) (vertices : List Point) :
    (appendOther ⟨front ++ [p]⟩ vertices).vertices = front ++ vertices.destutter' (· ≠ ·) p := by
  induction vertices generalizing front p with
  | nil => rfl
  | cons v vertices ih =>
    rw [appendOther, List.foldl_cons, List.destutter'_cons, List.getLast?_concat]
    by_cases new : p ≠ v
    · rw [if_pos new, if_pos fun same => new (Option.some.inj same).symm]
      calc (appendOther ⟨front ++ [p] ++ [v]⟩ vertices).vertices
          = (front ++ [p]) ++ vertices.destutter' (· ≠ ·) v := ih (front ++ [p]) v
        _ = front ++ p :: vertices.destutter' (· ≠ ·) v := List.append_assoc _ _ _
    · rw [if_neg new, if_neg fun other => new fun same => other (congrArg some same.symm)]
      exact ih front p

/-- What is appended to the last piece is behind all points. -/
lemma appendLast_points (result : List Polyline) (new : List Point) :
    (appendLast result new).flatMap vertices = result.flatMap vertices ++ new := by
  rcases List.eq_nil_or_concat result with rfl | ⟨front, last, rfl⟩
  · simp [appendLast]
  · simp [appendLast]

/-- The pieces have the points that are walked. -/
lemma cutLoop_points (vertices : List Point) : ∀ (i : Nat) (inside : Bool) (result : List Polyline)
    (turns : List Intersection), (cutLoop vertices i inside result turns).flatMap Polyline.vertices =
      result.flatMap Polyline.vertices ++ walked vertices i inside turns
  | _, _, result, [] => by
    rw [cutLoop, walked, List.append_nil]
  | i, true, result, [turn] => by
    rw [cutLoop, walked, appendLast_points]
  | i, true, result, turn :: next :: turns => by
    rw [cutLoop, walked, cutLoop_points, appendLast_points, List.append_assoc, List.append_assoc]
    rfl
  | i, false, result, [turn] => by
    have part := appendOther_eq [] turn.point (vertices.drop (turn.firstElemId + 1))
    rw [List.nil_append, List.nil_append] at part
    rw [cutLoop, walked, List.flatMap_append, List.flatMap_singleton, part]
  | i, false, result, turn :: other :: turns => by
    rw [cutLoop, walked, cutLoop_points, List.flatMap_append, List.append_assoc]
    rfl

/-! ## The number of vertices that are kept -/

/-- How many of the points are not on the line -/
def offCount (line : Line) (points : List Point) : Nat := points.countP (line.side · ≠ 0)

/-- Points of both parts are off the line. -/
@[simp] lemma offCount_append (points others : List Point) :
    offCount line (points ++ others) = offCount line points + offCount line others := List.countP_append

/-- A point on the line is not off it. -/
lemma offCount_cons {p : Point} (on : line.side p = 0) (points : List Point) :
    offCount line (p :: points) = offCount line points :=
  List.countP_cons_of_neg fun off => of_decide_eq_true off on

/-- At most all points are off the line. -/
lemma offCount_le (points : List Point) : offCount line points ≤ points.length := List.countP_le_length

/-- At most the points of a span are off the line. -/
lemma offCount_span (line : Line) (vertices : List Point) (first last : Nat) :
    offCount line (span vertices first last) ≤ last - first :=
  Nat.le_trans (offCount_le _) (List.length_take_le _ _)

/-- At most the other points are off the line. -/
lemma offCount_other {p : Point} (on : line.side p = 0) (points : List Point) :
    offCount line (points.destutter' (· ≠ ·) p) ≤ points.length := by
  have fewer : offCount line (points.destutter' (· ≠ ·) p) ≤ offCount line (p :: points) :=
    List.Sublist.countP_le (points.destutter'_sublist (· ≠ ·) p)
  rw [offCount_cons on] at fewer
  exact Nat.le_trans fewer (offCount_le points)

/-- Behind the first two crossings, both calls together keep no vertex twice, and none in front of `low`. -/
lemma offCount_walked {vertices : List Point} {i : Nat} (behind : 0 < i) (low : Nat) (low_le : low ≤ vertices.length) :
    ∀ {turns : List Intersection}, turns.Pairwise (fun lhs rhs => lhs.firstElemId < rhs.firstElemId) →
      (∀ turn ∈ turns, Turn line 0 vertices turn) → (∀ turn ∈ turns, low ≤ turn.firstElemId + 1) →
      offCount line (walked vertices i true turns) + offCount line (walked vertices i false turns) + low ≤
        vertices.length
  | [], _, _, _ => by
    rw [walked, walked]
    exact Nat.le_trans (Nat.le_of_eq (Nat.zero_add _)) low_le
  | [turn], _, found, lows => by
    have at_ := found turn List.mem_cons_self
    have least := lows turn List.mem_cons_self
    have rest := offCount_other at_.side (vertices.drop (turn.firstElemId + 1))
    have first := offCount_span line vertices (turn.firstElemId + 1) (turn.firstElemId + 1)
    have range := at_.range
    rw [List.length_drop] at rest
    rw [walked, walked, if_neg (Nat.ne_of_gt behind), offCount_append, offCount_cons at_.side]
    have none : offCount line [] = 0 := rfl
    omega
  | turn :: next :: turns, sorted, found, lows => by
    obtain ⟨before, sorted⟩ := List.pairwise_cons.mp sorted
    obtain ⟨later, sorted⟩ := List.pairwise_cons.mp sorted
    have at_ := found turn List.mem_cons_self
    have at' := found next (List.mem_cons_of_mem _ List.mem_cons_self)
    have range := at'.range
    have rest := offCount_walked (Nat.add_pos_left behind 2) (next.firstElemId + 1) (by omega) sorted
      (fun turn mem => found turn (List.mem_cons_of_mem _ (List.mem_cons_of_mem _ mem)))
      (fun turn mem => Nat.le_succ_of_le (later turn mem))
    have first := offCount_span line vertices (turn.firstElemId + 1) next.firstElemId
    have least := lows turn List.mem_cons_self
    have order := before next List.mem_cons_self
    rw [walked, walked, if_neg (Nat.ne_of_gt behind), offCount_append, offCount_cons at_.side, offCount_cons at'.side]
    omega

/-- With two crossings or more, both calls together leave out a vertex. -/
lemma offCount_many {vertices : List Point} {turn next : Intersection} {turns : List Intersection}
    (sorted : (turn :: next :: turns).Pairwise (fun lhs rhs => lhs.firstElemId < rhs.firstElemId))
    (found : ∀ other ∈ turn :: next :: turns, Turn line 0 vertices other) :
    offCount line (walked vertices 0 true (turn :: next :: turns)) +
      offCount line (walked vertices 0 false (turn :: next :: turns)) < vertices.length := by
  obtain ⟨before, sorted⟩ := List.pairwise_cons.mp sorted
  obtain ⟨later, sorted⟩ := List.pairwise_cons.mp sorted
  have at_ := found turn List.mem_cons_self
  have at' := found next (List.mem_cons_of_mem _ List.mem_cons_self)
  have range := at'.range
  have rest := offCount_walked (i := 0 + 2) Nat.two_pos (next.firstElemId + 1) (by omega) sorted
    (fun turn mem => found turn (List.mem_cons_of_mem _ (List.mem_cons_of_mem _ mem)))
    (fun turn mem => Nat.le_succ_of_le (later turn mem))
  have first := offCount_span line vertices 0 next.firstElemId
  rw [walked, walked, if_pos rfl, offCount_append, offCount_cons at_.side, offCount_cons at'.side]
  omega

/-! ## Where cutting splits the polyline -/

/-- A call begins with the vertices of its side where the first crossing has such a vertex before it. -/
lemma cut_crossed {turn : Intersection} {turns : List Intersection}
    (crossed : cutted.intersections cutting = turn :: turns) (leftForward : Bool) :
    cut cutted cutting leftForward =
      cutLoop cutted.vertices 0
        (decide (0 < cutting.side (cutted.vertices.getD turn.firstElemId (0, 0))) == leftForward) []
        (turn :: turns) := by
  have inside : (!intersectionOpenning cutted.vertices cutting leftForward turn) =
      (decide (0 < cutting.side (cutted.vertices.getD turn.firstElemId (0, 0))) == leftForward) := by
    unfold intersectionOpenning Line.side
    dsimp only
    by_cases left : 0 < cross cutting.first cutting.second (cutted.vertices.getD turn.firstElemId (0, 0))
    · rw [if_pos left, decide_eq_true left, Bool.not_not, Bool.true_beq]
    · rw [if_neg left, decide_eq_false left, Bool.false_beq]
  rw [cut, crossed, ← inside]

/-- Without a crossing there is no piece. -/
lemma cut_uncrossed (none : cutted.intersections cutting = []) (leftForward : Bool) :
    cut cutted cutting leftForward = [] := by
  rw [cut, none]

/-- A point is on one side or the other. -/
lemma onSide_not {leftForward : Bool} {p : Point} :
    OnSide cutting (!leftForward) p ↔ ¬OnSide cutting leftForward p := by
  unfold OnSide
  rw [Bool.eq_not]

/-- Every vertex is on one of the sides. -/
lemma length_sides (cutting : Line) (points : List Point) :
    (points.filter (OnSide cutting true)).length + (points.filter (OnSide cutting false)).length = points.length := by
  have others : ∀ p ∈ points, decide (OnSide cutting false p) = !decide (OnSide cutting true p) := by
    intro p _
    rw [← decide_not]
    exact decide_eq_decide.mpr (@onSide_not _ true _)
  rw [List.filter_congr others]
  exact (List.length_eq_length_filter_add _).symm

/-- Both calls together keep as many vertices as there are. -/
lemma Splits.count (splits : Splits cutted cutting) :
    offCount cutting ((cut cutted cutting true).flatMap vertices) +
      offCount cutting ((cut cutted cutting false).flatMap vertices) = cutted.vertices.length := by
  have count : ∀ leftForward, offCount cutting ((cut cutted cutting leftForward).flatMap vertices) =
      (cutted.vertices.filter (OnSide cutting leftForward)).length := by
    intro leftForward
    rw [← (splits leftForward).1, kept, offCount, List.countP_eq_length_filter]
  rw [count, count, length_sides]

/-- Where there is more than one crossing, a vertex is in none of the pieces. -/
lemma not_splits_of_many {turn next : Intersection} {turns : List Intersection}
    (crossed : cutted.intersections cutting = turn :: next :: turns) : ¬Splits cutted cutting := by
  intro splits
  obtain ⟨sorted, found⟩ := intersections_spec cutted cutting
  rw [crossed] at sorted found
  have fewer := offCount_many sorted found
  have count := splits.count
  rw [cut_crossed crossed, cut_crossed crossed, cutLoop_points, cutLoop_points, List.flatMap_nil, List.nil_append,
    List.nil_append] at count
  generalize decide (0 < cutting.side (cutted.vertices.getD turn.firstElemId (0, 0))) = inside at count
  cases inside with
  | true =>
    simp only [Bool.true_beq] at count
    omega
  | false =>
    simp only [Bool.false_beq, Bool.not_true, Bool.not_false] at count
    omega

/-- Where there is no crossing, none of the vertices is. -/
lemma splits_uncrossed_iff (none : cutted.intersections cutting = []) :
    Splits cutted cutting ↔ cutted.vertices = [] := by
  constructor
  · intro splits
    have count := splits.count
    rw [cut_uncrossed none, cut_uncrossed none] at count
    exact List.length_eq_zero_iff.mp count.symm
  · intro empty leftForward
    rw [cut_uncrossed none, empty]
    exact ⟨rfl, by simp⟩

section single
variable {before after : List Point} {p q : Point} {turn : Intersection}

/-- What both calls return where there is a single crossing -/
lemma cut_single (crossed : cutted.intersections cutting = [turn])
    (parts : cutted.vertices = before ++ p :: q :: after) (id : turn.firstElemId = before.length) {leftForward : Bool}
    (side : OnSide cutting leftForward p) :
    cut cutted cutting leftForward = [⟨before ++ [p] ++ [turn.point]⟩] ∧
      cut cutted cutting (!leftForward) = [⟨(q :: after).destutter' (· ≠ ·) turn.point⟩] := by
  have first : cutted.vertices.getD turn.firstElemId (0, 0) = p := by
    rw [parts, id, List.getD_eq_getElem?_getD, List.getElem?_append_right (Nat.le_refl _), Nat.sub_self]
    rfl
  have back : cutted.vertices.drop (turn.firstElemId + 1) = q :: after := by
    rw [parts, id, ← List.drop_drop, List.drop_left]
    rfl
  have front : span cutted.vertices 0 (turn.firstElemId + 1) = before ++ [p] := by
    have parts' : cutted.vertices = (before ++ [p]) ++ q :: after := by rw [parts, List.append_assoc]; rfl
    rw [span, List.drop_zero, Nat.sub_zero, parts', id]
    exact List.take_left' (List.length_append)
  unfold OnSide at side
  rw [cut_crossed crossed, cut_crossed crossed, first, side]
  constructor
  · rw [beq_self_eq_true, cutLoop, if_pos rfl, front]
    rfl
  · have other : (leftForward == !leftForward) = false := by
      cases leftForward with
      | true => rfl
      | false => rfl
    have part := appendOther_eq [] turn.point (q :: after)
    rw [List.nil_append, List.nil_append] at part
    rw [other, cutLoop, back, List.nil_append, ← part]

/-- All points are off the line. -/
lemma filter_off {points : List Point} (off : ∀ v ∈ points, cutting.side v ≠ 0) :
    points.filter (cutting.side · ≠ 0) = points :=
  List.filter_eq_self.mpr fun v mem => decide_eq_true (off v mem)

/-- The vertices that both calls keep where there is a single crossing -/
lemma kept_single (crossed : cutted.intersections cutting = [turn])
    (parts : cutted.vertices = before ++ p :: q :: after) (id : turn.firstElemId = before.length)
    (off : ∀ v ∈ cutted.vertices, cutting.side v ≠ 0) (on : cutting.side turn.point = 0) {leftForward : Bool}
    (side : OnSide cutting leftForward p) :
    kept cutting (cut cutted cutting leftForward) = before ++ [p] ∧
      kept cutting (cut cutted cutting (!leftForward)) = after.destutter' (· ≠ ·) q := by
  obtain ⟨front, back⟩ := cut_single crossed parts id side
  have out : decide (cutting.side turn.point ≠ 0) = false := decide_eq_false fun off => off on
  have front_off : ∀ v ∈ before ++ [p], cutting.side v ≠ 0 := by
    intro v mem
    apply off v
    rw [parts, List.append_cons]
    exact List.mem_append_left _ mem
  have back_off : ∀ v ∈ q :: after, cutting.side v ≠ 0 := by
    intro v mem
    apply off v
    rw [parts, List.append_cons]
    exact List.mem_append_right _ mem
  constructor
  · rw [front, kept, List.flatMap_singleton, List.filter_append, filter_off front_off, List.filter_singleton, out]
    exact List.append_nil _
  · have new : turn.point ≠ q := by
      intro same
      exact back_off q List.mem_cons_self (same ▸ on)
    rw [back, kept, List.flatMap_singleton, List.destutter'_cons_pos _ new,
      List.filter_cons_of_neg (by rw [out]; exact Bool.false_ne_true)]
    apply filter_off
    intro v mem
    exact back_off v ((after.destutter'_sublist (· ≠ ·) q).mem mem)

/-- Where each side of a crossing is on one side of the line, both sides are told apart. -/
lemma filter_sides {front back : List Point} {leftForward : Bool} (sides : ∀ v ∈ front, OnSide cutting leftForward v)
    (others : ∀ v ∈ back, OnSide cutting (!leftForward) v) :
    (front ++ back).filter (OnSide cutting leftForward) = front ∧
      (front ++ back).filter (OnSide cutting (!leftForward)) = back := by
  rw [List.filter_append, List.filter_append]
  constructor
  · have none : back.filter (OnSide cutting leftForward) = [] := by
      rw [List.filter_eq_nil_iff]
      intro v mem
      rw [decide_eq_true_iff]
      exact onSide_not.mp (others v mem)
    rw [none, List.append_nil]
    exact List.filter_eq_self.mpr fun v mem => decide_eq_true (sides v mem)
  · have none : front.filter (OnSide cutting (!leftForward)) = [] := by
      rw [List.filter_eq_nil_iff]
      intro v mem
      rw [decide_eq_true_iff, onSide_not]
      exact not_not.mpr (sides v mem)
    rw [none, List.nil_append]
    exact List.filter_eq_self.mpr fun v mem => decide_eq_true (others v mem)

/-- Where a single crossing splits a polyline, the line has all of it in front of the crossing on one side and all of it
    behind on the other, and no vertex comes twice in a row there. -/
lemma sides_of_splits (crossed : cutted.intersections cutting = [turn])
    (parts : cutted.vertices = before ++ p :: q :: after) (id : turn.firstElemId = before.length)
    (off : ∀ v ∈ cutted.vertices, cutting.side v ≠ 0) (on : cutting.side turn.point = 0) {leftForward : Bool}
    (side : OnSide cutting leftForward p) (splits : Splits cutted cutting) :
    (∀ v ∈ before ++ [p], OnSide cutting leftForward v) ∧
      (∀ v ∈ q :: after, OnSide cutting (!leftForward) v) ∧ (q :: after).IsChain (· ≠ ·) := by
  have parts' : cutted.vertices = (before ++ [p]) ++ q :: after := by rw [parts, List.append_cons]
  obtain ⟨keptFront, keptBack⟩ := kept_single crossed parts id off on side
  have one := (splits leftForward).1
  have two := (splits !leftForward).1
  rw [keptFront, parts'] at one
  have sides : ∀ v ∈ before ++ [p], OnSide cutting leftForward v := by
    intro v mem
    rw [one] at mem
    exact of_decide_eq_true (List.mem_filter.mp mem).2
  have others : ∀ v ∈ q :: after, OnSide cutting (!leftForward) v := by
    intro v mem
    rw [List.filter_append, List.filter_eq_self.mpr fun v mem => decide_eq_true (sides v mem)] at one
    have none := List.append_cancel_left ((List.append_nil _).trans one)
    have away := List.filter_eq_nil_iff.mp none.symm v mem
    rw [onSide_not]
    exact fun side => away (decide_eq_true side)
  rw [keptBack, parts', (filter_sides sides others).2] at two
  exact ⟨sides, others, (List.destutter'_eq_self_iff _ (· ≠ ·) q).mp two⟩

/-- And there it is split: one call returns all of it in front of the crossing, the other one all of it behind. -/
lemma splits_of_sides (crossed : cutted.intersections cutting = [turn])
    (parts : cutted.vertices = before ++ p :: q :: after) (id : turn.firstElemId = before.length)
    (off : ∀ v ∈ cutted.vertices, cutting.side v ≠ 0) (on : cutting.side turn.point = 0)
    (mem : turn.point ∈ (Line.mk p q).points ∩ cutting.points) {leftForward : Bool}
    (side : OnSide cutting leftForward p) (sides : ∀ v ∈ before ++ [p], OnSide cutting leftForward v)
    (others : ∀ v ∈ q :: after, OnSide cutting (!leftForward) v) (chain : (q :: after).IsChain (· ≠ ·)) :
    Splits cutted cutting := by
  have parts' : cutted.vertices = (before ++ [p]) ++ q :: after := by rw [parts, List.append_cons]
  obtain ⟨front, back⟩ := cut_single crossed parts id side
  obtain ⟨keptFront, keptBack⟩ := kept_single crossed parts id off on side
  obtain ⟨filterFront, filterBack⟩ := filter_sides sides others
  have all := List.destutter'_of_isChain_cons _ (· ≠ ·) chain
  have new : turn.point ≠ q := by
    intro same
    exact off q (by rw [parts]; simp) (same ▸ on)
  intro forward
  cases Bool.eq_or_eq_not forward leftForward with
  | inl same =>
    rw [same, keptFront, parts', filterFront, front]
    refine ⟨rfl, ?_⟩
    intro piece found
    cases List.mem_singleton.mp found
    refine ⟨[], before ++ [p], q :: after, [], [turn.point], parts', by simp, rfl, .inl rfl, .inr ⟨_, rfl, ?_⟩⟩
    exact ⟨p, q, List.getLast?_concat, rfl, mem⟩
  | inr differ =>
    rw [differ, keptBack, parts', filterBack, all, back, List.destutter'_cons_pos _ new, all]
    refine ⟨rfl, ?_⟩
    intro piece found
    cases List.mem_singleton.mp found
    refine ⟨before ++ [p], q :: after, [], [turn.point], [], by rw [parts', List.append_nil], by simp,
      (List.append_nil _).symm, .inr ⟨_, rfl, ?_⟩, .inl rfl⟩
    exact ⟨p, q, List.getLast?_concat, rfl, mem⟩

/-- A polyline that crosses once is split exactly if what is stated holds of its ends. -/
lemma splits_single_iff (crossed : cutted.intersections cutting = [turn])
    (parts : cutted.vertices = before ++ p :: q :: after) (id : turn.firstElemId = before.length)
    (off : ∀ v ∈ cutted.vertices, cutting.side v ≠ 0) (on : cutting.side turn.point = 0)
    (mem : turn.point ∈ (Line.mk p q).points ∩ cutting.points) {leftForward : Bool}
    (side : OnSide cutting leftForward p) :
    Splits cutted cutting ↔ (∀ v ∈ before ++ [p], OnSide cutting leftForward v) ∧
      (∀ v ∈ q :: after, OnSide cutting (!leftForward) v) ∧ (q :: after).IsChain (· ≠ ·) :=
  ⟨sides_of_splits crossed parts id off on side,
    fun ⟨sides, others, chain⟩ => splits_of_sides crossed parts id off on mem side sides others chain⟩

end single

/-! ## A polyline that crosses the line once -/

/-- A segment on one side of the line has no crossing. -/
lemma crossing_side {leftForward : Bool} (result : List Intersection) (i : Nat) {p q : Point}
    (off : line.side p ≠ 0 ∧ line.side q ≠ 0) (sides : OnSide line leftForward p ∧ OnSide line leftForward q) :
    crossing line result i p q = result := by
  have apart : ¬Meet ⟨p, q⟩ line := Line.not_meet_of_side sides.1 sides.2 off.1 off.2
  rcases crossing_cases line result i p q with same | ⟨meet, -⟩
  · exact same
  · exact absurd meet apart

/-- The loop finds nothing up to a vertex with all vertices before it on its side. -/
lemma crossings_side {leftForward : Bool} (result : List Intersection) (i : Nat) {points : List Point} {p : Point}
    (off : ∀ v ∈ points ++ [p], line.side v ≠ 0) (sides : ∀ v ∈ points ++ [p], OnSide line leftForward v)
    (rest : List Point) :
    crossings line i result (points ++ p :: rest) = crossings line (i + points.length) result (p :: rest) := by
  induction points generalizing i with
  | nil => rfl
  | cons v points ih =>
    rw [List.cons_append, List.forall_mem_cons] at off sides
    have here : ∃ w others, points ++ p :: rest = w :: others ∧ w ∈ points ++ [p] := by
      cases points with
      | nil => exact ⟨p, rest, rfl, List.mem_singleton_self p⟩
      | cons w points => exact ⟨w, points ++ p :: rest, rfl, List.mem_cons_self⟩
    obtain ⟨w, others, next, mem⟩ := here
    have none := crossing_side result i ⟨off.1, off.2 w mem⟩ ⟨sides.1, sides.2 w mem⟩
    rw [List.cons_append, next, crossings, none, ← next, ih (i + 1) off.2 sides.2, List.length_cons]
    congr 1
    omega

section once
variable {before after : List Point} {p q : Point}

/-- A polyline that changes the side of the line once has one crossing. -/
lemma intersections_once {leftForward : Bool} (parts : cutted.vertices = before ++ p :: q :: after)
    (off : ∀ v ∈ cutted.vertices, cutting.side v ≠ 0) (meet : Meet ⟨p, q⟩ cutting)
    (parallel : ¬(Line.mk p q).NearlyParallel cutting) (sides : ∀ v ∈ before ++ [p], OnSide cutting leftForward v)
    (others : ∀ v ∈ q :: after, OnSide cutting (!leftForward) v) :
    cutted.intersections cutting = [⟨(Line.mk p q).meeting cutting, before.length, 0⟩] := by
  rw [parts, List.append_cons, List.forall_mem_append] at off
  have differ : cutting.first ≠ cutting.second := by
    intro same
    apply off.1 p (by simp)
    rw [Line.side, same]
    exact orient_same
  have some : cutted.numberSegments ≠ 0 := by
    have long : 2 ≤ cutted.vertices.length := by
      rw [parts, List.length_append, List.length_cons, List.length_cons]
      omega
    rw [numberSegments, if_neg (Nat.not_lt.mpr long)]
    omega
  have found : crossing cutting [] before.length p q = [⟨(Line.mk p q).meeting cutting, before.length, 0⟩] := by
    unfold crossing
    dsimp only
    rw [intersects_iff.mpr meet, if_pos rfl, Line.intersections_eq parallel]
    rfl
  have loop : crossings cutting 0 [] cutted.vertices = [⟨(Line.mk p q).meeting cutting, before.length, 0⟩] := by
    obtain ⟨front, last, back⟩ := (List.eq_nil_or_concat' (q :: after)).resolve_left (List.cons_ne_nil _ _)
    have rest : ∀ i result, crossings cutting i result (q :: after) = result := by
      intro i result
      rw [back] at off others ⊢
      rw [crossings_side result i off.2 others []]
      rfl
    rw [parts, crossings_side [] 0 off.1 sides, Nat.zero_add, crossings, found, rest]
  rw [intersections_eq, if_neg (not_or.mpr ⟨differ, some⟩), loop]

/-- A segment that has a common point with the line meets it there. -/
lemma Proper.meeting_mem (proper : Proper cutted cutting) (parts : cutted.vertices = before ++ p :: q :: after)
    (meet : Meet ⟨p, q⟩ cutting) : (Line.mk p q).meeting cutting ∈ (Line.mk p q).points ∩ cutting.points := by
  have chain := proper.crosses
  rw [parts, List.isChain_append_cons_cons] at chain
  exact (chain.2.1 meet).meeting_mem

end once

/-- Both calls of `cut` split a polyline exactly where it has no vertices, or where it crosses the line once. -/
theorem cut_right_iff (proper : Proper cutted cutting) :
    Splits cutted cutting ↔ cutted.vertices = [] ∨ CrossesOnce cutted cutting := by
  constructor
  · intro splits
    cases crossed : cutted.intersections cutting with
    | nil => exact .inl ((splits_uncrossed_iff crossed).mp splits)
    | cons turn turns =>
      cases turns with
      | cons next turns => exact absurd splits (not_splits_of_many crossed)
      | nil =>
        have at_ := (intersections_spec cutted cutting).2 turn (crossed ▸ List.mem_cons_self)
        have on := at_.side
        obtain ⟨before, p, q, after, parts, id, meet, parallel, point⟩ := at_
        rw [Nat.zero_add] at id
        have mem := proper.meeting_mem parts meet
        rw [← point] at mem
        have sides := (splits_single_iff crossed parts id proper.off on mem rfl).mp splits
        exact .inr ⟨before, p, q, after, _, parts, meet, parallel, sides⟩
  · rintro (empty | ⟨before, p, q, after, leftForward, parts, meet, parallel, sides⟩)
    · have none : cutted.intersections cutting = [] := by
        rw [intersections_eq, if_pos]
        right
        rw [numberSegments, empty]
        rfl
      exact (splits_uncrossed_iff none).mpr empty
    · have crossed := intersections_once parts proper.off meet parallel sides.1 sides.2.1
      have side := sides.1 p (by simp)
      exact (splits_single_iff crossed parts rfl proper.off (Line.side_meeting parallel) (proper.meeting_mem parts meet)
        side).mpr sides

/-- One segment is split by a line across it. -/
theorem cut_right_single : Splits ⟨[(0, 1), (0, -1)]⟩ ⟨(-1, 0), (1, 0)⟩ := by
  have proper : Proper ⟨[(0, 1), (0, -1)]⟩ ⟨(-1, 0), (1, 0)⟩ := by
    refine ⟨by norm_num [Line.side, cross], ?_⟩
    norm_num [Line.Cross, Across, Line.side, cross]
  refine (cut_right_iff proper).mpr (.inr ?_)
  refine ⟨[], (0, 1), (0, -1), [], true, rfl, ?_, by decide +kernel, ?_, ?_, .singleton _⟩
  · exact intersects_iff.mp (by decide +kernel)
  · decide +kernel
  · decide +kernel

/-- Of a polyline that goes below the axis and back, the second vertex is lost. -/
theorem cut_loses_vertex :
    Proper ⟨[(0, 1), (1, -1), (2, 1)]⟩ ⟨(-1, 0), (3, 0)⟩ ∧ ¬Splits ⟨[(0, 1), (1, -1), (2, 1)]⟩ ⟨(-1, 0), (3, 0)⟩ := by
  constructor
  · refine ⟨by norm_num [Line.side, cross], ?_⟩
    norm_num [Line.Cross, Across, Line.side, cross]
  · have crossed : intersections ⟨[(0, 1), (1, -1), (2, 1)]⟩ ⟨(-1, 0), (3, 0)⟩ =
        [⟨(1 / 2, 0), 0, 0⟩, ⟨(3 / 2, 0), 1, 0⟩] := by
      rw [intersections_eq]
      decide +kernel
    exact not_splits_of_many crossed

end Polyline

end OsterLib.Geometry
