import Mathlib.Algebra.Order.Field.Rat
import Mathlib.Data.List.InsertIdx
import Mathlib.Order.Compare
import Mathlib.Order.Lattice
import OsterLib.Lib.Extremes
import OsterLib.Lib.Run

/-!
# Polygons

`Polygon` of `Polygon.h`: the vertices, the indices of the extreme ones in four lists, and what is kept of the area, the
perimeter, the validity and the orientation. Coordinates are of any linearly ordered type, and `get<0>` and `lon_` are
the first, `get<1>` and `lat_` the second one of a point.

The four lists are updated with a new coordinate that was converted to `double`, which the vertices are not, and
`insert` takes the coordinate from a point that was moved from before. Where both compare with the coordinates of the
vertices as the new coordinate itself does, the lists are exact after every run of `append`, `insert` and `erase`
(`run_exact`). However they compare, each list begins with the index of a vertex (`run_bordered`).
-/

namespace OsterLib.Geometry
open OsterLib.Lib

/-- `Polygon`, with coordinates of type `K` and a perimeter of type `R` -/
structure Polygon (K R : Type) where
  vertices : List (K × K) := []
  minX : List Nat := []
  maxX : List Nat := []
  minY : List Nat := []
  maxY : List Nat := []
  area_ : K
  perimeter_ : R
  areaDefined : Bool := false
  perimeterDefined : Bool := false
  wiseDefined : Bool := false
  validDefined : Bool := false
  clockwise : Bool := false
  isValid_ : Bool := false
  deriving DecidableEq

namespace Polygon
variable {K R : Type} [LinearOrder K]

/-- A polygon without vertices -/
def new [Zero K] [Zero R] : Polygon K R := { area_ := 0, perimeter_ := 0 }

section updates
variable (toDouble : K → K) (pg : Polygon K R)

/-! ## The lists of extreme vertices -/

/-- The first coordinates -/
def xs : List K := pg.vertices.map Prod.fst

/-- The second coordinates -/
def ys : List K := pg.vertices.map Prod.snd

/-- `update_minX` -/
def updateMinX (x : K) (newPos : Nat) : Polygon K R :=
  { pg with minX := challenge (· < ·) pg.xs pg.minX (toDouble x) newPos }

/-- `update_minY` -/
def updateMinY (y : K) (newPos : Nat) : Polygon K R :=
  { pg with minY := challenge (· < ·) pg.ys pg.minY (toDouble y) newPos }

/-- `update_maxX` -/
def updateMaxX (x : K) (newPos : Nat) : Polygon K R :=
  { pg with maxX := challenge (· > ·) pg.xs pg.maxX (toDouble x) newPos }

/-- `update_maxY` -/
def updateMaxY (y : K) (newPos : Nat) : Polygon K R :=
  { pg with maxY := challenge (· > ·) pg.ys pg.maxY (toDouble y) newPos }

/-- The calls of all four, for a vertex and its position -/
def update (coord : K × K) (newPos : Nat) : Polygon K R :=
  let pg := pg.updateMinX toDouble coord.1 newPos
  let pg := pg.updateMaxX toDouble coord.1 newPos
  let pg := pg.updateMinY toDouble coord.2 newPos
  pg.updateMaxY toDouble coord.2 newPos

/-- The loop of `erase` that finds the extreme vertices anew, over the vertices from `i` on -/
def updates : Polygon K R → Nat → List (K × K) → Polygon K R
  | pg, _, [] => pg
  | pg, i, coord :: coords => updates (pg.update toDouble coord i) (i + 1) coords

/-- What is the same for all four lists is done to each of them. -/
def mapIndices (change : Nat → Nat) : Polygon K R :=
  { pg with
    minX := pg.minX.map change
    maxX := pg.maxX.map change
    minY := pg.minY.map change
    maxY := pg.maxY.map change }

/-! ## The operations -/

/-- The area, the validity and the orientation have to be computed again. -/
def reset : Polygon K R := { pg with areaDefined := false, validDefined := false, wiseDefined := false }

/-- Whether `append` resets: the vertex is neither the last nor the first one. -/
def appendResets (coord : K × K) : Bool :=
  match pg.vertices.getLast?, pg.vertices.head? with
  | some back, some front => back ≠ coord && front ≠ coord
  | _, _ => true

/-- `append` -/
def append (coord : K × K) : Polygon K R :=
  let pg := if pg.appendResets coord then pg.reset else pg
  let pg := pg.update toDouble coord pg.vertices.length
  { pg with vertices := pg.vertices ++ [coord] }

/-- Whether `insert` resets: the vertex is neither the one before its position nor the one behind it. -/
def insertResets (coordId : Nat) (coord : K × K) : Bool :=
  let size := pg.vertices.length
  pg.vertices[(coordId + size - 1) % size]? ≠ some coord && pg.vertices[(coordId + 1) % size]? ≠ some coord

/-- `insert`. The point is moved into the vertices before the lists are updated with it, and its move swaps what it
    holds for `moved`, which was in the memory of the new vertex. -/
def insert (coordId : Nat) (coord moved : K × K) : Polygon K R :=
  if coordId ≥ pg.vertices.length then pg.append toDouble coord
  else
    let pg := if pg.insertResets coordId coord then pg.reset else pg
    let pg := { pg with vertices := pg.vertices.insertIdx coordId coord }
    (pg.mapIndices (raise coordId)).update toDouble moved coordId

/-- The index that `erase` takes: the last one where the given one is behind it -/
def erasedId (coordId : UInt32) : Nat :=
  if coordId.toNat ≥ pg.vertices.length then pg.vertices.length - 1 else coordId.toNat

/-- `erase_maxX`, `erase_maxY`, `erase_minX` or `erase_minY` of a vertex. -/
def IsExtreme (coord : K × K) : Prop :=
  frontOf pg.xs pg.maxX = some coord.1 ∨ frontOf pg.ys pg.maxY = some coord.2 ∨
    frontOf pg.xs pg.minX = some coord.1 ∨ frontOf pg.ys pg.minY = some coord.2

instance (coord : K × K) : Decidable (pg.IsExtreme coord) := inferInstanceAs (Decidable (_ ∨ _ ∨ _ ∨ _))

/-- `erase` -/
def erase (coordId : UInt32) : Polygon K R :=
  let erasedId := pg.erasedId coordId
  match pg.vertices[erasedId]? with
  | none => pg
  | some coord =>
    let vertices := pg.vertices.eraseIdx erasedId
    if pg.IsExtreme coord then
      { pg.reset with vertices, maxX := [], minX := [], maxY := [], minY := [] }.updates toDouble 0 vertices
    else { pg.reset with vertices }.mapIndices (lower erasedId)

/-- The calls that change a polygon -/
inductive Edit (K : Type) where
  | append (coord : K × K)
  | insert (coordId : Nat) (coord moved : K × K)
  | erase (coordId : UInt32)

/-- A polygon behind a call -/
def edit : Edit K → Polygon K R
  | .append coord => pg.append toDouble coord
  | .insert coordId coord moved => pg.insert toDouble coordId coord moved
  | .erase coordId => pg.erase toDouble coordId

end updates

/-! ## Where the lists begin -/

/-- Each of the lists begins with the index of a vertex. -/
def HasExtremes {K R : Type} (pg : Polygon K R) : Prop :=
  ∃ left right bottom top, frontOf pg.xs pg.minX = some left ∧ frontOf pg.xs pg.maxX = some right ∧
    frontOf pg.ys pg.minY = some bottom ∧ frontOf pg.ys pg.maxY = some top

/-- Each of the lists does that begins. -/
structure AllBegun {K R : Type} (pg : Polygon K R) : Prop where
  minX : Begun pg.xs pg.minX
  maxX : Begun pg.xs pg.maxX
  minY : Begun pg.ys pg.minY
  maxY : Begun pg.ys pg.maxY

/-- The lists of extremes have vertices, and some where the polygon has. -/
structure Bordered {K R : Type} (pg : Polygon K R) : Prop extends pg.AllBegun where
  hasExtremes : pg.vertices ≠ [] → pg.HasExtremes

variable {pg : Polygon K R} {vertices : List (K × K)} {toDouble : K → K}

section fronts
omit [LinearOrder K]

/-- A polygon with its extremes is bordered. -/
lemma HasExtremes.bordered (extremes : pg.HasExtremes) : pg.Bordered := by
  have all := extremes
  obtain ⟨left, right, bottom, top, minX, maxX, minY, maxY⟩ := extremes
  exact ⟨⟨.inr ⟨left, minX⟩, .inr ⟨right, maxX⟩, .inr ⟨bottom, minY⟩, .inr ⟨top, maxY⟩⟩, fun _ => all⟩

/-- A new polygon is bordered. -/
lemma bordered_new [Zero K] [Zero R] : (new : Polygon K R).Bordered :=
  ⟨⟨.inl rfl, .inl rfl, .inl rfl, .inl rfl⟩, fun some => absurd rfl some⟩

end fronts

/-- The lists after an update at the position of a vertex, of those that there were or of more -/
lemma AllBegun.update (begun : pg.AllBegun) (toDouble : K → K) {newPos : Nat} {vertex : K × K}
    (here : vertices[newPos]? = some vertex)
    (kept : ∀ (i : Nat) v, pg.vertices[i]? = some v → vertices[i]? = some v) (coord : K × K) :
    HasExtremes { pg.update toDouble coord newPos with vertices } := by
  have hereX : (vertices.map Prod.fst)[newPos]? = some vertex.1 := by rw [List.getElem?_map, here]; rfl
  have hereY : (vertices.map Prod.snd)[newPos]? = some vertex.2 := by rw [List.getElem?_map, here]; rfl
  have keptX : ∀ (i : Nat) v, pg.xs[i]? = some v → (vertices.map Prod.fst)[i]? = some v := by
    intro i v there
    rw [xs, List.getElem?_map] at there
    obtain ⟨vertex, there', rfl⟩ := Option.map_eq_some_iff.mp there
    rw [List.getElem?_map, kept i vertex there']
    rfl
  have keptY : ∀ (i : Nat) v, pg.ys[i]? = some v → (vertices.map Prod.snd)[i]? = some v := by
    intro i v there
    rw [ys, List.getElem?_map] at there
    obtain ⟨vertex, there', rfl⟩ := Option.map_eq_some_iff.mp there
    rw [List.getElem?_map, kept i vertex there']
    rfl
  obtain ⟨left, minX⟩ := begun.minX.challenge (· < ·) hereX keptX (toDouble coord.1)
  obtain ⟨right, maxX⟩ := begun.maxX.challenge (· > ·) hereX keptX (toDouble coord.1)
  obtain ⟨bottom, minY⟩ := begun.minY.challenge (· < ·) hereY keptY (toDouble coord.2)
  obtain ⟨top, maxY⟩ := begun.maxY.challenge (· > ·) hereY keptY (toDouble coord.2)
  exact ⟨left, right, bottom, top, minX, maxX, minY, maxY⟩

/-- The loop over vertices leaves lists that begin with one. -/
lemma AllBegun.updates (begun : pg.AllBegun) {i : Nat} {coords : List (K × K)} (some : coords ≠ [])
    (behind : ∀ (j : Nat) vertex, coords[j]? = .some vertex → pg.vertices[i + j]? = .some vertex) :
    (pg.updates toDouble i coords).HasExtremes := by
  induction coords generalizing pg i with
  | nil => exact absurd rfl some
  | cons coord coords ih =>
    have first := begun.update toDouble (behind 0 coord rfl) (fun _ _ there => there) coord
    by_cases last : coords = []
    · rw [last]
      exact first
    · refine ih first.bordered.toAllBegun last fun j vertex there => ?_
      have next := behind (j + 1) vertex there
      rwa [Nat.add_comm j, ← Nat.add_assoc] at next

/-- Appending keeps a polygon bordered. -/
lemma Bordered.append (bordered : pg.Bordered) (coord : K × K) : (pg.append toDouble coord).Bordered := by
  have here : (pg.vertices ++ [coord])[pg.vertices.length]? = some coord := List.getElem?_concat_length
  have extremes := bordered.update toDouble here
    (fun i v there => (List.getElem?_append_left (List.getElem?_eq_some_iff.mp there).1).trans there) coord
  unfold Polygon.append
  cases pg.appendResets coord with
  | false => exact HasExtremes.bordered extremes
  | true => exact HasExtremes.bordered extremes

/-- Inserting keeps a polygon bordered. -/
lemma Bordered.insert (bordered : pg.Bordered) (coordId : Nat) (coord moved : K × K) :
    (pg.insert toDouble coordId coord moved).Bordered := by
  unfold Polygon.insert
  split
  case isTrue => exact bordered.append coord
  case isFalse inside =>
    have raised (indices : List Nat) :
        frontOf ((pg.vertices.insertIdx coordId coord).map Prod.fst) (indices.map (raise coordId)) =
            frontOf pg.xs indices ∧
          frontOf ((pg.vertices.insertIdx coordId coord).map Prod.snd) (indices.map (raise coordId)) =
            frontOf pg.ys indices := by
      rw [List.map_insertIdx, List.map_insertIdx]
      exact ⟨frontOf_raise .., frontOf_raise ..⟩
    have begun {values values' : List K} {indices : List Nat} (before : Begun values indices)
        (same : frontOf values' (indices.map (raise coordId)) = frontOf values indices) :
        Begun values' (indices.map (raise coordId)) :=
      before.imp (fun none => by rw [none]; rfl) fun there => same ▸ there
    have all : AllBegun ({ pg with vertices := pg.vertices.insertIdx coordId coord }.mapIndices (raise coordId)) :=
      ⟨begun bordered.minX (raised _).1, begun bordered.maxX (raised _).1, begun bordered.minY (raised _).2,
        begun bordered.maxY (raised _).2⟩
    have here : (pg.vertices.insertIdx coordId coord)[coordId]? = some coord := by
      rw [List.getElem?_insertIdx_self, if_pos (by omega)]
    have extremes := all.update toDouble here (fun _ _ there => there) moved
    cases pg.insertResets coordId coord with
    | false => exact HasExtremes.bordered extremes
    | true => exact HasExtremes.bordered extremes

/-- Erasing keeps a polygon bordered. -/
lemma Bordered.erase (bordered : pg.Bordered) (coordId : UInt32) : (pg.erase toDouble coordId).Bordered := by
  unfold Polygon.erase
  dsimp only
  generalize pg.erasedId coordId = erasedId
  cases here : pg.vertices[erasedId]? with
  | none => exact bordered
  | some coord =>
    dsimp only
    split
    case isTrue =>
      have empty : AllBegun { pg.reset with
          vertices := pg.vertices.eraseIdx erasedId, maxX := [], minX := [], maxY := [], minY := [] } :=
        ⟨.inl rfl, .inl rfl, .inl rfl, .inl rfl⟩
      by_cases none : pg.vertices.eraseIdx erasedId = []
      · rw [none]
        exact ⟨⟨.inl rfl, .inl rfl, .inl rfl, .inl rfl⟩, fun some => absurd rfl some⟩
      · refine (empty.updates none fun j vertex there => ?_).bordered
        rw [Nat.zero_add]
        exact there
    case isFalse inner =>
      obtain ⟨maxX, maxY, minX, minY⟩ := by simpa only [IsExtreme, not_or] using inner
      obtain ⟨left, right, bottom, top, left_eq, right_eq, bottom_eq, top_eq⟩ :=
        bordered.hasExtremes (List.ne_nil_of_mem (List.mem_of_getElem? here))
      have hereX : pg.xs[erasedId]? = some coord.1 := by rw [xs, List.getElem?_map, here]; rfl
      have hereY : pg.ys[erasedId]? = some coord.2 := by rw [ys, List.getElem?_map, here]; rfl
      have left' := frontOf_lower left_eq hereX minX
      have right' := frontOf_lower right_eq hereX maxX
      have bottom' := frontOf_lower bottom_eq hereY minY
      have top' := frontOf_lower top_eq hereY maxY
      rw [xs, List.eraseIdx_map] at left' right'
      rw [ys, List.eraseIdx_map] at bottom' top'
      exact HasExtremes.bordered ⟨left, right, bottom, top, left', right', bottom', top'⟩

/-- However coordinates are converted, and whatever moved points hold, the lists of a polygon with vertices begin with
    indices of vertices, in every state of a run of edits. -/
lemma run_bordered [Zero K] [Zero R] (toDouble : K → K) (edits : List (Edit K)) :
    Always (edit toDouble) Bordered (new : Polygon K R) edits := by
  refine always_of_guarded (C := fun _ _ => True) (fun pg edit bordered _ => ?_) bordered_new
    (Guarded.of_forall (fun _ _ => trivial) _ _)
  cases edit with
  | append coord => exact bordered.append coord
  | insert coordId coord moved => exact bordered.insert coordId coord moved
  | erase coordId => exact bordered.erase coordId

/-! ## Exact lists -/

/-- The lists hold the indices of the vertices with extreme coordinates among `vertices`, each once. -/
structure ExactFor (vertices : List (K × K)) (pg : Polygon K R) : Prop where
  minX : BestIndices (· < ·) (vertices.map Prod.fst) pg.minX
  maxX : BestIndices (· > ·) (vertices.map Prod.fst) pg.maxX
  minY : BestIndices (· < ·) (vertices.map Prod.snd) pg.minY
  maxY : BestIndices (· > ·) (vertices.map Prod.snd) pg.maxY

/-- The lists are those of the extreme vertices. -/
def Exact (pg : Polygon K R) : Prop := pg.ExactFor pg.vertices

/-- A new polygon is exact. -/
lemma exact_new [Zero K] [Zero R] : Exact (new : Polygon K R) :=
  ⟨bestIndices_nil _, bestIndices_nil _, bestIndices_nil _, bestIndices_nil _⟩

/-- One more vertex, which the polygon may have already -/
lemma ExactFor.append (exact : pg.ExactFor vertices) (looks : ∀ i < vertices.length, pg.vertices[i]? = vertices[i]?)
    (coord : K × K) : (pg.update id coord vertices.length).ExactFor (vertices ++ [coord]) := by
  have looksX : ∀ i < (vertices.map Prod.fst).length, pg.xs[i]? = (vertices.map Prod.fst)[i]? := by
    intro i lt
    rw [List.length_map] at lt
    rw [xs, List.getElem?_map, List.getElem?_map, looks i lt]
  have looksY : ∀ i < (vertices.map Prod.snd).length, pg.ys[i]? = (vertices.map Prod.snd)[i]? := by
    intro i lt
    rw [List.length_map] at lt
    rw [ys, List.getElem?_map, List.getElem?_map, looks i lt]
  have minX := exact.minX.append looksX coord.1
  have maxX := exact.maxX.append looksX coord.1
  have minY := exact.minY.append looksY coord.2
  have maxY := exact.maxY.append looksY coord.2
  rw [List.length_map] at minX maxX minY maxY
  constructor
  · rw [List.map_append]; exact minX
  · rw [List.map_append]; exact maxX
  · rw [List.map_append]; exact minY
  · rw [List.map_append]; exact maxY

/-- The lists stay exact where the vertex inserted is compared as it is. -/
lemma ExactFor.insert (exact : Exact pg) {coordId : Nat} (le : coordId ≤ pg.vertices.length) (coord : K × K) :
    Exact (({ pg with vertices := pg.vertices.insertIdx coordId coord }.mapIndices (raise coordId)).update id coord
      coordId) := by
  have leX : coordId ≤ (pg.vertices.map Prod.fst).length := by rwa [List.length_map]
  have leY : coordId ≤ (pg.vertices.map Prod.snd).length := by rwa [List.length_map]
  have minX := exact.minX.insert leX coord.1
  have maxX := exact.maxX.insert leX coord.1
  have minY := exact.minY.insert leY coord.2
  have maxY := exact.maxY.insert leY coord.2
  rw [← List.map_insertIdx] at minX maxX minY maxY
  exact ⟨minX, maxX, minY, maxY⟩

/-- A vertex that is none of the extreme ones is taken away. -/
lemma ExactFor.erase (exact : Exact pg) {erasedId : Nat}
    (minX : ¬Best (· < ·) pg.xs erasedId) (maxX : ¬Best (· > ·) pg.xs erasedId)
    (minY : ¬Best (· < ·) pg.ys erasedId) (maxY : ¬Best (· > ·) pg.ys erasedId) :
    (pg.mapIndices (lower erasedId)).ExactFor (pg.vertices.eraseIdx erasedId) := by
  have minX := exact.minX.erase minX
  have maxX := exact.maxX.erase maxX
  have minY := exact.minY.erase minY
  have maxY := exact.maxY.erase maxY
  rw [List.eraseIdx_map] at minX maxX minY maxY
  exact ⟨minX, maxX, minY, maxY⟩

/-! ## Coordinates that are compared as they are -/

/-- The coordinates of a point, as they are compared with those of vertices -/
def converted (toDouble : K → K) (coord : K × K) : K × K := (toDouble coord.1, toDouble coord.2)

/-- The coordinates of `other` come before and behind those of a vertex as those of `coord` do. -/
def ComparesAt (other coord vertex : K × K) : Prop :=
  cmp other.1 vertex.1 = cmp coord.1 vertex.1 ∧ cmp other.2 vertex.2 = cmp coord.2 vertex.2

instance (other coord vertex : K × K) : Decidable (ComparesAt other coord vertex) :=
  inferInstanceAs (Decidable (_ ∧ _))

/-- The coordinates of `other` come before and behind the extreme ones as those of `coord` do. -/
def Compares (pg : Polygon K R) (other coord : K × K) : Prop :=
  (∀ v, frontOf pg.xs pg.minX = some v ∨ frontOf pg.xs pg.maxX = some v → cmp other.1 v = cmp coord.1 v) ∧
    ∀ v, frontOf pg.ys pg.minY = some v ∨ frontOf pg.ys pg.maxY = some v → cmp other.2 v = cmp coord.2 v

/-- An edit updates the lists with coordinates that are compared as those of the new vertex, and, where the lists are
    made anew, as those of the vertices. -/
def Fair (toDouble : K → K) (pg : Polygon K R) : Edit K → Prop
  | .append coord => pg.Compares (converted toDouble coord) coord
  | .insert coordId coord moved =>
    pg.Compares (converted toDouble (if coordId ≥ pg.vertices.length then coord else moved)) coord
  | .erase coordId =>
    ∀ coord, pg.vertices[pg.erasedId coordId]? = some coord → pg.IsExtreme coord →
      (pg.vertices.eraseIdx (pg.erasedId coordId)).Pairwise fun before v => ComparesAt (converted toDouble v) v before

/-- A coordinate and its conversion are alike below another one. -/
lemma alike_lt {x y v : K} (same : cmp x v = cmp y v) : Alike (· < ·) x y v :=
  ⟨lt_iff_lt_of_cmp_eq_cmp same, eq_comm.trans ((eq_iff_eq_of_cmp_eq_cmp same).trans eq_comm)⟩

/-- A coordinate and its conversion are alike above another one. -/
lemma alike_gt {x y v : K} (same : cmp x v = cmp y v) : Alike (· > ·) x y v :=
  ⟨lt_iff_lt_of_cmp_eq_cmp (cmp_eq_cmp_symm.mp same),
    eq_comm.trans ((eq_iff_eq_of_cmp_eq_cmp same).trans eq_comm)⟩

/-- The lists are updated as with the coordinates of the vertex. -/
lemma Compares.update {other coord : K × K} (compares : pg.Compares (converted toDouble other) coord) (newPos : Nat) :
    pg.update toDouble other newPos = pg.update id coord newPos := by
  have minX := challenge_alike (· < ·) (fun v front => alike_lt (compares.1 v (.inl front))) newPos
  have maxX := challenge_alike (· > ·) (fun v front => alike_gt (compares.1 v (.inr front))) newPos
  have minY := challenge_alike (· < ·) (fun v front => alike_lt (compares.2 v (.inl front))) newPos
  have maxY := challenge_alike (· > ·) (fun v front => alike_gt (compares.2 v (.inr front))) newPos
  unfold Polygon.update updateMinX updateMaxX updateMinY updateMaxY
  simp only [xs, ys, id, converted] at minX maxX minY maxY ⊢
  rw [minX, maxX, minY, maxY]

/-- The lists begin with indices of the vertices for which they are exact. -/
lemma ExactFor.compares (exact : pg.ExactFor vertices) (looks : ∀ i < vertices.length, pg.vertices[i]? = vertices[i]?)
    {other coord : K × K} (alike : ∀ vertex ∈ vertices, ComparesAt other coord vertex) : pg.Compares other coord := by
  have front {r : K → K → Prop} {indices : List Nat} {f : K × K → K}
      (best : BestIndices r (vertices.map f) indices) {v : K} (there : frontOf (pg.vertices.map f) indices = some v) :
      ∃ vertex ∈ vertices, f vertex = v := by
    cases indices with
    | nil => cases there
    | cons first rest =>
      have lt := ((best.mem_iff first).mp List.mem_cons_self).lt
      rw [List.length_map] at lt
      change (pg.vertices.map f)[first]? = some v at there
      rw [List.getElem?_map, looks first lt] at there
      obtain ⟨vertex, here, rfl⟩ := Option.map_eq_some_iff.mp there
      exact ⟨vertex, List.mem_of_getElem? here, rfl⟩
  constructor
  · rintro v (there | there)
    · obtain ⟨vertex, mem, rfl⟩ := front exact.minX there
      exact (alike vertex mem).1
    · obtain ⟨vertex, mem, rfl⟩ := front exact.maxX there
      exact (alike vertex mem).1
  · rintro v (there | there)
    · obtain ⟨vertex, mem, rfl⟩ := front exact.minY there
      exact (alike vertex mem).2
    · obtain ⟨vertex, mem, rfl⟩ := front exact.maxY there
      exact (alike vertex mem).2

/-- The loop goes on from lists that are exact for the vertices before. -/
lemma ExactFor.updates {before after : List (K × K)} (exact : pg.ExactFor before)
    (vertices : pg.vertices = before ++ after)
    (alike : (before ++ after).Pairwise fun u v => ComparesAt (converted toDouble v) v u) :
    Exact (pg.updates toDouble before.length after) := by
  induction after generalizing pg before with
  | nil =>
    rw [List.append_nil] at vertices
    unfold Exact
    exact vertices ▸ exact
  | cons coord after ih =>
    have looks : ∀ i < before.length, pg.vertices[i]? = before[i]? := by
      intro i lt
      rw [vertices, List.getElem?_append_left lt]
    have compares := exact.compares looks fun vertex mem =>
      (List.pairwise_append.mp alike).2.2 vertex mem coord List.mem_cons_self
    have here := exact.append looks coord
    rw [← compares.update] at here
    have next := ih here (by rw [List.append_assoc]; exact vertices) (by rw [List.append_assoc]; exact alike)
    rwa [List.length_append] at next

/-- Appending a fair vertex keeps the lists exact. -/
lemma Exact.append (exact : Exact pg) {coord : K × K} (fair : pg.Fair toDouble (.append coord)) :
    Exact (pg.append toDouble coord) := by
  have next := ExactFor.append exact (fun _ _ => rfl) coord
  rw [← Compares.update fair] at next
  unfold Polygon.append
  cases pg.appendResets coord <;> exact ⟨next.minX, next.maxX, next.minY, next.maxY⟩

/-- Inserting a fair vertex keeps the lists exact. -/
lemma Exact.insert (exact : Exact pg) {coordId : Nat} {coord moved : K × K}
    (fair : pg.Fair toDouble (.insert coordId coord moved)) : Exact (pg.insert toDouble coordId coord moved) := by
  unfold Polygon.insert
  dsimp only [Fair] at fair
  split
  case isTrue behind =>
    rw [if_pos behind] at fair
    exact exact.append fair
  case isFalse inside =>
    rw [if_neg inside] at fair
    have next := ExactFor.insert exact (Nat.le_of_not_le inside) coord
    have compares : ({ pg with vertices := pg.vertices.insertIdx coordId coord }.mapIndices (raise coordId)).Compares
        (converted toDouble moved) coord := by
      refine ⟨fun v there => fair.1 v ?_, fun v there => fair.2 v ?_⟩
      · simpa only [mapIndices, xs, List.map_insertIdx, frontOf_raise] using there
      · simpa only [mapIndices, ys, List.map_insertIdx, frontOf_raise] using there
    rw [← compares.update] at next
    cases pg.insertResets coordId coord <;> exact ⟨next.minX, next.maxX, next.minY, next.maxY⟩

/-- Erasing a fair vertex keeps the lists exact. -/
lemma Exact.erase (exact : Exact pg) {coordId : UInt32} (fair : pg.Fair toDouble (.erase coordId)) :
    Exact (pg.erase toDouble coordId) := by
  unfold Polygon.erase
  dsimp only [Fair] at fair
  dsimp only
  generalize pg.erasedId coordId = erasedId at fair
  cases here : pg.vertices[erasedId]? with
  | none => exact exact
  | some coord =>
    have hereX : pg.xs[erasedId]? = some coord.1 := by rw [xs, List.getElem?_map, here]; rfl
    have hereY : pg.ys[erasedId]? = some coord.2 := by rw [ys, List.getElem?_map, here]; rfl
    dsimp only
    split
    case isTrue extreme =>
      have start : ExactFor [] ({ pg.reset with
          vertices := pg.vertices.eraseIdx erasedId, maxX := [], minX := [], maxY := [], minY := [] }) :=
        ⟨bestIndices_nil _, bestIndices_nil _, bestIndices_nil _, bestIndices_nil _⟩
      exact start.updates rfl (fair coord here extreme)
    case isFalse inner =>
      obtain ⟨maxX, maxY, minX, minY⟩ := by simpa only [IsExtreme, not_or] using inner
      have next := ExactFor.erase exact (mt (exact.minX.frontOf_iff hereX).mpr minX)
        (mt (exact.maxX.frontOf_iff hereX).mpr maxX) (mt (exact.minY.frontOf_iff hereY).mpr minY)
        (mt (exact.maxY.frontOf_iff hereY).mpr maxY)
      exact ⟨next.minX, next.maxX, next.minY, next.maxY⟩

/-- A coordinate that is a `double` is compared as it is. -/
lemma compares_of_double {coord : K × K} (double : converted toDouble coord = coord) :
    pg.Compares (converted toDouble coord) coord := by
  rw [double]
  exact ⟨fun _ _ => rfl, fun _ _ => rfl⟩

/-- A vertex that is a `double`, and is not lost when it is moved, is fair. -/
lemma fair_insert_of_double {coord : K × K} (double : converted toDouble coord = coord) {coordId : Nat} {moved : K × K}
    (same : coordId ≥ pg.vertices.length ∨ moved = coord) : pg.Fair toDouble (.insert coordId coord moved) := by
  dsimp only [Fair]
  split
  case isTrue => exact compares_of_double double
  case isFalse inside =>
    obtain rfl := same.resolve_left inside
    exact compares_of_double double

/-- In every run of edits of an empty polygon in which all coordinates are compared as they are, the lists are exactly
    the indices of the extreme vertices. -/
theorem run_exact [Zero K] [Zero R] (toDouble : K → K) (edits : List (Edit K))
    (fair : Guarded (edit toDouble) (Fair toDouble) (new : Polygon K R) edits) :
    Always (edit toDouble) Exact (new : Polygon K R) edits := by
  refine always_of_guarded (fun pg edit exact fair => ?_) exact_new fair
  cases edit with
  | append coord => exact exact.append fair
  | insert coordId coord moved => exact exact.insert fair
  | erase coordId => exact exact.erase fair

/-- One tenth, as a `long double` and as a `double` -/
def longTenth : ℚ := 14757395258967641293 / 2 ^ 67

/-- The `double` next to a tenth -/
def doubleTenth : ℚ := 3602879701896397 / 2 ^ 55

/-- The conversion of one tenth, and of numbers that are a `double` -/
def tenthToDouble (x : ℚ) : ℚ := if x = longTenth then doubleTenth else x

/-- Two vertices, one in front of them and one fewer: all coordinates but one are a `double`, and that one is not
    compared with a vertex. -/
theorem run_exact_halves :
    Always (edit tenthToDouble) Exact (new : Polygon ℚ ℚ)
      [.append (longTenth, 0), .append (1 / 2, 1), .insert 0 (1 / 4, 2) (1 / 4, 2), .erase 1] := by
  have half : converted tenthToDouble (1 / 2, 1) = (1 / 2, 1) := by decide +kernel
  have quarter : converted tenthToDouble (1 / 4, 2) = (1 / 4, 2) := by decide +kernel
  refine run_exact tenthToDouble _
    ⟨⟨nofun, nofun⟩, compares_of_double half, fair_insert_of_double quarter (.inr rfl), ?_, trivial⟩
  intro coord _ _
  decide +kernel

/-- One tenth, appended twice: its conversion is behind it, so that it is not equal to itself, and becomes the only
    one that is behind all others. -/
theorem tenth_twice : ¬∀ (toDouble : ℚ → ℚ) (edits : List (Edit ℚ)),
    Always (edit toDouble) Exact (new : Polygon ℚ ℚ) edits := by
  intro always
  have exact := (always tenthToDouble [.append (longTenth, 0), .append (longTenth, 0)]).last
  have lists : (run (edit tenthToDouble) (new : Polygon ℚ ℚ) [.append (longTenth, 0), .append (longTenth, 0)]).minX =
      [0] := by decide +kernel
  have second : 1 ∉ [0] := by decide
  rw [← lists, exact.minX.mem_iff] at second
  refine second ⟨longTenth, by decide +kernel, by decide +kernel⟩

end Polygon
end OsterLib.Geometry
