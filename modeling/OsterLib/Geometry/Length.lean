import Mathlib.Algebra.Ring.Int.Defs
import OsterLib.Lib.Run

/-!
# The length of a polyline

`BasicPolyline` of `Polyline.h` keeps its length until a vertex changes. Points and distances are of any type, and
`distance` is any function of two points.

`append` keeps the length where the point is the first vertex already, `insert` where it is none of its neighbours, and
`insert` in front of the last vertex reads the vertex behind it, which is not there. A length that is not kept is made
a `bool` by `Length`. `length_right_iff` says in which runs the length is right all the same.
-/

namespace OsterLib.Geometry
open OsterLib.Lib

/-- `BasicPolyline`, of points of type `P`, with a length of type `R` -/
structure BasicPolyline (P R : Type) where
  vertices : List P
  length_ : R
  lengthDefined : Bool
  deriving DecidableEq

namespace BasicPolyline
variable {P R : Type} [DecidableEq P] [AddCommGroup R] [One R] [DecidableEq R] (distance : P → P → R)

/-! ## The operations -/

/-- A polyline of some vertices, whose length is not known yet -/
def ofVertices (vertices : List P) : BasicPolyline P R := ⟨vertices, 0, false⟩

/-- The loop of `length(BasicPolyline)` over the segments of the vertices -/
def lengthLoop : R → List P → R
  | result, p :: q :: rest => lengthLoop (result + distance q p) (q :: rest)
  | result, _ => result

/-- `Length`, of which the call returns a `bool` -/
def lengthCall (vertices : List P) : R := if lengthLoop distance 0 vertices = 0 then 0 else 1

/-- `length` -/
def length (pl : BasicPolyline P R) : R × BasicPolyline P R :=
  if pl.lengthDefined then (pl.length_, pl)
  else
    let length := lengthCall distance pl.vertices
    (length, { pl with length_ := length, lengthDefined := true })

/-- `append` -/
def append (pl : BasicPolyline P R) (coord : P) : BasicPolyline P R :=
  let changed : Bool :=
    match pl.vertices.getLast?, pl.vertices.head? with
    | some back, some front => back ≠ coord && front ≠ coord
    | _, _ => true
  { pl with vertices := pl.vertices ++ [coord], lengthDefined := if changed then false else pl.lengthDefined }

/-- `insert`; `none` where a vertex is read that is not there. -/
def insert (pl : BasicPolyline P R) (coordId : Nat) (coord : P) : Option (BasicPolyline P R) :=
  if coordId ≥ pl.vertices.length then some (pl.append coord)
  else
    match pl.vertices[coordId + 1]? with
    | none => none
    | some next =>
      let changed : Bool := next = coord || (coordId > 0 && pl.vertices[coordId - 1]? = some coord)
      some { pl with
        vertices := pl.vertices.take coordId ++ coord :: pl.vertices.drop coordId
        lengthDefined := if changed then false else pl.lengthDefined }

/-- `erase` -/
def erase (pl : BasicPolyline P R) (coordId : UInt32) : BasicPolyline P R :=
  if pl.vertices.isEmpty then pl
  else
    let erasedId := if coordId.toNat ≥ pl.vertices.length then pl.vertices.length - 1 else coordId.toNat
    { pl with vertices := pl.vertices.eraseIdx erasedId, lengthDefined := false }

/-- The calls that change a polyline or ask for its length -/
inductive Call (P : Type) where
  | append (coord : P)
  | insert (coordId : Nat) (coord : P)
  | erase (coordId : UInt32)
  | length

/-- A call; `none` from where a vertex was read that is not there. -/
def step (state : Option (BasicPolyline P R)) (call : Call P) : Option (BasicPolyline P R) :=
  state.bind fun pl =>
    match call with
    | .append coord => some (pl.append coord)
    | .insert coordId coord => pl.insert coordId coord
    | .erase coordId => some (pl.erase coordId)
    | .length => some (pl.length distance).2

/-! ## What the length is -/

/-- The sum of the distances between consecutive vertices -/
def total : List P → R
  | p :: q :: rest => distance q p + total (q :: rest)
  | _ => 0

/-- A point between two others adds nothing to the way from one to the other, nor in front or behind of one. -/
def AddsNothing : Option P → P → Option P → Prop
  | none, _, none => True
  | some before, coord, none => distance coord before = 0
  | none, coord, some after => distance after coord = 0
  | some before, coord, some after => distance coord before + distance after coord = distance after before

/-- A length that the `bool` of `Length` can say -/
def Flag (length : R) : Prop := length = 0 ∨ length = 1

/-- `length` would return the sum of the distances. -/
def LengthRight (state : Option (BasicPolyline P R)) : Prop :=
  ∃ pl, state = some pl ∧ (pl.length distance).1 = total distance pl.vertices

/-- A length that is kept from `pl` is right for the vertices `before ++ coord :: after` where the new one adds nothing
    to it, and a length that is not kept where it is zero or one. -/
def InsertRight (pl : BasicPolyline P R) (before : List P) (coord : P) (after : List P) (kept : Prop) : Prop :=
  (pl.lengthDefined = true ∧ kept → AddsNothing distance before.getLast? coord after.head?) ∧
    (¬(pl.lengthDefined = true ∧ kept) → Flag (total distance (before ++ coord :: after)))

/-- What appending needs to keep the length right -/
def AppendRight (pl : BasicPolyline P R) (coord : P) : Prop :=
  pl.InsertRight distance pl.vertices coord [] (pl.vertices.getLast? = some coord ∨ pl.vertices.head? = some coord)

/-- The length is right behind the call, where it is before. -/
def CallRight (state : Option (BasicPolyline P R)) (call : Call P) : Prop :=
  ∀ pl ∈ state,
    match call with
    | .append coord => pl.AppendRight distance coord
    | .insert coordId coord =>
      if coordId ≥ pl.vertices.length then pl.AppendRight distance coord
      else
        coordId + 1 < pl.vertices.length ∧
          pl.InsertRight distance (pl.vertices.take coordId) coord (pl.vertices.drop coordId)
            (pl.vertices[coordId + 1]? ≠ some coord ∧ (coordId = 0 ∨ pl.vertices[coordId - 1]? ≠ some coord))
    | .erase coordId => pl.vertices ≠ [] → Flag (total distance (pl.erase coordId).vertices)
    | .length => True

variable {distance}

section total
omit [DecidableEq P] [One R] [DecidableEq R]

/-- No vertices have no length. -/
@[simp] lemma total_nil : total distance [] = 0 := rfl

/-- One vertex has no length. -/
@[simp] lemma total_single (p : P) : total distance [p] = 0 := rfl

/-- The first segment, and those behind it -/
@[simp] lemma total_cons (p q : P) (rest : List P) :
    total distance (p :: q :: rest) = distance q p + total distance (q :: rest) := rfl

/-- The loop adds the total length. -/
lemma lengthLoop_eq (result : R) (vertices : List P) :
    lengthLoop distance result vertices = result + total distance vertices := by
  induction vertices generalizing result with
  | nil => exact (add_zero result).symm
  | cons p rest ih =>
    cases rest with
    | nil => exact (add_zero result).symm
    | cons q rest => rw [lengthLoop, ih, total_cons, add_assoc]

/-- The two parts of a polyline share a vertex. -/
lemma total_append (before : List P) (coord : P) (after : List P) :
    total distance (before ++ coord :: after) =
      total distance (before ++ [coord]) + total distance (coord :: after) := by
  induction before with
  | nil => exact (zero_add _).symm
  | cons p before ih =>
    cases before with
    | nil => simp
    | cons q before =>
      simp only [List.cons_append, total_cons, add_assoc] at ih ⊢
      rw [ih]

/-- An inserted vertex leaves the length as it is exactly if it adds nothing between its neighbours. -/
lemma total_insert_iff (before : List P) (coord : P) (after : List P) :
    total distance (before ++ after) = total distance (before ++ coord :: after) ↔
      AddsNothing distance before.getLast? coord after.head? := by
  rw [total_append before coord after]
  rcases List.eq_nil_or_concat before with rfl | ⟨before, p, rfl⟩
  · cases after with
    | nil => simp [AddsNothing]
    | cons q after => simp [AddsNothing]
  · have behind : total distance (before ++ [p] ++ [coord]) = total distance (before ++ [p]) + distance coord p := by
      rw [List.append_assoc, List.singleton_append, total_append, total_cons, total_single, add_zero]
    rw [List.concat_eq_append, behind, List.getLast?_concat]
    cases after with
    | nil => simp [AddsNothing]
    | cons q after =>
      change total distance (before ++ [p] ++ q :: after) =
          total distance (before ++ [p]) + distance coord p + (distance q coord + total distance (q :: after)) ↔
        distance coord p + distance q coord = distance q p
      rw [List.append_assoc, List.singleton_append, total_append, total_cons, add_assoc, add_right_inj, ← add_assoc,
        add_left_inj]
      exact eq_comm

end total

/-! ## Calls -/

variable {pl : BasicPolyline P R}

section calls
omit [DecidableEq P]

/-- The length that is computed is right exactly if it is that of a flag. -/
lemma lengthCall_right_iff (vertices : List P) :
    lengthCall distance vertices = total distance vertices ↔ Flag (total distance vertices) := by
  unfold lengthCall Flag
  rw [lengthLoop_eq, zero_add]
  split
  case isTrue zero => rw [zero]; exact iff_of_true rfl (.inl rfl)
  case isFalse positive => rw [or_iff_right positive]; exact eq_comm

/-- A known length is right exactly if it is the total one. -/
lemma right_iff_defined (defined : pl.lengthDefined = true) :
    LengthRight distance (some pl) ↔ pl.length_ = total distance pl.vertices := by
  unfold LengthRight length
  simp [defined]

/-- An unknown length is right exactly if it is that of a flag. -/
lemma right_iff_undefined (undefined : pl.lengthDefined = false) :
    LengthRight distance (some pl) ↔ Flag (total distance pl.vertices) := by
  rw [← lengthCall_right_iff]
  unfold LengthRight length
  simp [undefined]

/-- What an insertion makes of a length that is right -/
lemma insert_right_iff (right : LengthRight distance (some pl)) {before after : List P}
    (vertices : before ++ after = pl.vertices) (coord : P) {changed : Bool} {kept : Prop}
    (decides : changed = false ↔ kept) :
    LengthRight distance (some { pl with
        vertices := before ++ coord :: after
        lengthDefined := if changed then false else pl.lengthDefined }) ↔
      pl.InsertRight distance before coord after kept := by
  unfold InsertRight
  by_cases cached : pl.lengthDefined = true ∧ kept
  · obtain ⟨defined, keeps⟩ := cached
    have unchanged : changed = false := decides.mpr keeps
    rw [right_iff_defined] at right
    · rw [right_iff_defined]
      · simp only [right, defined, keeps, and_self, not_true, forall_const, false_implies, and_true]
        rw [← total_insert_iff, vertices]
      · simp [unchanged, defined]
    · exact defined
  · have undefined : (if changed then false else pl.lengthDefined) = false := by
      cases changed with
      | true => rfl
      | false => exact Bool.eq_false_iff.mpr fun defined => cached ⟨defined, decides.mp rfl⟩
    rw [right_iff_undefined undefined]
    simp only [cached, not_false_iff, forall_const, false_implies, true_and]

/-- Erasing keeps the length right exactly if what is left has the length of a flag. -/
lemma erase_right_iff (right : LengthRight distance (some pl)) (coordId : UInt32) :
    LengthRight distance (some (pl.erase coordId)) ↔
      (pl.vertices ≠ [] → Flag (total distance (pl.erase coordId).vertices)) := by
  unfold erase
  by_cases none : pl.vertices = []
  · simp [none, right]
  · have some : pl.vertices.isEmpty = false := List.isEmpty_eq_false_iff.mpr none
    simp only [some, none, Bool.false_eq_true, if_false, ne_eq, not_false_iff, forall_const]
    exact right_iff_undefined rfl

/-- Asking for the length keeps it right. -/
lemma length_right (right : LengthRight distance (some pl)) : LengthRight distance (some (pl.length distance).2) := by
  cases defined : pl.lengthDefined with
  | true =>
    unfold length
    rwa [defined, if_pos rfl]
  | false =>
    rw [right_iff_undefined defined, ← lengthCall_right_iff] at right
    unfold length
    rw [defined]
    exact (right_iff_defined rfl).mpr right

/-- Without a polyline there is no length. -/
lemma not_right_none : ¬LengthRight distance (none : Option (BasicPolyline P R)) := by
  rintro ⟨pl, none, -⟩
  cases none

end calls

/-- Appending keeps the length right exactly where that is stated. -/
lemma append_right_iff (right : LengthRight distance (some pl)) (coord : P) :
    LengthRight distance (some (pl.append coord)) ↔ pl.AppendRight distance coord := by
  apply insert_right_iff right (List.append_nil _)
  cases pl.vertices with
  | nil => simp
  | cons front rest =>
    obtain ⟨back, last⟩ := Option.isSome_iff_exists.mp (List.getLast?_isSome.mpr (List.cons_ne_nil front rest))
    rw [last, List.head?_cons]
    simp [or_iff_not_imp_left]

/-- A call from where the length is right leaves it right exactly if it is one that does. -/
lemma call_right_iff (right : LengthRight distance (some pl)) (call : Call P) :
    LengthRight distance (step distance (some pl) call) ↔ CallRight distance (some pl) call := by
  unfold CallRight
  simp only [Option.mem_some_iff, forall_eq']
  cases call with
  | append coord => exact append_right_iff right coord
  | erase coordId => exact erase_right_iff right coordId
  | length => exact iff_of_true (length_right right) trivial
  | insert coordId coord =>
    change LengthRight distance (pl.insert coordId coord) ↔ _
    unfold insert
    by_cases behind : coordId ≥ pl.vertices.length
    · rw [if_pos behind]
      simp only [if_pos behind]
      exact append_right_iff right coord
    · rw [if_neg behind]
      simp only [if_neg behind]
      by_cases last : coordId + 1 < pl.vertices.length
      · rw [List.getElem?_eq_getElem last]
        simp only [last, true_and]
        apply insert_right_iff right (List.take_append_drop _ _)
        simp [Nat.pos_iff_ne_zero, or_iff_not_imp_left]
      · rw [List.getElem?_eq_none (Nat.not_lt.mp last)]
        exact iff_of_false not_right_none fun inside => last inside.1

/-- Along a run, `length` is the sum of the distances exactly if it is for the first vertices, and every call leaves it
    right. -/
theorem length_right_iff (distance : P → P → R) (vertices : List P) (calls : List (Call P)) :
    Always (step distance) (LengthRight distance) (some (ofVertices vertices)) calls ↔
      Flag (total distance vertices) ∧
        Guarded (step distance) (CallRight distance) (some (ofVertices vertices)) calls := by
  have start : LengthRight distance (some (ofVertices vertices)) ↔ Flag (total distance vertices) :=
    right_iff_undefined rfl
  have steps (right : LengthRight distance (some (ofVertices vertices))) :
      Always (step distance) (LengthRight distance) (some (ofVertices vertices)) calls ↔
        Guarded (step distance) (CallRight distance) (some (ofVertices vertices)) calls := by
    refine always_iff_guarded (L := fun _ _ => True) (fun _ right => right) ?_ ?_ right
      (Guarded.of_forall (fun _ _ => trivial) _ _)
    · rintro _ call ⟨pl, rfl, right⟩ - allowed
      exact (call_right_iff ⟨pl, rfl, right⟩ call).mpr allowed
    · rintro _ call ⟨pl, rfl, right⟩ - next
      exact (call_right_iff ⟨pl, rfl, right⟩ call).mp next
  constructor
  · intro always
    exact ⟨start.mp always.head, (steps always.head).mp always⟩
  · rintro ⟨flag, guarded⟩
    exact (steps (start.mpr flag)).mpr guarded

/-- A polyline is closed behind its length: the first vertex is appended again. -/
theorem length_stale : ¬∀ (distance : Bool → Bool → Int) (vertices : List Bool) (calls : List (Call Bool)),
    (∀ p, distance p p = 0) → Always (step distance) (LengthRight distance) (some (ofVertices vertices)) calls := by
  intro always
  have right := (always (fun p q => if p = q then 0 else 1) [false, true] [.length, .append false] (by decide)).last
  obtain ⟨pl, here, same⟩ := right
  cases here
  revert same
  decide

end BasicPolyline
end OsterLib.Geometry
