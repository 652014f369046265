import OsterLib.Geometry.Polygon
import OsterLib.Geometry.Validity

/-!
# The queries of a polygon

`area`, `perimeter`, `is_valid` and `is_clockwise` of `Polygon.h`, which keep their answers. Coordinates are rational,
and `distance` is any function of two points.

`area` and `perimeter` give up where the polygon is valid, and go on where it is not. So in every run `area` has an
answer exactly where `is_valid` says no (`area_isSome_iff`), and no state of a run is as it should be
(`run_never_right`). A perimeter is never forgotten (`run_perimeter`).
-/

namespace OsterLib.Geometry
open OsterLib.Lib

namespace Polygon
variable {R : Type} [Zero R] [Add R] (toDouble : ℚ → ℚ) (distance : Point → Point → R)

/-! ## The queries -/

/-- `is_valid` -/
def isValid (pg : Polygon ℚ R) : Bool × Polygon ℚ R :=
  if pg.validDefined then (pg.isValid_, pg)
  else
    let answer := valid pg.vertices
    (answer, { pg with isValid_ := answer, validDefined := true })

/-- The loops over the sides, with so many of them left; `none` where a vertex is read that is not there. -/
def sides {S : Type} [Add S] (term : Point → Point → S) (vertices : List Point) : Nat → Nat → Nat → S → Option S
  | 0, _, _, result => some result
  | left + 1, i, j, result => do
    let first ← vertices[i]?
    let second ← vertices[j]?
    sides term vertices left (i + 1) ((j + 1) % vertices.length) (result + term first second)

/-- A term of the area -/
def shoelace (first second : Point) : ℚ := second.2 * first.1 - first.2 * second.1

/-- `area`, or `nullopt`; `none` where a vertex is read that is not there. -/
def area (pg : Polygon ℚ R) : Option (Option ℚ × Polygon ℚ R) :=
  if pg.areaDefined then some (some pg.area_, pg)
  else
    let (answer, pg) := pg.isValid
    if answer then some (none, { pg with areaDefined := false })
    else do
      let result ← sides shoelace pg.vertices pg.vertices.length 0 1 0
      let area := result / 2
      return (some area, { pg with area_ := area, areaDefined := true })

/-- `perimeter` -/
def perimeter (pg : Polygon ℚ R) : Option (Option R × Polygon ℚ R) :=
  if pg.perimeterDefined then some (some pg.perimeter_, pg)
  else
    let (answer, pg) := pg.isValid
    if answer then some (none, { pg with perimeterDefined := false })
    else do
      let result ← sides (fun first second => distance second first) pg.vertices pg.vertices.length 0 1 0
      return (some result, { pg with perimeter_ := result, perimeterDefined := true })

/-- The `epsilon` of `double` -/
def epsilon : ℚ := 1 / 2 ^ 52

/-- `is_clockwise`; `none` where a vertex is read that is not there. -/
def isClockwise (pg : Polygon ℚ R) : Option (Bool × Polygon ℚ R) :=
  if pg.wiseDefined then some (pg.clockwise, pg)
  else if pg.vertices.length < 3 then some (false, pg)
  else do
    let result ← sides shoelace pg.vertices pg.vertices.length 0 1 0
    let scale := max |← frontOf pg.ys pg.maxY| |← frontOf pg.ys pg.minY| *
      max |← frontOf pg.xs pg.maxX| |← frontOf pg.xs pg.minX|
    if |result| < epsilon * scale * pg.vertices.length then return (false, pg)
    else if result > 0 then return (false, { pg with wiseDefined := true, clockwise := false })
    else return (true, { pg with wiseDefined := true, clockwise := true })

/-- The calls of a polygon -/
inductive Call where
  | edit (edit : Edit ℚ)
  | area
  | perimeter
  | isValid
  | isClockwise

/-- A call; `none` from where a vertex was read that is not there. -/
def step (state : Option (Polygon ℚ R)) (call : Call) : Option (Polygon ℚ R) :=
  state.bind fun pg =>
    match call with
    | .edit edit => some (pg.edit toDouble edit)
    | .area => pg.area.map Prod.snd
    | .perimeter => (pg.perimeter distance).map Prod.snd
    | .isValid => some pg.isValid.2
    | .isClockwise => pg.isClockwise.map Prod.snd

/-! ## What the answers should be -/

/-- The polygon with nothing kept -/
def uncached (pg : Polygon ℚ R) : Polygon ℚ R :=
  { pg with areaDefined := false, perimeterDefined := false, validDefined := false, wiseDefined := false }

/-- A query returns, and returns with nothing kept the same. -/
def AsRecomputed {α : Type} (query : Polygon ℚ R → Option (α × Polygon ℚ R)) (pg : Polygon ℚ R) : Prop :=
  ∃ answer, (query pg).map Prod.fst = some answer ∧ (query pg.uncached).map Prod.fst = some answer

/-- `area` has a value exactly where `is_valid` says yes. -/
def AreaFollows (pg : Polygon ℚ R) : Prop :=
  ∃ answer, pg.area.map Prod.fst = some answer ∧ answer.isSome = pg.isValid.1

/-- The perimeter is there exactly if the polygon is valid. -/
def PerimeterFollows (pg : Polygon ℚ R) : Prop :=
  ∃ answer, (pg.perimeter distance).map Prod.fst = some answer ∧ answer.isSome = pg.isValid.1

/-- Each query returns what it returns with nothing kept, and the area and the perimeter follow the validity. -/
structure QueriesRight (pg : Polygon ℚ R) : Prop where
  area : pg.AsRecomputed area
  perimeter : pg.AsRecomputed (perimeter distance)
  isValid : pg.AsRecomputed (some ∘ isValid)
  isClockwise : pg.AsRecomputed isClockwise
  areaFollows : pg.AreaFollows
  perimeterFollows : pg.PerimeterFollows distance

/-- In a state of a run, no vertex was read that is not there, and all queries are right. -/
def Right (state : Option (Polygon ℚ R)) : Prop := ∃ pg, state = some pg ∧ pg.QueriesRight distance

/-! ## What a call does to the answers -/

/-- The same answers are kept of other vertices. -/
def SameAnswers {K : Type} (pg pg' : Polygon K R) : Prop :=
  pg' = { pg with
    vertices := pg'.vertices
    minX := pg'.minX
    maxX := pg'.maxX
    minY := pg'.minY
    maxY := pg'.maxY }

variable {toDouble} {distance} {pg : Polygon ℚ R}

section edits
omit [Zero R] [Add R]

/-- The lists of extremes do not change the answers. -/
lemma updates_answers (i : Nat) (coords : List Point) : SameAnswers pg (pg.updates toDouble i coords) := by
  induction coords generalizing pg i with
  | nil => rfl
  | cons coord coords ih => exact ih (i + 1)

/-- Appending keeps the answers or resets them. -/
lemma append_answers (coord : Point) :
    SameAnswers pg (pg.append toDouble coord) ∨ SameAnswers pg.reset (pg.append toDouble coord) := by
  unfold append
  cases pg.appendResets coord with
  | false => exact .inl rfl
  | true => exact .inr rfl

/-- An edit keeps all answers, or forgets all but the perimeter. -/
lemma edit_answers (edit : Edit ℚ) :
    SameAnswers pg (pg.edit toDouble edit) ∨ SameAnswers pg.reset (pg.edit toDouble edit) := by
  cases edit with
  | append coord => exact append_answers coord
  | insert coordId coord moved =>
    change SameAnswers pg (pg.insert toDouble coordId coord moved) ∨
      SameAnswers pg.reset (pg.insert toDouble coordId coord moved)
    unfold insert
    split
    case isTrue => exact append_answers coord
    case isFalse =>
      cases pg.insertResets coordId coord with
      | false => exact .inl rfl
      | true => exact .inr rfl
  | erase coordId =>
    change SameAnswers pg (pg.erase toDouble coordId) ∨ SameAnswers pg.reset (pg.erase toDouble coordId)
    unfold erase
    dsimp only
    split
    case h_1 => exact .inl rfl
    case h_2 =>
      split
      case isTrue => exact .inr (updates_answers _ _)
      case isFalse => exact .inr rfl

/-- The answer is kept. -/
lemma isValid_answer (pg : Polygon ℚ R) : pg.isValid.2.validDefined = true ∧ pg.isValid.2.isValid_ = pg.isValid.1 := by
  unfold isValid
  split
  case isTrue defined => exact ⟨defined, rfl⟩
  case isFalse => exact ⟨rfl, rfl⟩

/-- Where the answer is kept, it is returned. -/
lemma isValid_of_defined {answer : Bool} (defined : pg.validDefined = true) (kept : pg.isValid_ = answer) :
    pg.isValid.1 = answer := by
  unfold isValid
  rw [if_pos defined, kept]

/-! ## The orientation -/

/-- Only the orientation is kept by `is_clockwise`. -/
lemma isClockwise_eq {answer : Bool} {pg' : Polygon ℚ R} (call : pg.isClockwise = some (answer, pg')) :
    pg' = { pg with wiseDefined := pg'.wiseDefined, clockwise := pg'.clockwise } := by
  unfold isClockwise at call
  split at call
  case isTrue =>
    cases call
    rfl
  case isFalse =>
    split at call
    case isTrue =>
      cases call
      rfl
    case isFalse =>
      obtain ⟨result, -, call⟩ := Option.bind_eq_some_iff.mp call
      obtain ⟨top, -, call⟩ := Option.bind_eq_some_iff.mp call
      obtain ⟨bottom, -, call⟩ := Option.bind_eq_some_iff.mp call
      obtain ⟨right, -, call⟩ := Option.bind_eq_some_iff.mp call
      obtain ⟨left, -, call⟩ := Option.bind_eq_some_iff.mp call
      dsimp only at call
      split at call
      case isTrue =>
        cases call
        rfl
      case isFalse =>
        split at call
        case isTrue =>
          cases call
          rfl
        case isFalse =>
          cases call
          rfl

/-- The sum over some sides exists where they are inside. -/
lemma exists_sides {S : Type} [Add S] (term : Point → Point → S) {vertices : List Point} {left i j : Nat} (result : S)
    (whole : i + left ≤ vertices.length) (lt : j < vertices.length) :
    ∃ sum, sides term vertices left i j result = some sum := by
  induction left generalizing i j result with
  | zero => exact ⟨result, rfl⟩
  | succ left ih =>
    have first := List.getElem?_eq_getElem (show i < vertices.length by omega)
    have second := List.getElem?_eq_getElem lt
    unfold sides
    rw [first, second]
    exact ih _ (by omega) (Nat.mod_lt _ (by omega))

/-- Where the lists of extreme vertices begin with vertices, `is_clockwise` reads no vertex that is not there. -/
lemma exists_isClockwise (bordered : pg.Bordered) : ∃ answer, pg.isClockwise = some answer := by
  unfold isClockwise
  by_cases defined : pg.wiseDefined = true
  · exact ⟨_, if_pos defined⟩
  · by_cases few : pg.vertices.length < 3
    · exact ⟨_, (if_neg defined).trans (if_pos few)⟩
    · obtain ⟨left, right, bottom, top, minX, maxX, minY, maxY⟩ :=
        bordered.hasExtremes (List.ne_nil_of_length_pos (by omega))
      obtain ⟨sum, here⟩ : ∃ sum, sides shoelace pg.vertices pg.vertices.length 0 1 0 = some sum :=
        exists_sides shoelace 0 (Nat.le_of_eq (Nat.zero_add _)) (by omega)
      rw [if_neg defined, if_neg few, here, maxY, minY, maxX, minX]
      simp only [Option.bind_eq_bind, Option.bind_some]
      split
      case isTrue => exact ⟨_, rfl⟩
      case isFalse => split <;> exact ⟨_, rfl⟩

/-! ## The area -/

/-- An area is kept only of a polygon that is known not to be valid. -/
def AreaKept (pg : Polygon ℚ R) : Prop := pg.areaDefined = true → pg.validDefined = true ∧ pg.isValid_ = false

/-- What has the same answers keeps what is known of the area. -/
lemma AreaKept.same {pg' : Polygon ℚ R} (kept : pg.AreaKept) (same : SameAnswers pg pg') : pg'.AreaKept := by
  rw [same]
  exact kept

/-- A polygon that was reset keeps no area. -/
lemma areaKept_reset : pg.reset.AreaKept := nofun

/-- Every edit keeps what is known of the area. -/
lemma AreaKept.edit (kept : pg.AreaKept) (edit : Edit ℚ) : (pg.edit toDouble edit).AreaKept := by
  cases edit_answers edit with
  | inl same => exact kept.same same
  | inr same => exact areaKept_reset.same same

/-- `is_valid` keeps what is known of the area. -/
lemma AreaKept.isValid (kept : pg.AreaKept) : pg.isValid.2.AreaKept := by
  unfold Polygon.isValid
  split
  case isTrue => exact kept
  case isFalse unknown =>
    intro defined
    exact absurd (kept defined).1 unknown

/-- What is done to a polygon by `area`: nothing where the area is kept, and else the validity is found first. -/
lemma area_cases {answer : Option ℚ} {pg' : Polygon ℚ R} (call : pg.area = some (answer, pg')) :
    (pg.areaDefined = true ∧ answer = some pg.area_ ∧ pg' = pg) ∨
      (pg.isValid.1 = true ∧ answer = none ∧ pg' = { pg.isValid.2 with areaDefined := false }) ∨
      (pg.isValid.1 = false ∧ ∃ area, answer = some area ∧
        pg' = { pg.isValid.2 with area_ := area, areaDefined := true }) := by
  unfold area at call
  split at call
  case isTrue defined =>
    cases call
    exact .inl ⟨defined, rfl, rfl⟩
  case isFalse =>
    dsimp only at call
    split at call
    case isTrue valid =>
      cases call
      exact .inr (.inl ⟨valid, rfl, rfl⟩)
    case isFalse invalid =>
      obtain ⟨result, -, here⟩ := Option.bind_eq_some_iff.mp call
      cases here
      exact .inr (.inr ⟨Bool.eq_false_of_not_eq_true invalid, _, rfl, rfl⟩)

/-- `area` keeps what is known of it. -/
lemma AreaKept.area (kept : pg.AreaKept) {answer : Option ℚ} {pg' : Polygon ℚ R} (call : pg.area = some (answer, pg')) :
    pg'.AreaKept := by
  rcases area_cases call with ⟨-, -, rfl⟩ | ⟨-, -, rfl⟩ | ⟨invalid, area, -, rfl⟩
  · exact kept
  · exact nofun
  · intro _
    obtain ⟨defined, answer⟩ := isValid_answer pg
    exact ⟨defined, answer.trans invalid⟩

/-- `area` has a value exactly where `is_valid` says no. -/
lemma area_isSome_iff (kept : pg.AreaKept) {answer : Option ℚ} {pg' : Polygon ℚ R}
    (call : pg.area = some (answer, pg')) : answer.isSome = true ↔ pg.isValid.1 = false := by
  rcases area_cases call with ⟨defined, rfl, -⟩ | ⟨valid, rfl, -⟩ | ⟨invalid, area, rfl, -⟩
  · obtain ⟨known, invalid⟩ := kept defined
    exact iff_of_true rfl (isValid_of_defined known invalid)
  · exact iff_of_false Bool.false_ne_true (by rw [valid]; exact nofun)
  · exact iff_of_true rfl invalid

end edits

/-- `perimeter` keeps what is known of the area. -/
lemma AreaKept.perimeter (kept : pg.AreaKept) {answer : Option R} {pg' : Polygon ℚ R}
    (call : pg.perimeter distance = some (answer, pg')) : pg'.AreaKept := by
  unfold Polygon.perimeter at call
  split at call
  case isTrue =>
    cases call
    exact kept
  case isFalse =>
    dsimp only at call
    split at call
    case isTrue =>
      cases call
      exact kept.isValid
    case isFalse =>
      obtain ⟨result, -, here⟩ := Option.bind_eq_some_iff.mp call
      cases here
      exact kept.isValid

/-- Every call keeps what is known of the area. -/
lemma step_areaKept (kept : pg.AreaKept) (call : Call) {pg' : Polygon ℚ R}
    (next : step toDouble distance (some pg) call = some pg') : pg'.AreaKept := by
  cases call with
  | edit edit =>
    cases next
    exact kept.edit edit
  | isValid =>
    cases next
    exact kept.isValid
  | area =>
    obtain ⟨⟨answer, _⟩, call, rfl⟩ := Option.map_eq_some_iff.mp next
    exact kept.area call
  | perimeter =>
    obtain ⟨⟨answer, _⟩, call, rfl⟩ := Option.map_eq_some_iff.mp next
    exact kept.perimeter call
  | isClockwise =>
    obtain ⟨⟨answer, _⟩, call, rfl⟩ := Option.map_eq_some_iff.mp next
    rw [isClockwise_eq call]
    exact kept

/-- In every run what is known of the area is right. -/
lemma run_areaKept (calls : List Call) :
    Always (step toDouble distance) (fun state => ∀ pg ∈ state, pg.AreaKept) (some (new : Polygon ℚ R)) calls := by
  refine always_of_guarded (C := fun _ _ => True) ?_ ?_ (Guarded.of_forall (fun _ _ => trivial) _ _)
  · rintro (_ | pg) call kept -
    · exact nofun
    · exact fun pg' next => step_areaKept (kept pg rfl) call next
  · rintro _ ⟨⟩
    exact nofun

/-- In no state of any run is every query right: `area` has a value where it should have none, or none where it should
    have one. -/
theorem run_never_right (toDouble : ℚ → ℚ) (distance : Point → Point → R) (calls : List Call) :
    Always (step toDouble distance) (fun state => ¬Right distance state) (some (new : Polygon ℚ R)) calls := by
  refine (run_areaKept calls).imp ?_
  rintro _ kept ⟨pg, rfl, right⟩
  obtain ⟨answer, here, follows⟩ := right.areaFollows
  obtain ⟨⟨_, pg'⟩, call, rfl⟩ := Option.map_eq_some_iff.mp here
  have turned := area_isSome_iff (kept pg rfl) call
  rw [follows] at turned
  cases answer : pg.isValid.1 with
  | true => exact absurd (turned.mp answer) (by rw [answer]; exact nofun)
  | false => exact absurd (turned.mpr answer) (by rw [answer]; exact nofun)

/-- A triangle is valid, and has no area. -/
theorem triangle_without_area :
    ¬∀ (distance : Point → Point → ℚ) (calls : List Call),
      Always (step id distance) (Right distance) (some new) calls := by
  intro always
  have right := (always (fun _ _ => 0) [.edit (.append (0, 0)), .edit (.append (1, 0)), .edit (.append (0, 1))]).last
  obtain ⟨pg, here, queries⟩ := right
  cases here
  obtain ⟨answer, area, follows⟩ := queries.areaFollows
  have none : answer = none := Option.some.inj (area.symm.trans (by decide +kernel))
  rw [none] at follows
  revert follows
  decide +kernel

/-! ## The perimeter -/

/-- The perimeter of `pg` is kept. -/
def PerimeterStays (pg : Polygon ℚ R) (state : Option (Polygon ℚ R)) : Prop :=
  ∀ pg' ∈ state, pg'.perimeterDefined = true ∧ pg'.perimeter_ = pg.perimeter_

/-- No call forgets a perimeter. -/
lemma step_perimeter (defined : pg.perimeterDefined = true) (call : Call) {pg' : Polygon ℚ R}
    (next : step toDouble distance (some pg) call = some pg') :
    pg'.perimeterDefined = true ∧ pg'.perimeter_ = pg.perimeter_ := by
  have valid : pg.isValid.2.perimeterDefined = true ∧ pg.isValid.2.perimeter_ = pg.perimeter_ := by
    unfold isValid
    split <;> exact ⟨defined, rfl⟩
  cases call with
  | edit edit =>
    cases next
    cases edit_answers edit with
    | inl same =>
      rw [same]
      exact ⟨defined, rfl⟩
    | inr same =>
      rw [same]
      exact ⟨defined, rfl⟩
  | isValid =>
    cases next
    exact valid
  | area =>
    obtain ⟨⟨answer, _⟩, call, rfl⟩ := Option.map_eq_some_iff.mp next
    rcases area_cases call with ⟨-, -, rfl⟩ | ⟨-, -, rfl⟩ | ⟨-, area, -, rfl⟩
    · exact ⟨defined, rfl⟩
    · exact valid
    · exact valid
  | perimeter =>
    obtain ⟨⟨answer, _⟩, call, rfl⟩ := Option.map_eq_some_iff.mp next
    rw [perimeter, if_pos defined] at call
    cases call
    exact ⟨defined, rfl⟩
  | isClockwise =>
    obtain ⟨⟨answer, _⟩, call, rfl⟩ := Option.map_eq_some_iff.mp next
    rw [isClockwise_eq call]
    exact ⟨defined, rfl⟩

/-- Once there is a perimeter, it stays the same, whatever vertices come and go. -/
theorem run_perimeter (defined : pg.perimeterDefined = true) (calls : List Call) :
    ∀ pg' ∈ run (step toDouble distance) (some pg) calls,
      (pg'.perimeter distance).map Prod.fst = some (some pg.perimeter_) := by
  have stays : PerimeterStays pg (run (step toDouble distance) (some pg) calls) := by
    refine run_of_keep (P := PerimeterStays pg) ?_ calls ?_
    · rintro (_ | pg'') call stays pg' next
      · cases next
      · obtain ⟨defined'', same⟩ := stays pg'' rfl
        obtain ⟨defined', same'⟩ := step_perimeter defined'' call next
        exact ⟨defined', same'.trans same⟩
    · rintro _ ⟨⟩
      exact ⟨defined, rfl⟩
  intro pg' here
  obtain ⟨defined', same⟩ := stays pg' here
  rw [perimeter, if_pos defined', same]
  rfl

end Polygon
end OsterLib.Geometry
