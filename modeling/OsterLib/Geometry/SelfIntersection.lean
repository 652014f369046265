import OsterLib.Geometry.Validity

/-!
# What the validity of a polygon says

The sides of a polygon are the indices behind whose vertex there is another one, around its end. `is_valid` compares
the sides that are not neighbours, in two loops that skip equal vertices in three places, and `valid_exact` says what
comes of it for every polygon of three sides or more: the answer is no exactly where two sides that are not neighbours
have a common point, but for the last side, which is overlooked where the vertex before it is repeated.
-/

namespace OsterLib.Geometry.Polygon
open OsterLib.Lib OsterLib.Lib.Walk

/-! ## Sides -/

section sides
variable (vertices : List Point)

/-- The vertices at `k` and behind `k` differ. -/
def IsSide (k : Nat) : Prop := k < vertices.length ∧ vertices[k]? ≠ vertices[(k + 1) % vertices.length]?

instance (k : Nat) : Decidable (IsSide vertices k) := inferInstanceAs (Decidable (_ ∧ _))

/-- The side behind a vertex -/
def side (k : Nat) : Line := ⟨vertices.getD k 0, vertices.getD ((k + 1) % vertices.length) 0⟩

/-- There are sides between two sides on both ways around. -/
structure Nonadjacent (i j : Nat) : Prop where
  first : IsSide vertices i
  second : IsSide vertices j
  between : ∃ k, i < k ∧ k < j ∧ IsSide vertices k
  around : ∃ k, (k < i ∨ j < k) ∧ IsSide vertices k

/-- The last side comes from a vertex that is repeated. -/
structure Overlooked (j : Nat) : Prop where
  repeated : vertices[j]? = vertices[j - 1]?
  last : ∀ k > j, ¬IsSide vertices k

/-- The vertices behind `last` are equal to the one before them or to the first one. -/
def Trailing (last : Nat) : Prop :=
  ∀ k, last < k → k < vertices.length → vertices[k]? = vertices[k - 1]? ∨ vertices[k]? = vertices[0]?

end sides

variable {vertices : List Point} {first last i j k : Nat}

/-- A vertex has a side exactly if the next one differs. -/
lemma isSide_iff (lt : k + 1 < vertices.length) : IsSide vertices k ↔ vertices[k]? ≠ vertices[k + 1]? := by
  unfold IsSide
  rw [Nat.mod_eq_of_lt lt]
  exact and_iff_right (Nat.lt_of_succ_lt lt)

/-- The side between two vertices -/
lemma side_eq {p q : Point} (here : vertices[k]? = some p)
    (there : vertices[(k + 1) % vertices.length]? = some q) : side vertices k = ⟨p, q⟩ := by
  unfold side
  rw [List.getD_eq_getElem?_getD, List.getD_eq_getElem?_getD, here, there]
  rfl

/-- A vertex that differs from the first one has a side behind it. -/
lemma exists_side_from (lt : k < vertices.length) (away : vertices[k]? ≠ vertices[0]?) :
    ∃ m, k ≤ m ∧ IsSide vertices m := by
  induction left : vertices.length - (k + 1) generalizing k with
  | zero =>
    have whole : k + 1 = vertices.length := by omega
    refine ⟨k, Nat.le_refl k, lt, ?_⟩
    rwa [whole, Nat.mod_self]
  | succ left ih =>
    have more : k + 1 < vertices.length := by omega
    by_cases same : vertices[k]? = vertices[k + 1]?
    · obtain ⟨m, le, side⟩ := ih more (same ▸ away) (by omega)
      exact ⟨m, Nat.le_of_succ_le le, side⟩
    · exact ⟨k, Nat.le_refl k, (isSide_iff more).mpr same⟩

namespace Trailing

/-- Behind a vertex equal to the first one all are equal to it. -/
lemma home (trailing : Trailing vertices last) (behind : last < k) (same : vertices[k]? = vertices[0]?) {m : Nat}
    (le : k ≤ m) (lt : m < vertices.length) : vertices[m]? = vertices[0]? := by
  induction m, le using Nat.le_induction with
  | base => exact same
  | succ m le ih =>
    rcases trailing (m + 1) (by omega) lt with equal | equal
    · exact equal.trans (ih (Nat.lt_of_succ_lt lt))
    · exact equal

/-- Behind a vertex that is the first one again there are no more sides. -/
lemma not_isSide_of_home (trailing : Trailing vertices last) (behind : last < k)
    (same : vertices[k]? = vertices[0]?) {m : Nat} (le : k ≤ m) : ¬IsSide vertices m := by
  rintro ⟨lt, differ⟩
  rw [trailing.home behind same le lt] at differ
  rcases Nat.lt_or_ge (m + 1) vertices.length with more | ends
  · rw [Nat.mod_eq_of_lt more, trailing.home behind same (Nat.le_succ_of_le le) more] at differ
    exact differ rfl
  · rw [show m + 1 = vertices.length by omega, Nat.mod_self] at differ
    exact differ rfl

/-- Only the last side is behind `last`, from a vertex that is repeated. -/
lemma overlooked (trailing : Trailing vertices last) (behind : last < k) (side : IsSide vertices k) :
    Overlooked vertices k := by
  have away : vertices[k]? ≠ vertices[0]? := fun same =>
    trailing.not_isSide_of_home behind same (Nat.le_refl k) side
  have repeated : vertices[k]? = vertices[k - 1]? := (trailing k behind side.1).resolve_right away
  refine ⟨repeated, fun m later side' => ?_⟩
  have more : k + 1 < vertices.length := Nat.lt_of_le_of_lt later side'.1
  rcases trailing (k + 1) (Nat.lt_succ_of_lt behind) more with same | same
  · exact (isSide_iff more).mp side same.symm
  · exact trailing.not_isSide_of_home (Nat.lt_succ_of_lt behind) same later side'

/-- Where there is a side at `last`, it is the last one. -/
lemma none_behind (trailing : Trailing vertices last) (side : IsSide vertices last) :
    ∀ k > last, ¬IsSide vertices k := by
  intro k behind side'
  have more : last + 1 < vertices.length := Nat.lt_of_le_of_lt behind side'.1
  rcases trailing (last + 1) (Nat.lt_succ_self last) more with same | same
  · exact (isSide_iff more).mp side same.symm
  · exact trailing.not_isSide_of_home (Nat.lt_succ_self last) same behind side'

/-- With three sides, `last` leaves room for two in front of it. -/
lemma two_le (trailing : Trailing vertices last) (pos : 0 < j) (lt : j < k) (second : IsSide vertices j)
    (third : IsSide vertices k) : 2 ≤ last := by
  by_contra short
  rcases Nat.lt_or_ge last j with behind | le
  · exact (trailing.overlooked behind second).last k lt third
  · obtain rfl : j = last := by omega
    exact trailing.none_behind second k lt third

end Trailing
/-! ## The ends of the vertices -/

/-- The vertices behind `last` are left out, which differs from its neighbours around the end. -/
lemma lastSegment_spec (some : vertices.length ≠ 0) :
    Ends (lastSegment vertices) (vertices.length + 1) (fun last =>
      (last < vertices.length ∧ Trailing vertices last) ∧
        (2 ≤ last → vertices[last]? ≠ vertices[last - 1]? ∧ vertices[last]? ≠ vertices[0]?)) := by
  have start : vertices.length - 1 < vertices.length ∧ Trailing vertices (vertices.length - 1) :=
    ⟨by omega, fun k behind lt => absurd behind (by omega)⟩
  refine Ends.mono (Ends.skip (I := fun last => last < vertices.length ∧ Trailing vertices last) id
    (fun last inv => ?_) start) (by simp only [id]; omega)
  obtain ⟨lt, trailing⟩ := inv
  by_cases more : last > 1
  · have before : (last - 1 + vertices.length) % vertices.length = last - 1 := by
      rw [Nat.add_mod_right, Nat.mod_eq_of_lt (by omega)]
    have further (here : vertices[last]? = vertices[last - 1]? ∨ vertices[last]? = vertices[0]?) :
        (last - 1 < vertices.length ∧ Trailing vertices (last - 1)) ∧ id (last - 1) < id last := by
      refine ⟨⟨by omega, fun k behind lt' => ?_⟩, by simp only [id]; omega⟩
      rcases Nat.lt_or_ge last k with behind' | le
      · exact trailing k behind' lt'
      · obtain rfl : k = last := by omega
        exact here
    rw [if_pos more, before, same_eq lt (by omega), ended_bind]
    by_cases equal : vertices[last]? = vertices[last - 1]?
    · exact .inl ⟨by rw [decide_eq_true equal]; rfl, further (.inl equal)⟩
    · rw [decide_eq_false equal, if_neg Bool.false_ne_true, same_eq lt (by omega)]
      by_cases closed : vertices[last]? = vertices[0]?
      · exact .inl ⟨by rw [decide_eq_true closed], further (.inr closed)⟩
      · exact .inr ⟨by rw [decide_eq_false closed], ⟨lt, trailing⟩, fun _ => ⟨equal, closed⟩⟩
  · rw [if_neg more]
    exact .inr ⟨rfl, ⟨lt, trailing⟩, fun more' => absurd more' more⟩

/-- `first` is the first side. -/
lemma firstSegment_spec (lt : last < vertices.length) (some : last ≠ 0)
    (turned : vertices[last]? ≠ vertices[last - 1]?) :
    Ends (firstSegment vertices last) (last + 1) (fun first =>
      first < last ∧ IsSide vertices first ∧ ∀ k < first, ¬IsSide vertices k) := by
  refine Ends.imp (skipEqual_ends (I := fun first => first < last ∧ ∀ k < first, ¬IsSide vertices k) last ?_ ?_ ?_
    ⟨by omega, nofun⟩) ?_
  · intro i more
    exact of_decide_eq_true more
  · intro i below _
    omega
  · intro i inv _ equal
    refine ⟨succ_lt_last turned inv.1 equal, fun k below side => ?_⟩
    rcases Nat.lt_or_ge k i with below' | le
    · exact inv.2 k below' side
    · obtain rfl : k = i := by omega
      exact (isSide_iff (by omega)).mp side equal
  · rintro first ⟨⟨below, none⟩, differ⟩
    exact ⟨below, (isSide_iff (by omega)).mpr (differ (decide_eq_true below)), none⟩

/-! ## The loops over the sides -/

/-- The loop over `j` looks at all sides up to `jLast`. -/
lemma apart_spec {initLine : Line} {jLast : Nat} (lt : last < vertices.length)
    (turned : vertices[last]? ≠ vertices[last - 1]?) (near : jLast = last ∨ jLast = last - 1) (j : Nat) :
    Ends (apart vertices initLine last jLast · j) (2 * vertices.length + 2) (fun none => none = true ↔
      ∀ m, j ≤ m → m ≤ jLast → IsSide vertices m → intersects initLine (side vertices m) = false) := by
  have le : jLast ≤ last := by omega
  refine Ends.mono (Ends.loop (k := vertices.length + 1) (I := fun j' => j ≤ j' ∧
    ∀ m, j ≤ m → m < j' → m ≤ jLast → IsSide vertices m → intersects initLine (side vertices m) = false)
    (fun j => jLast + 1 - j) (fun j' inv => ?_) ⟨Nat.le_refl j, fun m le lt => absurd lt (by omega)⟩) (by omega)
  obtain ⟨le', none⟩ := inv
  by_cases more : j' ≤ jLast
  · simp only [if_pos more]
    apply Ends.bind
    · refine Ends.mono (skipEqual_ends (I := fun m => j' ≤ m ∧ ∀ k, j' ≤ k → k < m → ¬IsSide vertices k) (last + 1)
        ?_ ?_ ?_ ⟨Nat.le_refl j', fun k le lt => absurd lt (by omega)⟩) (by omega)
      · intro m more
        exact Nat.lt_succ_of_le (of_decide_eq_true more)
      · intro m _ more
        exact ⟨Nat.lt_of_le_of_lt (of_decide_eq_true more) lt, Nat.mod_lt _ (Nat.zero_lt_of_lt lt)⟩
      · intro m inv more equal
        refine ⟨Nat.le_succ_of_le inv.1, fun k le' below side => ?_⟩
        rcases Nat.lt_or_ge k m with below' | le''
        · exact inv.2 k le' below' side
        · obtain rfl : k = m := by omega
          exact side.2 equal
    · rintro m ⟨⟨le'', skipped⟩, differ⟩
      have none' (k : Nat) (first : j ≤ k) (below : k < m) (within : k ≤ jLast) (at_ : IsSide vertices k) :
          intersects initLine (side vertices k) = false := by
        rcases Nat.lt_or_ge k j' with before | behind
        · exact none k first before within at_
        · exact absurd at_ (skipped k behind below)
      by_cases beyond : m > last
      · simp only [if_pos beyond]
        exact Ends.const (iff_of_true rfl fun k first within => none' k first (by omega) within)
      · have below := Nat.lt_of_le_of_lt (Nat.le_of_not_lt beyond) lt
        have here := List.getElem?_eq_getElem below
        have there := List.getElem?_eq_getElem (Nat.mod_lt (m + 1) (Nat.zero_lt_of_lt lt))
        have at_ : IsSide vertices m := ⟨below, differ (decide_eq_true (Nat.le_of_not_lt beyond))⟩
        have within : m ≤ jLast := by
          rcases near with rfl | rfl
          · exact Nat.le_of_not_lt beyond
          · by_contra far
            refine skipped (last - 1) more (by omega) ((isSide_iff (by omega)).mpr fun equal => turned ?_)
            rw [← Nat.sub_add_cancel (show 1 ≤ last by omega)]
            exact equal.symm
        simp only [if_neg beyond, read_eq here, read_eq there, ended_bind, ← side_eq here there]
        cases crossing : intersects initLine (side vertices m) with
        | true =>
          refine Ends.const (iff_of_false Bool.false_ne_true fun all => ?_)
          rw [all m (Nat.le_trans le' le'') within at_] at crossing
          cases crossing
        | false =>
          refine Ends.const ⟨⟨Nat.le_succ_of_le (Nat.le_trans le' le''), fun k first below' within' at' => ?_⟩,
            by dsimp only; omega⟩
          rcases Nat.lt_or_ge k m with before | behind
          · exact none' k first before within' at'
          · obtain rfl : k = m := by omega
            exact crossing
  · simp only [if_neg more]
    exact Ends.const (iff_of_true rfl fun m first within => none m first (by omega) within)

/-- Behind side `m`, the loop over `j` starts at the end of the next side. -/
lemma ahead_spec {m jLast : Nat} (lt : m + 1 < vertices.length) (within : jLast < vertices.length) :
    Ends (skipEqual vertices (· ≤ jLast) (fun _ => m + 1) (fun j => j) · (m + 2)) (jLast + 2) (fun j =>
      (m + 2 ≤ j ∧ ∀ k, m < k → k + 1 < j → ¬IsSide vertices k) ∧
        (j ≤ jLast → ∃ k, m < k ∧ k < j ∧ IsSide vertices k)) := by
  refine Ends.imp (skipEqual_ends (I := fun j => m + 2 ≤ j ∧
    ∀ k, m + 2 ≤ k → k < j → k ≤ jLast ∧ vertices[m + 1]? = vertices[k]?) (jLast + 1) ?_ ?_ ?_
    ⟨Nat.le_refl (m + 2), fun k le lt => absurd lt (by omega)⟩) ?_
  · intro j more
    exact Nat.lt_succ_of_le (of_decide_eq_true more)
  · intro j _ more
    exact ⟨lt, Nat.lt_of_le_of_lt (of_decide_eq_true more) within⟩
  · intro j inv more equal
    refine ⟨Nat.le_succ_of_le inv.1, fun k le behind => ?_⟩
    rcases Nat.lt_or_ge k j with before | here
    · exact inv.2 k le before
    · obtain rfl : k = j := by omega
      exact ⟨of_decide_eq_true more, equal⟩
  · rintro j ⟨⟨ahead, equal⟩, differ⟩
    refine ⟨⟨ahead, fun k behind before side => ?_⟩, fun more => ?_⟩
    · have le := (equal (k + 1) (by omega) before).1
      refine (isSide_iff (by omega)).mp side ?_
      rw [← (equal (k + 1) (by omega) before).2]
      rcases Nat.eq_or_lt_of_le (Nat.succ_le_of_lt behind) with same | further
      · rw [← same]
      · exact (equal k further (Nat.lt_of_succ_lt before)).2.symm
    · refine ⟨j - 1, by omega, by omega, (isSide_iff (by omega)).mpr ?_⟩
      rw [Nat.sub_add_cancel (by omega)]
      intro same
      refine differ (decide_eq_true more) ?_
      rw [← same]
      rcases Nat.eq_or_lt_of_le ahead with first | further
      · rw [← first]
        rfl
      · exact (equal (j - 1) (by omega) (by omega)).2

/-- The pairs of sides that the loops compare -/
structure Compared (vertices : List Point) (first last i j : Nat) : Prop where
  one : IsSide vertices i
  other : IsSide vertices j
  between : ∃ k, i < k ∧ k < j ∧ IsSide vertices k
  le : j ≤ last
  around : i = first → j ≠ last

/-- The loop over `i` compares them all. -/
lemma simple_spec (first : Nat) (lt : last < vertices.length) (turned : vertices[last]? ≠ vertices[last - 1]?)
    (below : i < last) :
    Ends (simple vertices first last · i) (validFuel vertices) (fun none => none = true ↔
      ∀ a b, i ≤ a → Compared vertices first last a b →
        intersects (side vertices a) (side vertices b) = false) := by
  refine Ends.mono (Ends.loop (k := 2 * vertices.length + 2) (I := fun i' => (i ≤ i' ∧ i' < last) ∧
    ∀ a b, i ≤ a → a < i' → Compared vertices first last a b →
      intersects (side vertices a) (side vertices b) = false)
    (fun i => last - i) (fun i' inv => ?_) ⟨⟨Nat.le_refl i, below⟩, fun a _ le lt => absurd lt (by omega)⟩)
    (by unfold validFuel; omega)
  obtain ⟨⟨begin', below'⟩, none⟩ := inv
  simp only [if_pos (Nat.le_of_lt below')]
  apply Ends.bind
  · refine Ends.mono (skipEqual_ends (I := fun m => (i' ≤ m ∧ m < last) ∧ ∀ k, i' ≤ k → k < m → ¬IsSide vertices k)
      (last + 1) ?_ ?_ ?_ ⟨⟨Nat.le_refl i', below'⟩, fun k le lt => absurd lt (by omega)⟩) (by omega)
    · intro m more
      exact Nat.lt_succ_of_le (of_decide_eq_true more)
    · intro m inv _
      omega
    · intro m inv _ equal
      refine ⟨⟨Nat.le_succ_of_le inv.1.1, succ_lt_last turned inv.1.2 equal⟩, fun k le behind side => ?_⟩
      rcases Nat.lt_or_ge k m with before | at_
      · exact inv.2 k le before side
      · obtain rfl : k = m := by omega
        exact (isSide_iff (by omega)).mp side equal
  · rintro m ⟨⟨⟨le, belowM⟩, skipped⟩, differ⟩
    have none' (a b : Nat) (le' : i ≤ a) (before : a < m) (pair : Compared vertices first last a b) :
        intersects (side vertices a) (side vertices b) = false := by
      rcases Nat.lt_or_ge a i' with earlier | later
      · exact none a b le' earlier pair
      · exact absurd pair.one (skipped a later before)
    have at_ : IsSide vertices m := (isSide_iff (by omega)).mpr (differ (decide_eq_true (Nat.le_of_lt belowM)))
    have near : (if m = first then last - 1 else last) = last ∨ (if m = first then last - 1 else last) = last - 1 := by
      split <;> simp
    have around : ∀ b, b ≤ last → (m = first → b ≠ last) → b ≤ (if m = first then last - 1 else last) := by
      intro b le' away
      split
      · rename_i same
        have := away same
        omega
      · exact le'
    have away : ∀ b, b ≤ (if m = first then last - 1 else last) → b ≤ last ∧ (m = first → b ≠ last) := by
      intro b le'
      split at le'
      · exact ⟨by omega, fun _ => by omega⟩
      · exact ⟨le', fun same => absurd same ‹_›⟩
    generalize (if m = first then last - 1 else last) = jLast at near around away
    simp only [if_neg (Nat.not_lt_of_lt belowM)]
    apply Ends.bind
    · exact Ends.mono (ahead_spec (show m + 1 < vertices.length by omega) (by omega)) (by omega)
    · rintro j ⟨⟨ahead, gap⟩, turn⟩
      have ahead' {b : Nat} (pair : Compared vertices first last m b) : j ≤ b := by
        obtain ⟨k, behind, before, at'⟩ := pair.between
        by_contra short
        exact gap k behind (by omega) at'
      by_cases beyond : j > jLast
      · simp only [if_pos beyond]
        refine Ends.const (iff_of_true rfl fun a b le' pair => ?_)
        rcases Nat.lt_trichotomy a m with before | rfl | behind
        · exact none' a b le' before pair
        · exact absurd (ahead' pair) (Nat.not_le_of_lt (Nat.lt_of_le_of_lt (around b pair.le pair.around) beyond))
        · obtain ⟨k, low, high, at'⟩ := pair.between
          have le'' := pair.le
          exact absurd pair.one (gap a behind (by omega))
      · have here := List.getElem?_eq_getElem (Nat.lt_trans belowM lt)
        have there := List.getElem?_eq_getElem (show m + 1 < vertices.length by omega)
        have there' : vertices[(m + 1) % vertices.length]? = some vertices[m + 1] := by
          rw [Nat.mod_eq_of_lt (by omega)]
          exact there
        simp only [if_neg beyond, read_eq here, read_eq there, ended_bind, ← side_eq here there']
        have turn := turn (Nat.le_of_not_lt beyond)
        apply Ends.bind
        · exact apart_spec lt turned near j
        · rintro answer spec
          cases answer with
          | true =>
            have room := (away j (Nat.le_of_not_lt beyond)).1
            refine Ends.const ⟨⟨by omega, fun a b le' before pair => ?_⟩, by dsimp only; omega⟩
            rcases Nat.lt_or_ge a m with earlier | same
            · exact none' a b le' earlier pair
            · obtain rfl : a = m := by omega
              exact spec.mp rfl b (ahead' pair) (around b pair.le pair.around) pair.other
          | false =>
            refine Ends.const (iff_of_false Bool.false_ne_true fun all => Bool.false_ne_true (spec.mpr ?_))
            intro b from' within second
            obtain ⟨k, behind, before, at'⟩ := turn
            exact all m b (by omega) ⟨at_, second, ⟨k, behind, by omega, at'⟩, (away b within).1, (away b within).2⟩

/-! ## All pairs -/

/-- The pairs that are compared are those that are not neighbours, but for the side that is overlooked. -/
lemma compared_iff (trailing : Trailing vertices last) (lt : last < vertices.length)
    (turned : vertices[last]? ≠ vertices[last - 1]?) (away : vertices[last]? ≠ vertices[0]?) (below : first < last)
    (at_ : IsSide vertices first) (none : ∀ k < first, ¬IsSide vertices k) :
    Compared vertices first last i j ↔ Nonadjacent vertices i j ∧ ¬Overlooked vertices j := by
  obtain ⟨end', from', atEnd⟩ := exists_side_from lt away
  constructor
  · rintro ⟨one, other, between, le, around⟩
    refine ⟨⟨one, other, between, ?_⟩, fun overlooked => ?_⟩
    · by_cases same : i = first
      · exact ⟨end', .inr (Nat.lt_of_lt_of_le (lt_of_le_of_ne le (around same)) from'), atEnd⟩
      · exact ⟨first, .inl (lt_of_le_of_ne (Nat.le_of_not_lt fun before => none i before one) (Ne.symm same)), at_⟩
    · rcases Nat.eq_or_lt_of_le le with rfl | before
      · exact turned overlooked.repeated
      · exact overlooked.last end' (Nat.lt_of_lt_of_le before from') atEnd
  · rintro ⟨⟨one, other, between, around⟩, seen⟩
    have le : j ≤ last := Nat.le_of_not_lt fun behind => seen (trailing.overlooked behind other)
    refine ⟨one, other, between, le, ?_⟩
    rintro rfl rfl
    obtain ⟨k, outside, at'⟩ := around
    rcases outside with before | behind
    · exact none k before at'
    · exact trailing.none_behind other k behind at'

/-- A polygon with three sides or more is valid exactly if no two sides that are not neighbours have a common point,
    but for a last side that comes from a repeated vertex. -/
theorem valid_exact (three : ∃ i j k, i < j ∧ j < k ∧ IsSide vertices i ∧ IsSide vertices j ∧ IsSide vertices k) :
    valid vertices = true ↔
      ∀ i j, Nonadjacent vertices i j → Meet (side vertices i) (side vertices j) → Overlooked vertices j := by
  obtain ⟨a, b, c, lt, lt', -, second, third⟩ := three
  have many : ¬vertices.length < 3 := by
    have := third.1
    omega
  have some : vertices.length ≠ 0 := fun none => many (none ▸ Nat.zero_lt_succ 2)
  obtain ⟨last, ended, ⟨inside, trailing⟩, turned⟩ := lastSegment_spec some
  have two := trailing.two_le (by omega) lt' second third
  obtain ⟨turned, away⟩ := turned two
  obtain ⟨first, ended', below, at_, none⟩ := firstSegment_spec inside (by omega) turned
  obtain ⟨answer, ended'', exact_⟩ := simple_spec first inside turned below
  have enough : vertices.length + 1 ≤ validFuel vertices := by
    unfold validFuel
    omega
  have answers : valid vertices = answer := by
    have ran : simple vertices first last (validFuel vertices) first = .ended answer := ended'' _ (Nat.le_refl _)
    unfold valid validWalk
    rw [if_neg many, ended _ enough, ended_bind, if_neg (by omega), ended' _ (by omega), ended_bind, ran]
    cases answer <;> rfl
  rw [answers, exact_]
  constructor
  · intro apart i j pair meet
    by_contra seen
    have compared := (compared_iff trailing inside turned away below at_ none).mpr ⟨pair, seen⟩
    have first_le : first ≤ i := Nat.le_of_not_lt fun before => none i before pair.first
    have crossing := apart i j first_le compared
    rw [intersects_iff.mpr meet] at crossing
    cases crossing
  · intro apart i j _ compared
    obtain ⟨pair, seen⟩ := (compared_iff trailing inside turned away below at_ none).mp compared
    cases crossing : intersects (side vertices i) (side vertices j) with
    | true => exact absurd (apart i j pair (intersects_iff.mp crossing)) seen
    | false => rfl

/-- A quadrilateral with two crossing sides, of which one is the last side and comes from a repeated vertex, is valid
    only because of that. -/
theorem valid_exact_repeated :
    let vertices : List Point := [(0, 0), (2, 0), (0, 2), (2, 2), (2, 2)]
    valid vertices = true ∧ (valid vertices = true ↔
      ∀ i j, Nonadjacent vertices i j → Meet (side vertices i) (side vertices j) → Overlooked vertices j) := by
  intro vertices
  exact ⟨by decide +kernel, valid_exact ⟨0, 1, 2, by decide, by decide, by decide, by decide, by decide⟩⟩

end OsterLib.Geometry.Polygon
