import Mathlib.Data.List.Nodup
import Mathlib.Order.RelClasses

/-!
# The indices of the least values of a list

A list of indices says where the values of another list are that come first in a strict total order, each of these
places once (`BestIndices`). `challenge` changes it for one more value, and `raise` and `lower` for a place that is
made or taken away in front of others. A list is kept exact when a value is inserted (`BestIndices.insert`), appended
(`BestIndices.append`) or, not being one of the first, erased (`BestIndices.erase`).
-/

namespace OsterLib.Lib

section Extremes
variable {K : Type*} (r : K → K → Prop)

/-- There is a value at the index, and no value comes before it. -/
def Best (values : List K) (i : Nat) : Prop := ∃ v, values[i]? = some v ∧ ∀ w ∈ values, ¬r w v

/-- The indices are those of the best values, each once. -/
structure BestIndices (values : List K) (indices : List Nat) : Prop where
  nodup : indices.Nodup
  mem_iff : ∀ i, i ∈ indices ↔ Best r values i

/-- The indices after a value at a new position, which is compared with the value at the first of them -/
def challenge [DecidableRel r] [DecidableEq K] (values : List K) (indices : List Nat) (value : K) (position : Nat) :
    List Nat :=
  match indices with
  | [] => [position]
  | front :: _ =>
    match values[front]? with
    | some location =>
      if r value location then [position]
      else if location = value then indices ++ [position]
      else indices
    | none => indices

/-- The value at the first of the indices -/
def frontOf (values : List K) (indices : List Nat) : Option K := indices.head?.bind (values[·]?)

/-- An index when a place is made for another value -/
def raise (position i : Nat) : Nat := if i ≥ position then i + 1 else i

/-- An index when the value at a position is taken away -/
def lower (position i : Nat) : Nat := if i > position then i - 1 else i

/-- The index that is made room for is left out. -/
lemma raise_ne (position i : Nat) : raise position i ≠ position := by
  unfold raise
  split <;> omega

/-- Lowering and raising cancel. -/
lemma raise_lower {position i : Nat} (other : i ≠ position) : raise position (lower position i) = i := by
  unfold raise lower
  split <;> split <;> omega

/-- Raising and lowering cancel. -/
lemma lower_raise (position i : Nat) : lower position (raise position i) = i := by
  unfold raise lower
  split <;> split <;> omega

/-- Two indices are raised to different ones. -/
lemma raise_injective (position : Nat) : Function.Injective (raise position) :=
  Function.LeftInverse.injective (lower_raise position)

/-- The other values keep their order where one is inserted. -/
lemma getElem?_insertIdx_raise (values : List K) (position : Nat) (value : K) (i : Nat) :
    (values.insertIdx position value)[raise position i]? = values[i]? := by
  unfold raise
  rw [List.getElem?_insertIdx]
  split
  case isTrue behind => rw [if_neg (by omega), if_neg (by omega), Nat.add_sub_cancel]
  case isFalse front => rw [if_pos (by omega)]

/-- The other values keep their order where one is erased. -/
lemma getElem?_eraseIdx_raise (values : List K) (position i : Nat) :
    (values.eraseIdx position)[i]? = values[raise position i]? := by
  unfold raise
  rw [List.getElem?_eraseIdx]
  split
  case isTrue front => rw [if_neg (by omega)]
  case isFalse behind => rw [if_pos (by omega)]

/-- The first index is of a value, where there is one. -/
def Begun (values : List K) (indices : List Nat) : Prop := indices = [] ∨ ∃ v, frontOf values indices = some v

/-- After a challenge at a place where there is a value, the first index is of a value. -/
lemma Begun.challenge [DecidableRel r] [DecidableEq K] {looked values : List K} {indices : List Nat}
    (begun : Begun looked indices) {position : Nat} {w : K} (here : values[position]? = some w)
    (kept : ∀ (i : Nat) v, looked[i]? = some v → values[i]? = some v) (value : K) :
    ∃ v, frontOf values (challenge r looked indices value position) = some v := by
  cases indices with
  | nil => exact ⟨w, here⟩
  | cons front rest =>
    obtain ⟨v, there⟩ := begun.resolve_left (List.cons_ne_nil _ _)
    have stays := kept front v there
    unfold Lib.challenge
    change looked[front]? = some v at there
    simp only [there]
    split
    · exact ⟨w, here⟩
    · split <;> exact ⟨v, stays⟩

/-- The value at the first index is the same behind a place that is made. -/
lemma frontOf_raise (values : List K) (indices : List Nat) (position : Nat) (value : K) :
    frontOf (values.insertIdx position value) (indices.map (raise position)) = frontOf values indices := by
  cases indices with
  | nil => rfl
  | cons front rest => exact getElem?_insertIdx_raise values position value front

/-- Another value than the one at the first index is taken away. -/
lemma frontOf_lower {values : List K} {indices : List Nat} {position : Nat} {v w : K}
    (there : frontOf values indices = some v) (here : values[position]? = some w)
    (other : frontOf values indices ≠ some w) :
    frontOf (values.eraseIdx position) (indices.map (lower position)) = some v := by
  cases indices with
  | nil => cases there
  | cons front rest =>
    have apart : front ≠ position := by
      rintro rfl
      exact other here
    show (values.eraseIdx position)[lower position front]? = _
    rw [getElem?_eraseIdx_raise, raise_lower apart]
    exact there

/-- Two values come before a third one, and behind it, alike. -/
def Alike (x y v : K) : Prop := (r x v ↔ r y v) ∧ (v = x ↔ v = y)

/-- A value that compares with the one at the first index as another one does makes the same challenge. -/
lemma challenge_alike [DecidableRel r] [DecidableEq K] {looked : List K} {indices : List Nat} {x y : K}
    (alike : ∀ v, frontOf looked indices = some v → Alike r x y v) (position : Nat) :
    challenge r looked indices x position = challenge r looked indices y position := by
  cases indices with
  | nil => rfl
  | cons front rest =>
    unfold challenge
    dsimp only
    cases there : looked[front]? with
    | none => rfl
    | some v =>
      obtain ⟨before, same⟩ := alike v there
      simp only [before, same]

/-- No value is the best one of none. -/
lemma bestIndices_nil : BestIndices r ([] : List K) [] := by
  refine ⟨List.nodup_nil, fun i => iff_of_false List.not_mem_nil ?_⟩
  rintro ⟨v, here, -⟩
  cases here

variable {r}

/-- A best value is one of the values. -/
lemma Best.lt {values : List K} {i : Nat} (best : Best r values i) : i < values.length := by
  obtain ⟨v, here, -⟩ := best
  exact (List.getElem?_eq_some_iff.mp here).1

variable [IsStrictTotalOrder K r]

/-- One of the values comes first. -/
lemma exists_best {values : List K} (some : values ≠ []) : ∃ v ∈ values, ∀ w ∈ values, ¬r w v := by
  induction values with
  | nil => exact absurd rfl some
  | cons u values ih =>
    by_cases none : values = []
    · subst none
      refine ⟨u, List.mem_cons_self, ?_⟩
      rintro w mem
      rw [List.mem_singleton.mp mem]
      exact irrefl u
    · obtain ⟨v, mem, least⟩ := ih none
      rcases trichotomous (r := r) u v with before | same | behind
      · refine ⟨u, List.mem_cons_self, List.forall_mem_cons.mpr ⟨irrefl u, fun w mem' ahead => ?_⟩⟩
        exact least w mem' (trans_of r ahead before)
      · refine ⟨v, List.mem_cons_of_mem u mem, List.forall_mem_cons.mpr ⟨same ▸ irrefl u, least⟩⟩
      · exact ⟨v, List.mem_cons_of_mem u mem, List.forall_mem_cons.mpr ⟨asymm behind, least⟩⟩

/-- Some value is the best one where there are any. -/
lemma BestIndices.ne_nil {values : List K} {indices : List Nat} (best : BestIndices r values indices)
    (some : values ≠ []) : indices ≠ [] := by
  obtain ⟨v, mem, least⟩ := exists_best (r := r) some
  obtain ⟨i, here⟩ := List.mem_iff_getElem?.mp mem
  exact List.ne_nil_of_mem ((best.mem_iff i).mpr ⟨v, here, least⟩)

/-- The value at the first index tells whether another one is one of the first. -/
lemma BestIndices.frontOf_iff {values : List K} {indices : List Nat} (best : BestIndices r values indices) {i : Nat}
    {value : K} (here : values[i]? = some value) : frontOf values indices = some value ↔ Best r values i := by
  have mem := List.mem_of_getElem? here
  obtain ⟨front, rest, rfl⟩ := List.exists_cons_of_ne_nil (best.ne_nil (List.ne_nil_of_mem mem))
  obtain ⟨location, there, least⟩ := (best.mem_iff front).mp List.mem_cons_self
  change values[front]? = some value ↔ _
  rw [there, Option.some.injEq]
  constructor
  · rintro rfl
    exact ⟨location, here, least⟩
  · rintro ⟨v, here', least'⟩
    cases here.symm.trans here'
    rcases trichotomous (r := r) location value with before | same | behind
    · exact absurd before (least' location (List.mem_of_getElem? there))
    · exact same
    · exact absurd behind (least value mem)

/-- A list of values with a new one at a position, as the others were before -/
structure Entered (old new : List K) (value : K) (position : Nat) : Prop where
  here : new[position]? = some value
  mem_iff : ∀ w, w ∈ new ↔ w = value ∨ w ∈ old
  others : ∀ i v, i ≠ position → new[i]? = some v → v ∈ old

/-- The indices of the first values among the others, after a challenge by the new one -/
lemma Entered.challenge [DecidableRel r] [DecidableEq K] {old new looked : List K} {indices : List Nat} {value : K}
    {position : Nat} (entered : Entered old new value position) (nodup : indices.Nodup)
    (first : ∀ i, i ∈ indices ↔ i ≠ position ∧ ∃ v, new[i]? = some v ∧ ∀ w ∈ old, ¬r w v)
    (looks : ∀ i ∈ indices, looked[i]? = new[i]?) (some : old ≠ [] → indices ≠ []) :
    BestIndices r new (challenge r looked indices value position) := by
  have best_iff (i : Nat) (v : K) (at_ : new[i]? = .some v) : Best r new i ↔ ¬r value v ∧ ∀ w ∈ old, ¬r w v := by
    unfold Best
    rw [at_]
    simp only [Option.some.injEq, exists_eq_left', entered.mem_iff, forall_eq_or_imp]
  cases indices with
  | nil =>
    have alone : old = [] := Classical.byContradiction fun more => some more rfl
    refine ⟨List.nodup_singleton position, fun i => List.mem_singleton.trans ⟨?_, ?_⟩⟩
    · rintro rfl
      exact (best_iff i value entered.here).mpr ⟨irrefl value, by simp [alone]⟩
    · rintro ⟨v, at_, least⟩
      by_contra other
      have mem := entered.others i v other at_
      rw [alone] at mem
      cases mem
  | cons front rest =>
    obtain ⟨other, location, at_, least⟩ := (first front).mp List.mem_cons_self
    have mem := entered.others front location other at_
    unfold Lib.challenge
    dsimp only
    rw [looks front List.mem_cons_self, at_]
    dsimp only
    rcases trichotomous (r := r) value location with before | same | behind
    · -- all other values come behind the new one
      have ahead (w : K) (mem' : w ∈ old) : r value w := by
        rcases trichotomous (r := r) w location with before' | same' | behind'
        · exact absurd before' (least w mem')
        · exact same' ▸ before
        · exact trans_of r before behind'
      rw [if_pos before]
      refine ⟨List.nodup_singleton position, fun i => List.mem_singleton.trans ⟨?_, ?_⟩⟩
      · rintro rfl
        exact (best_iff i value entered.here).mpr ⟨irrefl value, fun w mem' => asymm (ahead w mem')⟩
      · rintro ⟨v, at', least'⟩
        by_contra other'
        exact least' value ((entered.mem_iff value).mpr (.inl rfl)) (ahead v (entered.others i v other' at'))
    · subst same
      rw [if_neg (irrefl value), if_pos rfl]
      have fresh : position ∉ front :: rest := fun mem' => ((first position).mp mem').1 rfl
      refine ⟨List.concat_eq_append ▸ (List.nodup_concat _ _).mpr ⟨fresh, nodup⟩, fun i => ?_⟩
      rw [List.mem_append, List.mem_singleton, first]
      constructor
      · rintro (⟨-, v, at', least'⟩ | rfl)
        · exact (best_iff i v at').mpr ⟨least' value mem, least'⟩
        · exact (best_iff i value entered.here).mpr ⟨irrefl value, least⟩
      · intro best
        rcases eq_or_ne i position with here | other'
        · exact .inr here
        · obtain ⟨v, at', least'⟩ := best
          exact .inl ⟨other', v, at', fun w mem' => least' w ((entered.mem_iff w).mpr (.inr mem'))⟩
    · rw [if_neg (asymm behind), if_neg fun same => irrefl value (same ▸ behind)]
      refine ⟨nodup, fun i => ?_⟩
      rw [first]
      constructor
      · rintro ⟨-, v, at', least'⟩
        exact (best_iff i v at').mpr ⟨fun before => least' location mem (trans_of r behind before), least'⟩
      · rintro ⟨v, at', least'⟩
        refine ⟨?_, v, at', fun w mem' => least' w ((entered.mem_iff w).mpr (.inr mem'))⟩
        rintro rfl
        rw [entered.here] at at'
        cases at'
        exact least' location ((entered.mem_iff location).mpr (.inr mem)) behind

variable {values : List K} {indices : List Nat}

/-- A value behind the others. The indices may point into a longer list. -/
lemma BestIndices.append [DecidableRel r] [DecidableEq K] (best : BestIndices r values indices) {looked : List K}
    (looks : ∀ i < values.length, looked[i]? = values[i]?) (value : K) :
    BestIndices r (values ++ [value]) (Lib.challenge r looked indices value values.length) := by
  have same (i : Nat) (lt : i < values.length) : (values ++ [value])[i]? = values[i]? := List.getElem?_append_left lt
  have entered : Entered values (values ++ [value]) value values.length := by
    refine ⟨List.getElem?_concat_length, fun w => ?_, fun i v other at_ => ?_⟩
    · rw [List.mem_append, List.mem_singleton, or_comm]
    · have lt := (List.getElem?_eq_some_iff.mp at_).1
      rw [List.length_append, List.length_singleton] at lt
      rw [same i (by omega)] at at_
      exact List.mem_of_getElem? at_
  apply entered.challenge best.nodup
  · intro i
    rw [best.mem_iff]
    constructor
    · intro first
      have lt := first.lt
      obtain ⟨v, at_, least⟩ := first
      exact ⟨Nat.ne_of_lt lt, v, (same i lt).trans at_, least⟩
    · rintro ⟨other, v, at_, least⟩
      have lt := (List.getElem?_eq_some_iff.mp at_).1
      rw [List.length_append, List.length_singleton] at lt
      exact ⟨v, (same i (by omega)).symm.trans at_, least⟩
  · intro i mem
    have lt := ((best.mem_iff i).mp mem).lt
    rw [looks i lt, same i lt]
  · exact best.ne_nil

/-- The list of the best indices stays right where a value is inserted and challenged. -/
lemma BestIndices.insert [DecidableRel r] [DecidableEq K] (best : BestIndices r values indices) {position : Nat}
    (le : position ≤ values.length) (value : K) :
    BestIndices r (values.insertIdx position value)
      (Lib.challenge r (values.insertIdx position value) (indices.map (raise position)) value position) := by
  have raised := getElem?_insertIdx_raise values position value
  have entered : Entered values (values.insertIdx position value) value position := by
    refine ⟨?_, fun w => List.mem_insertIdx le, fun i v other at_ => ?_⟩
    · rw [List.getElem?_insertIdx_self, if_pos le]
    · rw [← raise_lower other, raised] at at_
      exact List.mem_of_getElem? at_
  apply entered.challenge (best.nodup.map (raise_injective position)) _ (fun _ _ => rfl)
  · intro some
    rw [ne_eq, List.map_eq_nil_iff]
    exact best.ne_nil some
  · intro i
    rw [List.mem_map]
    constructor
    · rintro ⟨j, mem, rfl⟩
      obtain ⟨v, at_, least⟩ := (best.mem_iff j).mp mem
      exact ⟨raise_ne position j, v, (raised j).trans at_, least⟩
    · rintro ⟨other, v, at_, least⟩
      rw [← raise_lower other, raised] at at_
      exact ⟨lower position i, (best.mem_iff _).mpr ⟨v, at_, least⟩, raise_lower other⟩

/-- Where the value that is taken away is not one of the first, those are the first of the others. -/
lemma best_erase_iff {position : Nat} (notBest : ¬Best r values position) (i : Nat) :
    Best r (values.eraseIdx position) i ↔ Best r values (raise position i) := by
  unfold Best
  rw [getElem?_eraseIdx_raise]
  constructor
  · rintro ⟨v, at_, least⟩
    refine ⟨v, at_, fun w mem ahead => ?_⟩
    obtain ⟨u, mem', first⟩ := exists_best (r := r) (List.ne_nil_of_mem mem)
    obtain ⟨j, there⟩ := List.mem_iff_getElem?.mp mem'
    have kept : j ≠ position := by
      rintro rfl
      exact notBest ⟨u, there, first⟩
    have behind := least u (List.mem_eraseIdx_iff_getElem?.mpr ⟨j, kept, there⟩)
    rcases trichotomous (r := r) u w with before | same | before
    · exact behind (trans_of r before ahead)
    · exact behind (same ▸ ahead)
    · exact first w mem before
  · rintro ⟨v, at_, least⟩
    exact ⟨v, at_, fun w mem => least w (List.mem_of_mem_eraseIdx mem)⟩

/-- The list of the best indices stays right where another value is erased. -/
lemma BestIndices.erase (best : BestIndices r values indices) {position : Nat} (notBest : ¬Best r values position) :
    BestIndices r (values.eraseIdx position) (indices.map (lower position)) := by
  have other {i : Nat} (mem : i ∈ indices) : i ≠ position := by
    rintro rfl
    exact notBest ((best.mem_iff i).mp mem)
  refine ⟨?_, fun i => ?_⟩
  · apply best.nodup.map_on
    intro i mem j mem' same
    rw [← raise_lower (other mem), same, raise_lower (other mem')]
  · rw [best_erase_iff notBest, ← best.mem_iff, List.mem_map]
    constructor
    · rintro ⟨j, mem, rfl⟩
      rwa [raise_lower (other mem)]
    · intro mem
      exact ⟨raise position i, mem, lower_raise position i⟩

end Extremes
end OsterLib.Lib
