import Mathlib.Data.List.Basic
import Mathlib.Data.Nat.Init
import Mathlib.Order.Lattice
import Mathlib.Tactic.Lemma

/-!
# Increasing points

The values of a function at the first numbers, where each is less than the next one. Those between two bounds are
consecutive.
-/

namespace OsterLib.Lib

variable {α β : Type*} [LinearOrder α] {f : Nat → α} {n lo hi : Nat} {x y : α}

/-- The values until `n` increase. -/
def Increasing (f : Nat → α) (n : Nat) : Prop := ∀ i < n, f i < f (i + 1)

/-- The values from `lo` until `hi` are those between two bounds. -/
structure Within (f : Nat → α) (n : Nat) (x y : α) (lo hi : Nat) : Prop where
  ordered : lo ≤ hi
  last : hi ≤ n
  low : x ≤ f lo
  high : f hi ≤ y
  before : ∀ i, i + 1 = lo → f i < x
  behind : hi < n → y < f (hi + 1)

/-- A later value is larger. -/
lemma Increasing.lt (increasing : Increasing f n) {i j : Nat} (lt : i < j) (le : j ≤ n) : f i < f j := by
  induction j with
  | zero => exact absurd lt (Nat.not_lt_zero i)
  | succ j ih =>
    have next := increasing j le
    rcases Nat.lt_or_eq_of_le (Nat.le_of_lt_succ lt) with lt' | rfl
    · exact (ih lt' (Nat.le_of_succ_le le)).trans next
    · exact next

/-- A value that is not earlier is not smaller. -/
lemma Increasing.le (increasing : Increasing f n) {i j : Nat} (le : i ≤ j) (le' : j ≤ n) : f i ≤ f j := by
  rcases Nat.lt_or_eq_of_le le with lt | rfl
  · exact le_of_lt (increasing.lt lt le')
  · exact le_refl _

/-- There is a first value that is not less than a bound, if there is any. -/
lemma exists_first {i : Nat} (low : x ≤ f i) :
    ∃ lo ≤ i, x ≤ f lo ∧ ∀ j, j + 1 = lo → f j < x := by
  induction i with
  | zero => exact ⟨0, Nat.le_refl 0, low, fun j next => absurd next (Nat.succ_ne_zero j)⟩
  | succ i ih =>
    rcases le_or_gt x (f i) with low' | before
    · obtain ⟨lo, le', first, rest⟩ := ih low'
      exact ⟨lo, Nat.le_succ_of_le le', first, rest⟩
    · refine ⟨i + 1, Nat.le_refl _, low, fun j next => ?_⟩
      cases next
      exact before

/-- There is a last value that is not greater than a bound, if there is any. -/
lemma exists_last {i : Nat} (le : i ≤ n) (high : f i ≤ y) :
    ∃ hi, i ≤ hi ∧ hi ≤ n ∧ f hi ≤ y ∧ (hi < n → y < f (hi + 1)) := by
  induction le using Nat.decreasingInduction with
  | self => exact ⟨n, Nat.le_refl n, Nat.le_refl n, high, fun lt => absurd lt (Nat.lt_irrefl n)⟩
  | of_succ i lt ih =>
    rcases le_or_gt (f (i + 1)) y with high' | behind
    · obtain ⟨hi, le, le', last, rest⟩ := ih high'
      exact ⟨hi, Nat.le_of_succ_le le, le', last, rest⟩
    · exact ⟨i, Nat.le_refl i, Nat.le_of_lt lt, high, fun _ => behind⟩

/-- A sequence that has a value between the bounds has a first and a last one there. -/
lemma exists_within {i : Nat} (le : i ≤ n) (low : x ≤ f i) (high : f i ≤ y) :
    ∃ lo hi, Within f n x y lo hi := by
  obtain ⟨lo, le', first, before⟩ := exists_first low
  obtain ⟨hi, le'', last, highest, behind⟩ := exists_last le high
  exact ⟨lo, hi, Nat.le_trans le' le'', last, first, highest, before, behind⟩

/-- What is before the first index is below the bounds. -/
lemma Within.lt_low (within : Within f n x y lo hi) (increasing : Increasing f n) {i : Nat} (lt : i < lo) :
    f i < x := by
  obtain ⟨last, rfl⟩ := Nat.exists_eq_add_of_lt lt
  have le : i + last ≤ n := by
    have ordered := within.ordered
    have last := within.last
    omega
  exact (increasing.le (Nat.le_add_right i last) le).trans_lt (within.before _ rfl)

/-- What is behind the last index is above the bounds. -/
lemma Within.high_lt (within : Within f n x y lo hi) (increasing : Increasing f n) {i : Nat} (lt : hi < i)
    (le : i ≤ n) :
    y < f i :=
  (within.behind (Nat.lt_of_lt_of_le lt le)).trans_le (increasing.le lt le)

/-- The last value between the bounds is the only one with a greater one behind it. -/
lemma Within.eq_hi (within : Within f n x y lo hi) (increasing : Increasing f n) {i : Nat} (lt : i < n) (high : f i ≤ y)
    (behind : y < f (i + 1)) : i = hi := by
  rcases Nat.lt_trichotomy i hi with before | same | after
  · exact absurd ((increasing.le before within.last).trans within.high) (not_le_of_gt behind)
  · exact same
  · exact absurd high (not_le_of_gt (within.high_lt increasing after (Nat.le_of_lt lt)))

/-- The two indices are determined. -/
lemma Within.unique {lo' hi' : Nat} (within : Within f n x y lo hi) (within' : Within f n x y lo' hi')
    (increasing : Increasing f n) : lo = lo' ∧ hi = hi' := by
  constructor
  · rcases Nat.lt_trichotomy lo lo' with before | same | after
    · exact absurd within.low (not_le_of_gt (within'.lt_low increasing before))
    · exact same
    · exact absurd within'.low (not_le_of_gt (within.lt_low increasing after))
  · rcases Nat.lt_trichotomy hi hi' with before | same | after
    · exact absurd within'.high (not_le_of_gt (within.high_lt increasing before within'.last))
    · exact same
    · exact absurd within.high (not_le_of_gt (within'.high_lt increasing after within.last))

end OsterLib.Lib
