import Mathlib.Data.List.Basic
import Mathlib.Tactic.Lemma

/-!
# Moving items to the front

A loop over the positions of an array keeps some of the items by writing each of them behind those that it has kept so
far. `Compacting` is its invariant: in front of `valid` are the items kept of those in front of `i`, and from `i` on
nothing has been written yet.
-/

namespace OsterLib.Lib
variable {α : Type*}

/-- Before the round for position `i` of a loop that has kept `valid` items of `original`. -/
structure Compacting (keep : α → Bool) (original xs : List α) (i valid : Nat) : Prop where
  le : valid ≤ i
  front : xs.take valid = (original.take i).filter keep
  behind : xs.drop i = original.drop i

namespace Compacting
variable {keep : α → Bool} {original xs : List α} {i valid : Nat}

/-- Nothing is kept yet. -/
lemma start (keep : α → Bool) (original : List α) : Compacting keep original original 0 0 :=
  ⟨Nat.le_refl 0, rfl, rfl⟩

/-- What is not reached yet is where it was. -/
lemma getElem?_eq (inv : Compacting keep original xs i valid) : xs[i]? = original[i]? := by
  have first := congrArg (fun ys => ys[0]?) inv.behind
  simpa using first

/-- One more value is looked at. -/
lemma front_succ {x : α} (item : original[i]? = some x) :
    (original.take (i + 1)).filter keep = (original.take i).filter keep ++ [x].filter keep := by
  rw [List.take_add_one, item, Option.toList_some, List.filter_append]

/-- What is behind the value looked at is where it was. -/
lemma behind_succ (inv : Compacting keep original xs i valid) : xs.drop (i + 1) = original.drop (i + 1) := by
  have rest := congrArg (List.drop 1) inv.behind
  rwa [List.drop_drop, List.drop_drop] at rest

/-- A value that is kept moves to the front. -/
lemma kept (inv : Compacting keep original xs i valid) {x : α} (item : xs[i]? = some x) (keeps : keep x = true) :
    Compacting keep original (xs.set valid x) (i + 1) (valid + 1) := by
  have lt : valid < xs.length := Nat.lt_of_le_of_lt inv.le (List.getElem?_eq_some_iff.1 item).1
  refine ⟨Nat.succ_le_succ inv.le, ?_, ?_⟩
  · rw [front_succ (inv.getElem?_eq ▸ item), List.filter_cons_of_pos keeps, List.filter_nil, ← inv.front,
      List.take_add_one, List.take_set_of_le (Nat.le_refl valid), List.getElem?_set_self lt, Option.toList_some]
  · rw [List.drop_set_of_lt (Nat.lt_succ_of_le inv.le)]
    exact inv.behind_succ

/-- A value that is not kept is passed over. -/
lemma skipped (inv : Compacting keep original xs i valid) {x : α} (item : xs[i]? = some x) (keeps : keep x = false) :
    Compacting keep original xs (i + 1) valid := by
  refine ⟨Nat.le_succ_of_le inv.le, ?_, inv.behind_succ⟩
  rw [front_succ (inv.getElem?_eq ▸ item), List.filter_cons_of_neg (by rw [keeps]; exact Bool.false_ne_true),
    List.filter_nil, List.append_nil]
  exact inv.front

/-- Behind the last item, those that are kept are in front. -/
lemma done (inv : Compacting keep original xs i valid) (last : xs[i]? = none) :
    xs.take valid = original.filter keep := by
  rw [inv.getElem?_eq, List.getElem?_eq_none_iff] at last
  rw [inv.front, List.take_of_length_le last]

end Compacting
end OsterLib.Lib
