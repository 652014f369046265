import Mathlib.Tactic.Lemma
import Mathlib.Data.List.Basic

/-!
# Circular index arithmetic and bounded queues

`slot head cap i` is the cell `i` places after `head` in a ring of `cap` cells. Under `head < cap` and
`i ≤ cap` it crosses the end at most once (`slot_eq`), which turns every fact about the remainder
into linear arithmetic.

`BoundedQueue` is what a ring stands for: a list that never grows beyond a capacity. `writeAt` is a
block copy into a list of cells.
-/

namespace OsterLib.Lib

/-- The physical cell `i` places after `head` in a ring of `cap` cells. -/
def slot (head cap i : Nat) : Nat :=
  (head + i) % cap

/-- The slot is past the end at most once, and then counted from the front. -/
lemma slot_eq {head cap i : Nat} (lt : head < cap) (le : i ≤ cap) :
    slot head cap i = if head + i < cap then head + i else head + i - cap := by
  unfold slot
  split
  · rename_i small
    exact Nat.mod_eq_of_lt small
  · rename_i wraps
    have ge : cap ≤ head + i := Nat.le_of_not_lt wraps
    rw [Nat.mod_eq_sub_mod ge]
    exact Nat.mod_eq_of_lt (by omega)

/-- A slot is one of the cells. -/
lemma slot_lt {head cap : Nat} (i : Nat) (pos : 0 < cap) : slot head cap i < cap :=
  Nat.mod_lt _ pos

/-- Moving the head forward shifts every place after it. -/
lemma slot_slot (head cap i j : Nat) : slot (slot head cap i) cap j = slot head cap (i + j) := by
  simp only [slot, Nat.mod_add_mod, Nat.add_assoc]

section Cells
variable {α : Type*}

/-- Copy `xs` into the cells from `off` on. -/
def writeAt (cells : List α) (off : Nat) : List α → List α
  | [] => cells
  | x :: xs => writeAt (cells.set off x) (off + 1) xs

/-- Nothing is written. -/
@[simp] lemma writeAt_nil (cells : List α) (off : Nat) : writeAt cells off [] = cells := rfl

/-- Writing keeps the number of cells. -/
@[simp] lemma writeAt_length (cells : List α) (off : Nat) (xs : List α) :
    (writeAt cells off xs).length = cells.length := by
  induction xs generalizing cells off with
  | nil => rfl
  | cons x xs ih => simp [writeAt, ih]

/-- A block copy changes exactly the cells of the block. -/
lemma writeAt_getElem? {cells : List α} {off : Nat} {xs : List α}
    (fits : off + xs.length ≤ cells.length) (k : Nat) :
    (writeAt cells off xs)[k]? =
      if off ≤ k ∧ k < off + xs.length then xs[k - off]? else cells[k]? := by
  induction xs generalizing cells off with
  | nil =>
    rw [writeAt_nil, if_neg (by simp)]
  | cons x xs ih =>
    simp only [List.length_cons] at fits ⊢
    rw [writeAt, ih (by simpa using by omega)]
    by_cases later : off + 1 ≤ k ∧ k < off + 1 + xs.length
    · rw [if_pos later, if_pos (by omega), show k - off = (k - (off + 1)) + 1 from by omega,
        List.getElem?_cons_succ]
    · rw [if_neg later]
      by_cases here : k = off
      · subst here
        rw [if_pos (by omega), Nat.sub_self, List.getElem?_cons_zero,
          List.getElem?_set_self (by omega)]
      · rw [if_neg (by omega), List.getElem?_set_ne (by omega)]

end Cells

/-- A first-in first-out queue that holds at most `cap` items. -/
@[ext] structure BoundedQueue (α : Type*) where
  /-- The queued items, oldest first. -/
  items : List α
  cap : Nat
  bound : items.length ≤ cap

namespace BoundedQueue
variable {α : Type*}

/-- A queue with nothing in it -/
def empty (cap : Nat) : BoundedQueue α := ⟨[], cap, Nat.zero_le _⟩

/-- The number of items that still fit. -/
def room (q : BoundedQueue α) : Nat := q.cap - q.items.length

/-- Queue the longest prefix of `xs` that fits. -/
def append (q : BoundedQueue α) (xs : List α) : BoundedQueue α where
  items := q.items ++ xs.take q.room
  cap := q.cap
  bound := by
    have := q.bound
    simp only [room, List.length_append, List.length_take]
    omega

/-- Remove the `n` oldest items, or all of them if there are fewer. -/
def discard (q : BoundedQueue α) (n : Nat) : BoundedQueue α where
  items := q.items.drop n
  cap := q.cap
  bound := by
    have := q.bound
    simp only [List.length_drop]
    omega

/-- Remove the newest item, if there is one. -/
def dropLast (q : BoundedQueue α) : BoundedQueue α where
  items := q.items.dropLast
  cap := q.cap
  bound := by
    have := q.bound
    simp only [List.length_dropLast]
    omega

/-- An empty queue has no items. -/
@[simp] lemma empty_items (cap : Nat) : (empty cap : BoundedQueue α).items = [] := rfl

/-- An empty queue has the capacity given. -/
@[simp] lemma empty_cap (cap : Nat) : (empty cap : BoundedQueue α).cap = cap := rfl

/-- As many as fit are put behind the items. -/
@[simp] lemma append_items (q : BoundedQueue α) (xs : List α) :
    (q.append xs).items = q.items ++ xs.take q.room := rfl

/-- Appending keeps the capacity. -/
@[simp] lemma append_cap (q : BoundedQueue α) (xs : List α) : (q.append xs).cap = q.cap := rfl

/-- The first items are dropped. -/
@[simp] lemma discard_items (q : BoundedQueue α) (n : Nat) :
    (q.discard n).items = q.items.drop n := rfl

/-- Discarding keeps the capacity. -/
@[simp] lemma discard_cap (q : BoundedQueue α) (n : Nat) : (q.discard n).cap = q.cap := rfl

/-- The last item is dropped. -/
@[simp] lemma dropLast_items (q : BoundedQueue α) : q.dropLast.items = q.items.dropLast := rfl

end BoundedQueue

end OsterLib.Lib
