import Mathlib.Data.List.Basic
import Mathlib.Logic.Basic
import Mathlib.Tactic.Lemma

/-!
# Postconditions of computations that may fail

`Post E Q x` says that `x` fails only with an error that `E` admits, and that a result satisfies `Q`. A
sequence of computations is treated step by step with `Post.bind`. The lemmas `_eq_ok_iff` say what a result of a
computation that is put together means for its parts.
-/

namespace OsterLib.Lib
variable {ε α β : Type*} {E : ε → Prop}

/-- A failure satisfies `E`, and a result satisfies `Q`. -/
def Post (E : ε → Prop) (Q : α → Prop) : Except ε α → Prop
  | .error e => E e
  | .ok a => Q a

/-- What holds behind the first part is what the second one may use. -/
lemma Post.bind {ε α β : Type} {E : ε → Prop} {R : α → Prop} {Q : β → Prop} {x : Except ε α}
    {g : α → Except ε β} (first : Post E R x) (later : ∀ a, R a → Post E Q (g a)) :
    Post E Q (x >>= g) := by
  cases x with
  | error e => exact first
  | ok a => exact later a first

/-- A postcondition can be weakened. -/
lemma Post.imp {R Q : α → Prop} {x : Except ε α} (post : Post E R x) (weaker : ∀ a, R a → Q a) :
    Post E Q x := by
  cases x with
  | error e => exact post
  | ok a => exact weaker a post

/-- Two computations after another return what the second one does with the result of the first. -/
lemma bind_eq_ok_iff {ε α β : Type} {x : Except ε α} {g : α → Except ε β} {b : β} :
    x >>= g = .ok b ↔ ∃ a, x = .ok a ∧ g a = .ok b := by
  cases x with
  | error e => exact iff_of_false nofun fun ⟨a, given, _⟩ => nomatch given
  | ok a => exact ⟨fun given => ⟨a, rfl, given⟩, fun ⟨a', same, given⟩ => by cases same; exact given⟩

/-- A list of computations, of which the results are known, returns if each of them does. -/
lemma mapM_eq_ok_iff {ε α β : Type} {f : α → Except ε β} {g : α → β} (known : ∀ x y, f x = .ok y → g x = y)
    {xs : List α} {ys : List β} : xs.mapM f = .ok ys ↔ (∀ x ∈ xs, f x = .ok (g x)) ∧ xs.map g = ys := by
  induction xs generalizing ys with
  | nil =>
    rw [List.mapM_nil, List.map_nil]
    exact ⟨fun given => ⟨nofun, Except.ok.inj given⟩, fun both => congrArg Except.ok both.2⟩
  | cons x xs ih =>
    rw [List.mapM_cons, bind_eq_ok_iff, List.forall_mem_cons, List.map_cons]
    constructor
    · rintro ⟨y, first, rest⟩
      obtain ⟨ys', given, same⟩ := bind_eq_ok_iff.mp rest
      obtain ⟨all, rfl⟩ := ih.mp given
      cases known x y first
      exact ⟨⟨first, all⟩, Except.ok.inj same⟩
    · rintro ⟨⟨first, all⟩, rfl⟩
      exact ⟨g x, first, bind_eq_ok_iff.mpr ⟨xs.map g, ih.mpr ⟨all, rfl⟩, rfl⟩⟩

end OsterLib.Lib
