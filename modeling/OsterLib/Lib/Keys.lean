import Mathlib.Data.Set.Defs
import Mathlib.Order.Lattice
import Mathlib.Tactic.Lemma

/-!
# Keys of containers

What ordered and unordered containers ask of an equality, a hash and an order of their keys. The order may be undefined
on some of them.

`coherent_of_key` gets all of it from a value in a linear order that the order compares and the equality and the hash
depend on.
-/

namespace OsterLib.Lib

section Keys
variable {α η κ : Type*}

/-- Neither of two keys is before the other. -/
def Incomparable (less : α → α → Option Bool) (a b : α) : Prop := less a b = some false ∧ less b a = some false

/-- Equal keys have one hash, the order is a strict weak order, and the keys that it does not tell apart are equal. -/
structure Coherent (equal : α → α → Bool) (hash : α → η) (less : α → α → Option Bool) (keys : Set α) : Prop where
  hash_eq : ∀ a ∈ keys, ∀ b ∈ keys, equal a b = true → hash a = hash b
  irrefl : ∀ a ∈ keys, less a a = some false
  trans : ∀ a ∈ keys, ∀ b ∈ keys, ∀ c ∈ keys, less a b = some true → less b c = some true → less a c = some true
  incomparable_trans : ∀ a ∈ keys, ∀ b ∈ keys, ∀ c ∈ keys,
    Incomparable less a b → Incomparable less b c → Incomparable less a c
  incomparable_iff : ∀ a ∈ keys, ∀ b ∈ keys, Incomparable less a b ↔ equal a b = true

variable {equal : α → α → Bool} {hash : α → η} {less : α → α → Option Bool} {keys : Set α}

/-- An order that compares a value of the keys in a linear order, which the equality and the hash depend on -/
theorem coherent_of_key [LinearOrder κ] (key : α → κ)
    (order : ∀ a ∈ keys, ∀ b ∈ keys, less a b = some (decide (key a < key b)))
    (equal_iff : ∀ a ∈ keys, ∀ b ∈ keys, equal a b = true ↔ key a = key b)
    (hash_eq : ∀ a ∈ keys, ∀ b ∈ keys, equal a b = true → hash a = hash b) : Coherent equal hash less keys := by
  have less_iff : ∀ a ∈ keys, ∀ b ∈ keys, less a b = some true ↔ key a < key b := by
    intro a a_mem b b_mem
    rw [order a a_mem b b_mem, Option.some.injEq, decide_eq_true_iff]
  have incomparable_iff : ∀ a ∈ keys, ∀ b ∈ keys, Incomparable less a b ↔ key a = key b := by
    intro a a_mem b b_mem
    rw [Incomparable, order a a_mem b b_mem, order b b_mem a a_mem, Option.some.injEq, Option.some.injEq,
      decide_eq_false_iff_not, decide_eq_false_iff_not, not_lt, not_lt]
    constructor
    · exact fun both => le_antisymm both.2 both.1
    · exact fun same => ⟨same.ge, same.le⟩
  refine ⟨hash_eq, ?_, ?_, ?_, ?_⟩
  · intro a mem
    rw [order a mem a mem, decide_eq_false (lt_irrefl _)]
  · intro a a_mem b b_mem c c_mem
    rw [less_iff a a_mem b b_mem, less_iff b b_mem c c_mem, less_iff a a_mem c c_mem]
    exact lt_trans
  · intro a a_mem b b_mem c c_mem
    rw [incomparable_iff a a_mem b b_mem, incomparable_iff b b_mem c c_mem, incomparable_iff a a_mem c c_mem]
    exact Eq.trans
  · intro a a_mem b b_mem
    rw [incomparable_iff a a_mem b b_mem, equal_iff a a_mem b b_mem]

end Keys

end OsterLib.Lib
