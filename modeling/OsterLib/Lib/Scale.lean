import Mathlib.Tactic.Lemma
import Mathlib.Algebra.Order.Ring.Int
import Mathlib.Data.Nat.GCD.Basic

/-!
# Scaling integers

An integer is scaled by a fraction and truncated towards zero. Scaling it back leads to no larger one
(`scale_back_between`), and returns it if and only if the denominator divides it (`scale_back_iff`).
-/

namespace OsterLib.Lib

/-- `v * num / den`, truncated towards zero. -/
def scale (num den : Nat) (v : Int) : Int := (v * num).tdiv den

/-- A negative number is scaled like its absolute value. -/
lemma scale_neg (num den : Nat) (v : Int) : scale num den (-v) = -scale num den v := by
  unfold scale
  rw [Int.neg_mul, Int.neg_tdiv]

/-- A natural number is scaled in natural numbers. -/
lemma scale_natCast (num den n : Nat) : scale num den n = ((n * num / den : Nat) : Int) := rfl

/-- Where the denominator divides the number, nothing is truncated. -/
lemma scale_mul_of_dvd {num den : Nat} {v : Int} (dvd : (den : Int) ∣ v) : scale num den v * den = v * num :=
  Int.tdiv_mul_cancel (Dvd.dvd.mul_right dvd _)

/-- Every number is a natural number or the negation of one. -/
lemma scale_induction {motive : Int → Prop} (nonneg : ∀ n : Nat, motive n)
    (neg : ∀ v, motive v → motive (-v)) (v : Int) : motive v := by
  cases v with
  | ofNat n => exact nonneg n
  | negSucc n => exact neg _ (nonneg (n + 1))

/-- A quotient has the sign of the number and is no larger. -/
lemma tdiv_between (v : Int) (den : Nat) :
    0 ≤ v ∧ 0 ≤ v.tdiv den ∧ v.tdiv den ≤ v ∨ v ≤ 0 ∧ v.tdiv den ≤ 0 ∧ v ≤ v.tdiv den := by
  induction v using scale_induction with
  | nonneg n =>
    have le := Int.tdiv_le_self den (Int.natCast_nonneg n)
    have nonneg := Int.tdiv_nonneg (Int.natCast_nonneg n) (Int.natCast_nonneg den)
    exact .inl ⟨Int.natCast_nonneg n, nonneg, le⟩
  | neg v ih =>
    rw [Int.neg_tdiv]
    omega

section back
variable {num den : Nat}

/-- Scaled there and back, a number keeps its sign and does not grow. -/
lemma scale_back_between (v : Int) :
    0 ≤ v ∧ 0 ≤ scale den num (scale num den v) ∧ scale den num (scale num den v) ≤ v ∨
      v ≤ 0 ∧ scale den num (scale num den v) ≤ 0 ∧ v ≤ scale den num (scale num den v) := by
  induction v using scale_induction with
  | nonneg n =>
    have le : n * num / den * den / num ≤ n := by
      apply Nat.div_le_of_le_mul
      rw [Nat.mul_comm num n]
      exact Nat.div_mul_le_self _ _
    rw [scale_natCast, scale_natCast]
    generalize n * num / den * den / num = m at le ⊢
    omega
  | neg v ih =>
    rw [scale_neg, scale_neg]
    omega

/-- Scaling there and back gives a number again exactly if the denominator divides it. -/
lemma scale_back_iff_nat (pos : 0 < num) (coprime : num.Coprime den) (n : Nat) :
    n * num / den * den / num = n ↔ den ∣ n := by
  have dvd : den ∣ n * num ↔ den ∣ n := coprime.symm.dvd_mul_right
  rw [← dvd]
  refine ⟨fun same => ?_, fun whole => ?_⟩
  · have le := Nat.div_mul_le_self (n * num / den * den) num
    rw [same] at le
    -- what is truncated first is missing in the end
    have exact := Nat.le_antisymm (Nat.div_mul_le_self (n * num) den) le
    exact ⟨n * num / den, by rw [Nat.mul_comm den, exact]⟩
  · rw [Nat.div_mul_cancel whole, Nat.mul_div_cancel n pos]

/-- A number is returned if and only if its denominator divides it. -/
lemma scale_back_iff (pos : 0 < num) (coprime : num.Coprime den) (v : Int) :
    scale den num (scale num den v) = v ↔ (den : Int) ∣ v := by
  induction v using scale_induction with
  | nonneg n =>
    rw [scale_natCast, scale_natCast, Int.natCast_inj, Int.natCast_dvd_natCast]
    exact scale_back_iff_nat pos coprime n
  | neg v ih => rw [scale_neg, scale_neg, Int.neg_inj, ih, Int.dvd_neg]

end back
end OsterLib.Lib
